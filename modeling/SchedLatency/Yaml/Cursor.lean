namespace SchedLatency.Yaml

structure Cursor where
  rest : List Char
  index : Nat
  line : Nat
  column : Nat
  /-- Have only blanks been read on this line? -/
  fresh : Bool
  deriving DecidableEq

/-- Stands for the end of the text. -/
def ending : Char := '\x00'

def isBreak (c : Char) : Bool := c = '\n' || c = '\r'

def isSpace (c : Char) : Bool := c = ' ' || c = '\t'

def isLineEnd (c : Char) : Bool := isBreak c || c=ending

def isGap (c : Char) : Bool := isSpace c || isLineEnd c

def isFlow (c : Char) : Bool :=
  c = ',' || c = '[' || c = ']' || c = '\x7b' || c = '\x7d'

namespace Cursor

/-- The beginning of a text, which a null character ends. -/
def start (text : List Char) : Cursor := ⟨text.takeWhile (· ≠ ending),0,0,0,true⟩

def ahead (c : Cursor) (n : Nat) : Char := (c.rest[n]?).getD ending

def char (c : Cursor) : Char := c.ahead 0

def pass (c : Cursor) : Nat → Cursor
  | 0 => c
  | n+1 =>
    match c.rest with
    | [] => c
    | _ :: rest => pass {c with rest := rest,index := c.index+1,column := c.column+1} n

/-- Goes over characters of which at least one is no blank. -/
def skip (c : Cursor) (n : Nat) : Cursor := {c.pass n with fresh := false}

def nextLine (c : Cursor) : Cursor :=
  let n := if c.char = '\r' && c.ahead 1 = '\n' then 2 else 1
  {c.pass n with line := c.line+1,column := 0,fresh := true}

def run (c : Cursor) (p : Char → Bool) : List Char := c.rest.takeWhile p

def passSpaces (c : Cursor) : Cursor := c.pass (c.run isSpace).length

def skipLine (c : Cursor) : Cursor :=
  let n := (c.run fun x => !isLineEnd x).length
  if n=0 then c else c.skip n

/-- Goes over blanks and a comment behind them. A comment that no blank precedes is a fault. -/
def toLineEnd? (c : Cursor) : Option Cursor :=
  let d := c.passSpaces
  if d.char = '#' then if d.column=c.column then none else some d.skipLine
  else some d

def atMarker (c : Cursor) : Bool :=
  let is_ (x : Char) := c.char=x && c.ahead 1=x && c.ahead 2=x
  c.column=0 && (is_ '-' || is_ '.') && isGap (c.ahead 3)

/-- How indentation bears on blanks: in a block with this indentation a tab may not stand where
a line is indented, unless the line is empty. -/
structure Margin where
  inBlock : Bool
  indent : Int

def Margin.forbids (m : Margin) (c : Cursor) : Bool :=
  c.char = '\t' && m.inBlock && c.fresh && c.column < m.indent

def toToken? (m : Margin) : Nat → Cursor → Bool → Option (Cursor×Bool)
  | 0,c,ended => some (c,ended)
  | fuel+1,c,ended =>
    if m.forbids c then do
      let d ← c.toLineEnd?
      if isLineEnd d.char then toToken? m fuel d ended else none
    else if isSpace c.char then toToken? m fuel (c.pass 1) ended
    else if isBreak c.char then toToken? m fuel c.nextLine true
    else if c.char = '#' then toToken? m fuel c.skipLine ended
    else some (c,ended)

end Cursor
end SchedLatency.Yaml
