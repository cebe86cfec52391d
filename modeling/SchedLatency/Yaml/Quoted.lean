import SchedLatency.Decimal.Reading
import SchedLatency.Yaml.Gap

namespace SchedLatency.Yaml.Quoted

def escape? (c : Char) : Option Char :=
  let table := [('0','\x00'),('a','\x07'),('b','\x08'),('t','\t'),('\t','\t'),('n','\n'),
    ('v','\x0b'),('f','\x0c'),('r','\r'),('e','\x1b'),(' ',' '),('"','"'),('/','/'),
    ('\\','\\'),('N','\u0085'),('_','\u00a0'),('L','\u2028'),('P','\u2029')]
  table.lookup c

def escapeWidth? (c : Char) : Option Nat :=
  if c = 'x' then some 2 else if c = 'u' then some 4 else if c = 'U' then some 8 else none

def ofNumber? (n : Nat) : Option Char := if n.isValidChar then some (Char.ofNat n) else none

def readEscape? (c : Cursor) : Option (Char×Cursor) :=
  match escapeWidth? (c.ahead 1) with
  | none => (escape? (c.ahead 1)).map fun x => (x,c.skip 2)
  | some width => do
    let digits := (c.rest.drop 2).take width
    let n ← if digits.length=width then Decimal.natural? 16 digits else none
    return (← ofNumber? n,c.skip (2+width))

/-- Reads up to a blank, a line end or the closing quote, at most `fuel` characters. Gives the
text so far in reverse and says whether an escaped line end was met. -/
def readRun? (single : Bool) : Nat → Cursor → List Char → Option (List Char×Cursor×Bool)
  | 0,c,text => some (text,c,false)
  | fuel+1,c,text =>
    let x := c.char
    if isGap x then some (text,c,false)
    else if single then
      if x = '\'' then
        if c.ahead 1 = '\'' then readRun? single fuel (c.skip 2) ('\'' :: text)
        else some (text,c,false)
      else readRun? single fuel (c.skip 1) (x :: text)
    else if x = '"' then some (text,c,false)
    else if x = '\\' then
      if isBreak (c.ahead 1) then some (text,(c.skip 1).nextLine,true)
      else do
        let (y,c) ← readEscape? c
        readRun? single fuel c (y :: text)
    else readRun? single fuel (c.skip 1) (x :: text)

def mark (single : Bool) : Char := if single then '\'' else '"'

def readBody? (single : Bool) (indent : Int) :
    Nat → Cursor → List Char → Option (List Char×Cursor)
  | 0,_,_ => none
  | fuel+1,c,text =>
    if c.atMarker || c.char=ending || c.column < indent then none
    else do
      let (text,c,escaped) ← readRun? single (c.rest.length+1) c text
      if c.char=mark single then return (text.reverse,c.skip 1)
      let (gap,c) ← Gap.read? false indent (c.rest.length+1) c .empty
      let folded := if escaped then gap.escapedText else gap.text
      readBody? single indent fuel c (folded.reverse++text)

/-- May this stand behind the closing quote? The quoted text may be a key, on one line outside of
flow collections. -/
def mayFollow (flow oneLine : Bool) (x : Char) : Bool :=
  isLineEnd x || (x = ':' && (flow || oneLine)) ||
    (flow && (x = ',' || x = ']' || x = '\x7d'))

def read? (single flow : Bool) (indent : Int) (c : Cursor) : Option (String×Cursor) := do
  let (text,d) ← readBody? single indent (c.rest.length+1) (c.skip 1) []
  let d ← d.toLineEnd?
  if mayFollow flow (d.line==c.line) d.char then return (String.ofList text,d) else none

end SchedLatency.Yaml.Quoted
