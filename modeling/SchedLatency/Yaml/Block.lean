import SchedLatency.Decimal.Reading
import SchedLatency.Yaml.Cursor

namespace SchedLatency.Yaml.Block

inductive Chomping where
  | clip
  | strip
  | keep
  deriving DecidableEq, Repr

structure Header where
  chomping : Chomping
  /-- Indentation of the lines beyond that of the block around them, if it is told. -/
  indent : Option Nat
  deriving DecidableEq, Repr

def chomping? (x : Char) : Option Chomping :=
  if x = '+' then some .keep else if x = '-' then some .strip else none

def readHeader? (c : Cursor) : Option (Header×Cursor) :=
  let digit (c : Cursor) := Decimal.digitValue? 10 c.char
  match chomping? c.char with
  | some chomping =>
    let c := c.skip 1
    match digit c with
    | some 0 => none
    | some n => some (⟨chomping,some n⟩,c.skip 1)
    | none => some (⟨chomping,none⟩,c)
  | none =>
    match digit c with
    | some 0 => none
    | some n =>
      let c := c.skip 1
      match chomping? c.char with
      | some chomping => some (⟨chomping,some n⟩,c.skip 1)
      | none => some (⟨.clip,some n⟩,c)
    | none => some (⟨.clip,none⟩,c)

/-- Goes over spaces up to column `indent`, and over lines that hold no more. Gives the number of
these lines. -/
def passLines (indent : Nat) : Nat → Cursor → Nat → Nat×Cursor
  | 0,c,lines => (lines,c)
  | fuel+1,c,lines =>
    let n := (c.run (· = ' ')).length
    let c := c.pass (min n (indent-c.column))
    if isBreak c.char then passLines indent fuel c.nextLine (lines+1) else (lines,c)

/-- Goes over empty lines and the spaces in front of the first line that is not. Gives the number
of the empty ones and the greatest column met. -/
def passLeading : Nat → Cursor → Nat → Nat → Nat×Nat×Cursor
  | 0,c,lines,widest => (lines,widest,c)
  | fuel+1,c,lines,widest =>
    let c := c.pass (c.run (· = ' ')).length
    let widest := max widest c.column
    if isBreak c.char then passLeading fuel c.nextLine (lines+1) widest else (lines,widest,c)

structure Reading where
  text : List Char
  pendingEnd : Bool
  empties : Nat
  indented : Bool
  deriving DecidableEq

def lineEnds (n : Nat) : List Char := List.replicate n '\n'

/-- Writes the line end in front of a line. Folding makes it a space, or drops it for empty lines,
unless one of the two lines begins with a blank. -/
def Reading.openLine (literal : Bool) (r : Reading) (first : Char) : List Char :=
  let text :=
    if !literal && r.pendingEnd && !r.indented && !isSpace first then
      if r.empties=0 then ' ' :: r.text else r.text
    else if r.pendingEnd then '\n' :: r.text
    else r.text
  lineEnds r.empties++text

/-- Dashes or points on the left edge end a scalar that is not indented. -/
def atEdgeMark (c : Cursor) : Bool :=
  let is_ (x : Char) := c.char=x && c.ahead 1=x && c.ahead 2=x
  is_ '-' || is_ '.'

def readLines (literal : Bool) (indent : Nat) : Nat → Cursor → Reading → Reading×Cursor
  | 0,c,r => (r,c)
  | fuel+1,c,r =>
    if c.column≠indent || c.char=ending || (indent=0 && atEdgeMark c) then (r,c)
    else
      let line := c.run fun x => !isLineEnd x
      let text := line.reverse++r.openLine literal c.char
      let d := c.skipLine
      if d.char=ending then (⟨text,false,0,isSpace c.char⟩,d)
      else
        let (empties,e) := passLines indent (d.rest.length+1) d.nextLine 0
        readLines literal indent fuel e ⟨text,true,empties,isSpace c.char⟩

/-- The text with the line ends at its end as they are wanted. Where the text ends on a line that
is indented as a line of the scalar, that line counts as ended. -/
def finish (chomping : Chomping) (indent : Nat) (r : Reading) (c : Cursor) : List Char :=
  let final := if c.char=ending && max indent 1≤c.column then ['\n'] else []
  let tail := if r.pendingEnd then ['\n'] else []
  let ends : List Char :=
    match chomping with
    | .strip => []
    | .clip => tail++final
    | .keep => tail++final++lineEnds r.empties
  r.text.reverse++ends

/-- The text of a scalar without lines, behind whose header the text has ended: whether the header
has a line end, and how many empty lines follow. -/
def withoutLines (chomping : Chomping) (headerEnds : Bool) (empties : Nat) : List Char :=
  match chomping,headerEnds with
  | .strip,_ | _,false => []
  | .clip,true => ['\n']
  | .keep,true => lineEnds (max 1 empties)

def read? (literal : Bool) (outer : Int) (c : Cursor) : Option (String×Cursor) := do
  let (header,d) ← readHeader? (c.skip 1)
  let d ← d.toLineEnd?
  if !isLineEnd d.char then none
  let headerEnds := isBreak d.char
  let d := if headerEnds then d.nextLine else d
  if d.char = '\t' then none
  let fuel := d.rest.length+1
  let (empties,indent,e) := match header.indent with
    | some n =>
      let indent := (max outer 0).toNat+n
      let (empties,e) := passLines indent fuel d 0
      (empties,indent,e)
    | none =>
      let (empties,widest,e) := passLeading fuel d 0 0
      (empties,max widest (outer+1).toNat,e)
  if e.char=ending then
    return (String.ofList (withoutLines header.chomping headerEnds empties),e)
  if e.column < indent && (e.column : Int)>outer then none
  let (r,e) := readLines literal indent (e.rest.length+1) e ⟨[],false,empties,false⟩
  return (String.ofList (finish header.chomping indent r e),e)

end SchedLatency.Yaml.Block
