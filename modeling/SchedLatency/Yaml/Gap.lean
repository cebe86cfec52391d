import SchedLatency.Yaml.Cursor

namespace SchedLatency.Yaml

structure Gap where
  spaces : List Char
  lines : Nat
  deriving DecidableEq

namespace Gap

def empty : Gap := ⟨[],0⟩

def text (g : Gap) : List Char :=
  match g.lines with
  | 0 => g.spaces
  | 1 => [' ']
  | n+2 => List.replicate (n+1) '\n'

/-- What the run stands for when a backslash has taken its first line end away. -/
def escapedText (g : Gap) : List Char := List.replicate g.lines '\n'

/-- Goes over blanks and line ends, at most `fuel` of them. Behind a line end, a tab in front of
column `indent` is a fault, unless `lenient` and its line is empty. -/
def read? (lenient : Bool) (indent : Int) : Nat → Cursor → Gap → Option (Gap×Cursor)
  | 0,c,g => some (g,c)
  | fuel+1,c,g =>
    if isBreak c.char then read? lenient indent fuel c.nextLine ⟨g.spaces,g.lines+1⟩
    else if !isSpace c.char then some (g,c)
    else if !c.fresh then
      read? lenient indent fuel (c.pass 1) ⟨g.spaces++[c.char],g.lines⟩
    else if c.char = '\t' && c.column < indent then
      if lenient then do
        let d ← c.toLineEnd?
        if isLineEnd d.char then read? lenient indent fuel d g else none
      else none
    else read? lenient indent fuel (c.pass 1) g

end Gap
end SchedLatency.Yaml
