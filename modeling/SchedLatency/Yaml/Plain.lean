import SchedLatency.Yaml.Gap

namespace SchedLatency.Yaml.Plain

def belongs (flow : Bool) (x next : Char) : Bool :=
  if x = ':' then !(isGap next || (flow && isFlow next))
  else !(flow && isFlow x)

def runLength (flow : Bool) : List Char → Nat
  | [] => 0
  | x :: rest =>
    if isGap x || !belongs flow x (rest.head?.getD ending) then 0 else runLength flow rest+1

/-- Reads the scalar whose text so far, in reverse, and whose last gap are given. -/
def readBody? (flow : Bool) (indent : Int) :
    Nat → Cursor → List Char → Gap → Option (List Char×Cursor)
  | 0,_,_,_ => none
  | fuel+1,c,text,gap =>
    if (c.fresh && c.atMarker) || c.char = '#' then some (text.reverse,c)
    else if flow && c.char = '-' && isFlow (c.ahead 1) then none
    else
      let n := runLength flow c.rest
      let d := if n=0 then c else c.skip n
      let text := if n=0 then text else (c.rest.take n).reverse++(gap.text.reverse++text)
      if !(isSpace d.char || isBreak d.char) then some (text.reverse,d)
      else do
        let (gap,e) ← Gap.read? true indent (d.rest.length+1) d .empty
        if !flow && e.column < indent then return (text.reverse,e)
        readBody? flow indent fuel e text gap

def read? (flow : Bool) (indent : Int) (c : Cursor) : Option (String×Cursor) :=
  if flow && c.column < indent then none
  else (readBody? flow indent (c.rest.length+1) c [] .empty).map fun (text,d) =>
    (String.ofList text,d)

end SchedLatency.Yaml.Plain
