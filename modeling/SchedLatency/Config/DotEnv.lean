import SchedLatency.Text.Blank
import SchedLatency.Text.Letter
import SchedLatency.Text.Utf8

namespace SchedLatency.Config.DotEnv

open Text

/-- Where in a logical line the end of a physical line falls. -/
inductive Fold where
  | complete
  | escape
  | strong
  | strongEscape
  | weak
  | weakEscape
  | blank
  deriving DecidableEq, Repr

def Fold.step (f : Fold) (c : Char) : Fold :=
  let opening : Fold :=
    if c = '\\' then .escape else if c = '"' then .weak else if c = '\'' then .strong
    else .complete
  match f with
  | .blank => opening
  | .escape => .complete
  | .complete => if isBlank c && c ≠ '\n' && c ≠ '\r' then .blank else opening
  | .weak => if c = '\\' then .weakEscape else if c = '"' then .complete else .weak
  | .weakEscape => .weak
  | .strong => if c = '\\' then .strongEscape else if c = '\'' then .complete else .strong
  | .strongEscape => .strong

/-- Follows a physical line. Gives what precedes a comment, if one begins, or the state at its
end. -/
def Fold.scan (f : Fold) (before : List Char) : List Char → List Char⊕Fold
  | [] => .inr f
  | c :: rest =>
    if f=.blank && c = '#' then .inl before.reverse
    else (f.step c).scan (c :: before) rest

def physicalLines (chars : List (Option Char)) : List (Option (List Char)) :=
  let rec go (current : Option (List Char)) (started : Bool) :
      List (Option Char) → List (Option (List Char))
    | [] => if started then [current.map List.reverse] else []
    | none :: rest => go none true rest
    | some '\n' :: rest => current.map (fun l => ('\n' :: l).reverse) :: go (some []) false rest
    | some c :: rest => go (current.map (c :: ·)) true rest
  go (some []) false chars

def chomp (line : List Char) : List Char :=
  match line.reverse with
  | '\n' :: '\r' :: rest => rest.reverse
  | '\n' :: rest => rest.reverse
  | _ => line

/-- A logical line, or the news that the text ended inside one or was not text. -/
inductive Line where
  | text (cs : List Char)
  | broken
  deriving DecidableEq

/-- Joins physical lines into logical ones. The physical lines of an unfinished logical line are
in `open_`, and `fold` is the state at its end. -/
def logicalLines (open_ : List Char) (fold : Fold) : List (Option (List Char)) → List Line
  | [] => if fold=.complete then [] else [.broken]
  | none :: _ => [.broken]
  | some line :: rest =>
    let whole := open_++line
    if (whole.dropWhile isBlank).head? = some '#' then .text [] :: logicalLines [] .complete rest
    else match fold.scan [] line with
      | .inl before => .text (open_++before) :: logicalLines [] .complete rest
      | .inr .complete => .text (chomp whole) :: logicalLines [] .complete rest
      | .inr fold => logicalLines whole fold rest

/-- The names that references are looked up in: variables that are set, then those that the file
has mentioned. -/
structure Scope where
  known : List (String×String)
  mentioned : List (String×String)

def Scope.value (s : Scope) (name : List Char) : List Char :=
  let name := String.ofList name
  let found := (s.known.lookup name).orElse fun _ => s.mentioned.lookup name
  (found.getD "").toList

inductive Reference where
  | outside
  | plain (name : List Char)
  | braced (name : List Char)
  deriving DecidableEq

structure Reading where
  strong : Bool
  weak : Bool
  escaped : Bool
  ending : Bool
  reference : Reference
  output : List Char

def Reading.start : Reading := ⟨false,false,false,false,.outside,[]⟩

def Reading.emit (r : Reading) (cs : List Char) : Reading := {r with output := cs.reverse++r.output}

def Reading.resolve (s : Scope) (r : Reading) : Reading :=
  match r.reference with
  | .outside => r
  | .plain name | .braced name =>
    {r with reference := .outside}.emit (s.value name.reverse)

def Reading.ordinary (r : Reading) (c : Char) : Reading :=
  if c = '$' then {r with reference := .plain []}
  else if r.weak then
    if c = '"' then {r with weak := false}
    else if c = '\\' then {r with escaped := true}
    else r.emit [c]
  else if c = '\'' then {r with strong := true}
  else if c = '"' then {r with weak := true}
  else if c = '\\' then {r with escaped := true}
  else if c = ' ' || c = '\t' then {r with ending := true}
  else r.emit [c]

def unescape? (c : Char) : Option Char :=
  if c = '\\' || c = '\'' || c = '"' || c = '$' || c = ' ' then some c
  else if c = 'n' then some '\n'
  else none

def Reading.refer (s : Scope) (r : Reading) (c : Char) : Reading :=
  match r.reference with
  | .outside => r.ordinary c
  | .plain name =>
    if isLetterOrNumeral c then {r with reference := .plain (c :: name)}
    else if c = '\x7b' && name.isEmpty then {r with reference := .braced []}
    else
      let r := r.resolve s
      if c = '$' then {r with reference := .plain []} else r.emit [c]
  | .braced name =>
    if isLetterOrNumeral c then {r with reference := .braced (c :: name)}
    else if c = '\x7d' then r.resolve s
    else {r with reference := .braced (c :: name)}

def readValue (s : Scope) (r : Reading) : List Char → Option (List Char)
  | [] =>
    match r.reference with
    | .braced _ => none
    | _ => if r.strong || r.weak then none else some ((r.resolve s).output.reverse)
  | c :: rest =>
    if r.ending then
      if c = ' ' || c = '\t' then readValue s r rest
      else if c = '#' then readValue s r []
      else none
    else if r.escaped then
      match unescape? c with
      | some c => readValue s ({r with escaped := false}.emit [c]) rest
      | none => none
    else if r.strong then
      if c = '\'' then readValue s {r with strong := false} rest
      else readValue s (r.emit [c]) rest
    else readValue s (r.refer s c) rest
termination_by cs => cs.length

def isNameChar (c : Char) : Bool := c.isAlphanum || c = '_' || c = '.'

def name? (cs : List Char) : Option (String×List Char) :=
  match cs with
  | c :: _ =>
    if c.isAlpha || c = '_' then
      some (String.ofList (cs.takeWhile isNameChar),cs.dropWhile isNameChar)
    else none
  | [] => none

def afterEquals? : List Char → Option (List Char)
  | '=' :: rest => some (rest.dropWhile isBlank)
  | _ => none

/-- The name that a line sets and the text of its value; the word `export` may precede them. -/
def assignment? (cs : List Char) : Option (String×List Char) := do
  let (name,rest) ← name? cs
  let rest := rest.dropWhile isBlank
  match afterEquals? rest with
  | some value => return (name,value)
  | none =>
    if name = "export" then
      let (name,rest) ← name? rest
      return (name,← afterEquals? (rest.dropWhile isBlank))
    else none

inductive Entry where
  | nothing
  | variable (name value : String)
  | fault
  deriving DecidableEq

def isVoid (cs : List Char) : Bool := cs.isEmpty || cs.head? = some '#'

def parseLine (s : Scope) (line : List Char) : Entry :=
  let cs := (trimEndList line).dropWhile isBlank
  if isVoid cs then .nothing
  else match assignment? cs with
    | none => .fault
    | some (name,value) =>
      if isVoid value then .variable name ""
      else match readValue s .start value with
        | some out => .variable name (String.ofList out)
        | none => .fault

/-- Sets the variables of some lines that are not set yet, up to the first fault. -/
def loadLines (s : Scope) : List Line → List (String×String)
  | [] => s.known
  | .broken :: _ => s.known
  | .text line :: rest =>
    match parseLine s line with
    | .fault => s.known
    | .nothing => loadLines s rest
    | .variable name value =>
      let known :=
        if (s.known.lookup name).isSome then s.known else s.known++[(name,value)]
      loadLines ⟨known,(name,value) :: s.mentioned⟩ rest

def load (env : List (String×String)) (file : List UInt8) : List (String×String) :=
  let lines := physicalLines (Utf8.decode (Utf8.dropMark file))
  loadLines ⟨env,[]⟩ (logicalLines [] .complete lines)

end SchedLatency.Config.DotEnv
