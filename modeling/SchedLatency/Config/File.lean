import SchedLatency.Config.Value
import SchedLatency.Decimal.Plain
import SchedLatency.Decimal.Reading
import SchedLatency.Files
import SchedLatency.Text.Quoted
import SchedLatency.Text.Utf8
import SchedLatency.Yaml.Node

namespace SchedLatency.Config

inductive FileFault where
  | badText
  | documents (count : Nat)
  | nonFinite (text : String)
  | noTable (root : String)
  deriving DecidableEq, Repr

def FileFault.message (origin : String) : FileFault → String
  | badText => "malformed text in " ++ origin
  | documents count =>
    "Got " ++ Decimal.digits count ++ " YAML documents, expected 1 in " ++ origin
  | nonFinite text =>
    "Parsing " ++ text ++ " as floating point number failed in " ++ origin
  | noTable root =>
    "invalid type: " ++ root ++ ", expected a map in " ++ origin ++ " in " ++ origin

inductive FileError where
  | notFound (name : String)
  | unknownFormat (path : String)
  | fault (origin : String) (f : FileFault)
  | badKey
  deriving DecidableEq, Repr

namespace File

def readableEndings : List String := ["yaml","yml","json"]

def otherEndings : List String := ["toml","ini","ron","json5"]

/-- The last part of a path that names something, if it does not go up. -/
def lastName? (path : String) : Option String :=
  match ((path.splitOn "/").filter fun part => part ≠ "" && part ≠ ".").getLast? with
  | some name => if name = ".." then none else some name
  | none => none

/-- What stands behind the last point of a name that does not begin with it. -/
def ending? (path : String) : Option String := do
  let name ← lastName? path
  let behind := name.toList.reverse.takeWhile (· ≠ '.')
  if behind.length+1<name.length then some (String.ofList behind.reverse) else none

def trimPath (path : String) : String :=
  let rec go : List Char → List Char
    | '/' :: rest => go rest
    | '.' :: '/' :: rest => go rest
    | cs => cs
  String.ofList (go path.toList.reverse).reverse

def candidates (name : String) : List String :=
  match lastName? name with
  | some _ => (readableEndings++otherEndings).map fun ending => trimPath name ++ "." ++ ending
  | none => []

def fullPath (files : Files) (path : String) : String :=
  if path.startsWith "/" then path else files.home ++ "/" ++ path

def locate (files : Files) (name : String) : Except FileError String :=
  if files.hasFile name then
    if (ending? name).any (· ∈ readableEndings++otherEndings) then .ok name
    else .error (.unknownFormat (fullPath files name))
  else match (candidates name).find? files.hasFile with
    | some path => .ok path
    | none => .error (.notFound name)

/-- What messages call a file: its path without parts that name nothing. -/
def originOf (path : String) : String :=
  let parts := (path.splitOn "/").filter fun part => part ≠ "" && part ≠ "."
  (if path.startsWith "/" then "/" else "") ++ "/".intercalate parts

inductive NodeFault where
  | badKey
  | nonFinite (text : String)

def key? : Yaml.Node → Option String
  | .text s => some s
  | .integer n => some (if n<0 then "-" ++ Decimal.digits n.natAbs else Decimal.digits n.natAbs)
  | _ => none

mutual

def value (origin : String) : Yaml.Node → Except NodeFault Value
  | .null | .bad => .ok (.scalar (some origin) .null)
  | .bool b => .ok (.scalar (some origin) (.bool b))
  | .integer n => .ok (.scalar (some origin) (.integer n))
  | .real text =>
    match Decimal.double? text with
    | some x => .ok (.scalar (some origin) (.float x))
    | none => .error (.nonFinite text)
  | .text s => .ok (.scalar (some origin) (.text s))
  | .list items => do return .list (some origin) (← values origin items)
  | .table pairs => do return .table (some origin) (← pairValues origin [] pairs)

def values (origin : String) : List Yaml.Node → Except NodeFault (List Value)
  | [] => .ok []
  | n :: rest => do return (← value origin n) :: (← values origin rest)

/-- The entries that some pairs stand for, behind those before them. The last of several entries
with one key counts. -/
def pairValues (origin : String) (before : List (String×Value)) :
    List (Yaml.Node×Yaml.Node) → Except NodeFault (List (String×Value))
  | [] => .ok before
  | (k,n) :: rest =>
    match key? k with
    | none => .error .badKey
    | some key => do pairValues origin (Association.set key (← value origin n) before) rest

end

def describe : Value → String
  | .scalar _ .null => "unit value"
  | .scalar _ (.bool b) => "boolean `" ++ (if b then "true" else "false") ++ "`"
  | .scalar _ (.integer n) =>
    "64-bit integer `" ++ (if n<0 then "-" else "") ++ Decimal.digits n.natAbs ++ "`"
  | .scalar _ (.float x) => "floating point `" ++ Decimal.plain x ++ "`"
  | .scalar _ (.text s) => "string " ++ Text.quoted s
  | .list _ _ => "sequence"
  | .table _ _ => "map"

/-- The value that a text stands for. Without a document it is an empty table. -/
def parse (origin : String) (text : List Char) : Except FileError (List (String×Value)) := do
  let fault {α : Type} (f : FileFault) : Except FileError α := .error (.fault origin f)
  match Yaml.Node.ofText? text with
  | none => fault .badText
  | some [] => return []
  | some [root] =>
    match value origin root with
    | .error .badKey => .error .badKey
    | .error (.nonFinite text) => fault (.nonFinite text)
    | .ok (.table _ entries) => return entries
    | .ok root => fault (.noTable (describe root))
  | some roots => fault (.documents roots.length)

def load (files : Files) (name : String) : Except FileError (List (String×Value)) := do
  let path ← locate files name
  let origin := originOf path
  match files.find path with
  | .file (.bytes bytes) =>
    if (ending? path).any (· ∈ readableEndings) then
      parse origin (Text.Utf8.decodeLossy (Text.Utf8.dropMark bytes))
    else .error (.fault origin .badText)
  | _ => .error (.fault origin .badText)

end File
end SchedLatency.Config
