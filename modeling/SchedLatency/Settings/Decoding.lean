import SchedLatency.Config.Value
import SchedLatency.Decimal.Plain
import SchedLatency.Settings.Basic
import SchedLatency.Text.Blank
import SchedLatency.Text.Quoted

namespace SchedLatency.Settings

open Config

inductive Misfit where
  | integer (n : Int)
  | word (n : UInt64)
  | text (s : String)
  | null
  | list
  | table
  deriving DecidableEq, Repr

def integerText (n : Int) : String :=
  (if n<0 then "-" else "") ++ Decimal.digits n.natAbs

def boolText (b : Bool) : String := if b then "true" else "false"

def Misfit.describe : Misfit → String
  | integer n => "64-bit integer `" ++ integerText n ++ "`"
  | word n => "64-bit unsigned integer `" ++ Decimal.digits n.toNat ++ "`"
  | text s => "string " ++ Text.quoted s
  | null => "unit value"
  | list => "sequence"
  | table => "map"

inductive Wanted where
  | integer
  | word
  | halfWord
  | boolean
  | text
  deriving DecidableEq, Repr

def Wanted.describe : Wanted → String
  | integer => "an integer"
  | word => "an unsigned 64 bit or less integer"
  | halfWord => "an unsigned 32 bit integer"
  | boolean => "a boolean"
  | text => "a string"

inductive Fault where
  /-- A value cannot be converted. Where it comes from is told if it has a single source. -/
  | wrongType (found : Misfit) (wanted : Wanted) (key : String) (origin : Option String)
  | noChoice (choices name : String)
  | noName (choices : String)
  | wrongOutput (found : String)
  | shortOutput (size : Nat)
  | badPercentiles
  | badPercentile (text : String)
  deriving DecidableEq, Repr

def outputName : String := "struct OutputSettings"

def Fault.message : Fault → String
  | wrongType found wanted key origin =>
    "invalid type: " ++ found.describe ++ ", expected " ++ wanted.describe ++ " for key `" ++ key ++
      "`" ++ (origin.map (" in " ++ ·)).getD ""
  | noChoice choices name => "enum " ++ choices ++ " does not have variant constructor " ++ name
  | noName choices => "value of enum " ++ choices ++
      " should be represented by either string or table with exactly one key"
  | wrongOutput found => "invalid type: " ++ found ++ ", expected " ++ outputName
  | shortOutput size => "invalid length " ++ Decimal.digits size ++ ", expected " ++ outputName ++
      " with 6 elements"
  | badPercentiles => "data did not match any variant of untagged enum Percentiles"
  | badPercentile text => "invalid percentile `" ++ text ++ "`"

abbrev Decoder (α : Type) := String → Value → Except Fault α

namespace Decoder

def yesWords : List String := ["true","on","yes"]

def noWords : List String := ["false","off","no"]

def refuse {α : Type} (found : Misfit) (wanted : Wanted) : Decoder α := fun key v =>
  .error (.wrongType found wanted key v.origin)

/-- A word: an integer that is not negative, a boolean, the word nearest to a number, or a text
that says one of these. -/
def word : Decoder UInt64 := fun key v =>
  match v with
  | .scalar _ (.integer n) =>
    if n<0 then refuse (.integer n) .word key v else .ok (UInt64.ofNat n.toNat)
  | .scalar _ (.bool b) => .ok (if b then 1 else 0)
  | .scalar _ (.float x) => .ok (Decimal.Binary64.ofFloat x).toWord
  | .scalar _ (.text s) =>
    if Text.lower s∈yesWords then .ok 1
    else if Text.lower s∈noWords then .ok 0
    else match Decimal.word? s with
      | some n => .ok n
      | none => refuse (.text s) .integer key v
  | .scalar _ .null => refuse .null .integer key v
  | .list _ _ => refuse .list .integer key v
  | .table _ _ => refuse .table .integer key v

def halfWord : Decoder UInt32 := fun key v => do
  let n ← word key v
  if n.toNat<UInt32.size then return n.toUInt32
  else .error (.wrongType (.word n) .halfWord key none)

def boolean : Decoder Bool := fun key v =>
  match v with
  | .scalar _ (.integer n) => .ok (n≠0)
  | .scalar _ (.bool b) => .ok b
  | .scalar _ (.float x) => .ok (!(x==0))
  | .scalar _ (.text s) =>
    let s := Text.lower s
    if s∈"1" :: yesWords then .ok true
    else if s∈"0" :: noWords then .ok false
    else refuse (.text s) .boolean key v
  | .scalar _ .null => refuse .null .boolean key v
  | .list _ _ => refuse .list .boolean key v
  | .table _ _ => refuse .table .boolean key v

def text : Decoder String := fun key v =>
  match v with
  | .scalar _ (.integer n) => .ok (integerText n)
  | .scalar _ (.bool b) => .ok (boolText b)
  | .scalar _ (.float x) => .ok (Decimal.plain x)
  | .scalar _ (.text s) => .ok s
  | .scalar _ .null => refuse .null .text key v
  | .list _ _ => refuse .list .text key v
  | .table _ _ => refuse .table .text key v

def named {α : Type} (choices : String) (names : List (String×α)) (name : String) :
    Except Fault α :=
  match names.lookup (Text.lower name) with
  | some a => .ok a
  | none => .error (.noChoice choices name)

/-- One of several choices: its name, or a table with its name as the only key. -/
def choice {α : Type} (choices : String) (names : List (String×α)) : Decoder α := fun _ v =>
  match v with
  | .scalar _ (.text s) => named choices names s
  | .table _ [(name,_)] => named choices names name
  | _ => .error (.noName choices)

def keyLayout : Decoder KeyLayout := choice "KeyLayout" [("wide",.wide),("compact",.compact)]

def duplicatePolicy : Decoder DuplicatePolicy :=
  choice "DuplicatePolicy" [("sum",.sum),("keep",.keep)]

def rangeMode : Decoder RangeMode := choice "RangeMode" [("raw",.raw),("log2",.log2)]

end Decoder

inductive Percentile where
  | number (x : Float)
  | text (s : String)
  deriving DecidableEq

def doubleOf (n : Int) : Float :=
  let size := Float.ofScientific n.natAbs false 0
  if n<0 then size.neg else size

def Percentile.of? : Value → Option Percentile
  | .scalar _ (.integer n) => some (.number (doubleOf n))
  | .scalar _ (.float x) => some (.number x)
  | .scalar _ (.text s) => some (.text s)
  | _ => none

/-- The number that a percentile is. Blanks around its text do not matter. -/
def Percentile.read : Percentile → Except Fault Float
  | number x => .ok x
  | text s =>
    match Decimal.double? (Text.trim s) with
    | some x => .ok x
    | none => .error (.badPercentile s)

namespace Decoder

/-- Percentiles: one alone, or a list. Before any text is read, all of them have to be numbers or
texts. -/
def percentiles : Decoder (List Float) := fun _ v => do
  let items? := match v with
    | .list _ items => items.mapM Percentile.of?
    | v => (Percentile.of? v).map ([·])
  match items? with
  | some items => items.mapM Percentile.read
  | none => .error .badPercentiles

def nullable {α : Type} (d : Decoder α) : Decoder (Option α) := fun key v =>
  match v with
  | .scalar _ .null => .ok none
  | v => (d key v).map some

def entry {α : Type} (d : Decoder α) (table : Value) (name key : String) :
    Except Fault (Option α) :=
  match table.get? name with
  | some v => (d key v).map some
  | none => .ok none

def setting {α : Type} (d : Decoder α) (table : Value) (name key : String) :
    Except Fault (Option α) :=
  (entry (nullable d) table name key).map Option.join

def outputOfTable (key : String) (table : Value) : Except Fault Output := do
  let at_ (name : String) : String := key ++ "." ++ name
  return ⟨← setting halfWord table "pid" (at_ "pid"),
    ← setting rangeMode table "range_mode" (at_ "range_mode"),
    ← setting boolean table "histogram" (at_ "histogram"),
    ← setting percentiles table "percentiles" (at_ "percentiles"),
    ← setting boolean table "p99" (at_ "p99"),
    ← setting boolean table "timestamp" (at_ "timestamp")⟩

def item {α : Type} (d : Decoder α) (key : String) (items : List Value) (i : Nat) :
    Except Fault (Option (Option α)) :=
  match items[i]? with
  | some v => (nullable d (key ++ "[" ++ Decimal.digits i ++ "]") v).map some
  | none => .ok none

def itemOf {α : Type} (d : Decoder α) (key : String) (items : List Value) (i : Nat) :
    Except Fault (Option α) := do
  match ← item d key items i with
  | some a => return a
  | none => .error (.shortOutput i)

/-- The output described by a list, with its settings one after the other. Only the percentiles
may be missing at its end. -/
def outputOfList (key : String) (items : List Value) : Except Fault Output := do
  return ⟨← itemOf halfWord key items 0,← itemOf rangeMode key items 1,
    ← itemOf boolean key items 2,((← item percentiles key items 3).getD none),
    ← itemOf boolean key items 4,← itemOf boolean key items 5⟩

def pointedText (x : Float) : String :=
  let text := Decimal.plain x
  match Decimal.Binary64.ofFloat x with
  | .finite .. => if text.toList.contains '.' then text else text ++ ".0"
  | _ => text

def describeScalar : Scalar → String
  | .null => "unit value"
  | .bool b => "boolean `" ++ boolText b ++ "`"
  | .integer n => "integer `" ++ integerText n ++ "`"
  | .float x => "floating point `" ++ pointedText x ++ "`"
  | .text s => "string " ++ Text.quoted s

def output : Decoder Output := fun key v =>
  match v with
  | .table _ _ => outputOfTable key v
  | .list _ items => outputOfList key items
  | .scalar _ s => .error (.wrongOutput (describeScalar s))

end Decoder

def ofTable (table : Value) : Except Fault Settings := do
  let text (name : String) := Decoder.setting Decoder.text table name name
  let word (name : String) := Decoder.setting Decoder.word table name name
  return ⟨← text "object_path",← text "map_name",
    (← Decoder.entry Decoder.keyLayout table "key_layout" "key_layout").getD unset.keyLayout,
    (← Decoder.entry Decoder.duplicatePolicy table "duplicate_policy" "duplicate_policy").getD
      unset.duplicatePolicy,
    ← word "interval_secs",← word "iterations",
    (← Decoder.entry Decoder.output table "output" "output").getD .unset⟩

end SchedLatency.Settings
