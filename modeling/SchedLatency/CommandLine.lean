import SchedLatency.Decimal.Reading
import SchedLatency.KeyLayout
import SchedLatency.Snapshot

namespace SchedLatency

inductive Argument where
  | verbose | config | object | map | keyLayout | interval | iterations | pid | raw
  | noHistogram | percentiles | p99 | timestamp | duplicates
  deriving DecidableEq, Repr

namespace Argument

def all : List Argument :=
  [verbose,config,object,map,keyLayout,interval,iterations,pid,raw,noHistogram,percentiles,p99,
   timestamp,duplicates]

def long : Argument → String
  | verbose => "verbose"
  | config => "config"
  | object => "object"
  | map => "map"
  | keyLayout => "key-layout"
  | interval => "interval"
  | iterations => "iterations"
  | pid => "pid"
  | raw => "raw"
  | noHistogram => "no-histogram"
  | percentiles => "percentiles"
  | p99 => "p99"
  | timestamp => "timestamp"
  | duplicates => "duplicates"

def short? : Argument → Option Char
  | verbose => some 'v'
  | config => some 'c'
  | interval => some 'i'
  | iterations => some 'n'
  | pid => some 'p'
  | percentiles => some 'P'
  | timestamp => some 'T'
  | _ => none

def takesValue : Argument → Bool
  | verbose | raw | noHistogram | p99 | timestamp => false
  | _ => true

def repeats (a : Argument) : Bool := a == percentiles

def ofLong? (name : String) : Option Argument := all.find? fun a => a.long == name

def ofShort? (c : Char) : Option Argument := all.find? fun a => a.short? == some c

end Argument

namespace CommandLine

inductive Error where
  | unknownArgument
  | invalidValue
  | valueValidation
  | tooManyValues
  | argumentConflict
  deriving DecidableEq, Repr

def Error.message : Error → String
  | unknownArgument => "error: unexpected argument found\n"
  | invalidValue => "error: one of the values isn't valid for an argument\n"
  | valueValidation => "error: invalid value for one of the arguments\n"
  | tooManyValues => "error: unexpected value for an argument found\n"
  | argumentConflict =>
    "error: an argument cannot be used with one or more of the other specified arguments\n"

end CommandLine

structure CommandLine where
  verbose : Bool
  config : Option String
  object : Option String
  map : Option String
  keyLayout : Option KeyLayout
  interval : Option UInt64
  iterations : Option UInt64
  pid : Option EntityId
  raw : Bool
  noHistogram : Bool
  percentiles : Option (List Float)
  p99 : Bool
  timestamp : Bool
  duplicates : Option DuplicatePolicy
  deriving DecidableEq

namespace CommandLine

def nothing : CommandLine :=
  ⟨false,none,none,none,none,none,none,none,false,false,none,false,false,none⟩

structure Reader where
  line : CommandLine
  given : List Argument
  /-- The option met last, with its value as far as it is there, not yet taken in. -/
  pending : Option (Argument×Option String)
  /-- Has the word been met after which nothing is an option? -/
  ended : Bool
  deriving DecidableEq

namespace Reader

def start : Reader := ⟨nothing,[],none,false⟩

def nonEmpty (value : String) : Except Error String :=
  if value.isEmpty then .error .invalidValue else .ok value

def choice {α : Type} (choices : List (String×α)) (value : String) : Except Error α :=
  match choices.lookup value with
  | some a => .ok a
  | none => .error .invalidValue

def parsed {α : Type} (a? : Option α) : Except Error α :=
  match a? with
  | some a => .ok a
  | none => .error .valueValidation

def pid? (value : String) : Option EntityId :=
  ((Decimal.signedWord? 10 value.toList).filter fun n : Int => 0≤n && n<(UInt32.size : Int)).map
    fun n => UInt32.ofNat n.toNat

def layouts : List (String×KeyLayout) := [("wide",.wide),("compact",.compact)]

def policies : List (String×DuplicatePolicy) := [("sum",.sum),("keep",.keep)]

def store (line : CommandLine) (a : Argument) (value : String) : Except Error CommandLine := do
  match a with
  | .verbose => return {line with verbose := true}
  | .raw => return {line with raw := true}
  | .noHistogram => return {line with noHistogram := true}
  | .p99 => return {line with p99 := true}
  | .timestamp => return {line with timestamp := true}
  | .config => return {line with config := some (← nonEmpty value)}
  | .object => return {line with object := some (← nonEmpty value)}
  | .map => return {line with map := some value}
  | .keyLayout => return {line with keyLayout := some (← choice layouts value)}
  | .duplicates => return {line with duplicates := some (← choice policies value)}
  | .interval => return {line with interval := some (← parsed (Decimal.word? value))}
  | .iterations => return {line with iterations := some (← parsed (Decimal.word? value))}
  | .pid => return {line with pid := some (← parsed (pid? value))}
  | .percentiles =>
    let p ← parsed (Decimal.double? value)
    return {line with percentiles := some (line.percentiles.getD []++[p])}

def split (a : Argument) (value : String) : List String :=
  if a = .percentiles then value.splitOn "," else [value]

/-- Takes an argument in. A missing value comes first, then a repetition, then the value. -/
def take (r : Reader) (a : Argument) (value? : Option String) : Except Error Reader := do
  let values ← match value? with
    | some value => pure (split a value)
    | none => if a.takesValue then throw .invalidValue else pure [""]
  if a∈r.given && !a.repeats then throw .argumentConflict
  let line ← values.foldlM (fun line value => store line a value) r.line
  return {r with line := line,given := a :: r.given}

def settle (r : Reader) : Except Error Reader :=
  match r.pending with
  | none => .ok r
  | some (a,value?) => take {r with pending := none} a value?

def meet (r : Reader) (a : Argument) (attached? : Option String) : Except Error Reader := do
  let r ← r.settle
  match attached? with
  | some value => r.take a (some value)
  | none => if a.takesValue then return {r with pending := some (a,none)} else r.take a none

def meetLong (r : Reader) (name : String) (attached? : Option String) : Except Error Reader :=
  match Argument.ofLong? name with
  | none => .error .unknownArgument
  | some a =>
    if attached?.isSome && !a.takesValue then .error .tooManyValues else r.meet a attached?

/-- A cluster of short names: flags may follow each other, and what stands behind an option is
its value. -/
def meetShort (r : Reader) : List Char → Except Error Reader
  | [] => .ok r
  | c :: rest =>
    match Argument.ofShort? c with
    | none => .error .unknownArgument
    | some a =>
      if a.takesValue then
        match rest with
        | [] => r.meet a none
        | '=' :: value => r.meet a (some (String.ofList value))
        | value => r.meet a (some (String.ofList value))
      else do meetShort (← r.meet a none) rest

def meetWord (r : Reader) (word : String) : Except Error Reader :=
  match r.pending with
  | some (a,none) => .ok {r with pending := some (a,some word)}
  | _ => .error .unknownArgument

def longParts (cs : List Char) : String×Option String :=
  let name := cs.takeWhile (· ≠ '=')
  match cs.dropWhile (· ≠ '=') with
  | [] => (String.ofList name,none)
  | _ :: value => (String.ofList name,some (String.ofList value))

def read (r : Reader) (word : String) : Except Error Reader :=
  if r.ended then .error .unknownArgument
  else match word.toList with
    | ['-','-'] => .ok {r with ended := true}
    | '-' :: '-' :: cs => let (name,attached?) := longParts cs; r.meetLong name attached?
    | '-' :: c :: cs => r.meetShort (c :: cs)
    | _ => r.meetWord word

end Reader

/-- Reads the words of a command line. The object may also be named by the environment, which
counts only when no word names it. -/
def parse (words : List String) (objectVariable : Option String) : Except Error CommandLine := do
  let r ← words.foldlM Reader.read Reader.start
  let r ← r.settle
  match objectVariable with
  | some path =>
    if .object∈r.given then return r.line
    else Reader.store r.line .object path
  | none => return r.line

end CommandLine
end SchedLatency
