import SchedLatency.Config.DotEnv
import SchedLatency.Config.Environment
import SchedLatency.Config.File
import SchedLatency.Config.KeyPath
import SchedLatency.Settings.Decoding

namespace SchedLatency.Settings

open Config

inductive LoadError where
  | file (e : FileError)
  | fault (f : Fault)
  | badIndex
  deriving DecidableEq, Repr

/-- The table that two sources make up, each as it gives out its keys, the second one winning. -/
def layers (file environment : List (String×Value)) : Option Value := do
  let root ← Value.emptyTable.absorbAll file
  root.absorbAll environment

def ofLayers (file environment : List (String×Value)) : Except LoadError Settings :=
  match layers file environment with
  | none => .error .badIndex
  | some table => (ofTable table).mapError .fault

def variablesFile : String := ".env"

def allVariables (files : Files) (env : List (String×String)) : List (String×String) :=
  match files.find variablesFile with
  | .file (.bytes bytes) => DotEnv.load env bytes
  | _ => env

def fileEntries (files : Files) (name? : Option String) :
    Except LoadError (List (String×Value)) :=
  match name? with
  | some name => (File.load files name).mapError .file
  | none => .ok []

/-- The settings before the command line is looked at, if tables give out their entries in a certain
order. -/
def loadIn (order : KeyOrder) (files : Files) (env : List (String×String))
    (name? : Option String) : Except LoadError Settings := do
  let file ← fileEntries files name?
  ofLayers (order.ofEntries file) (order.ofEntries (Environment.entries (allVariables files env)))

def load : Files → List (String×String) → Option String → Except LoadError Settings :=
  loadIn .asHeld

def loadFor (files : Files) (env : List (String×String)) (c : CommandLine) :
    Except LoadError Settings :=
  (load files env c.config).map (·.override c)

inductive Complaint where
  | reported (message : String)
  | fatal (words : String)
  deriving DecidableEq, Repr

def badKeyWords : String := "error: entered unreachable code\n" ++
  "note: run with `RUST_BACKTRACE=1` environment variable to display a backtrace\n"

def LoadError.complaint : LoadError → Complaint
  | file (.notFound name) =>
    .reported ("configuration file \"" ++ name ++ "\" not found")
  | file (.unknownFormat path) =>
    .reported ("configuration file \"" ++ path ++ "\" is not of a registered file format")
  | file (.fault origin f) => .reported (f.message origin)
  | file .badKey => .fatal badKeyWords
  | fault f => .reported f.message
  | badIndex => .fatal ""

end SchedLatency.Settings
