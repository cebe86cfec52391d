import SchedLatency.Program

namespace SchedLatency.Shell

def lookAt (path : String) : IO Found := do
  try
    return .file (.bytes (← IO.FS.readBinFile path).toList)
  catch
    | .inappropriateType .. => return .folder
    | .noFileOrDirectory .. => return .nothing .notFound
    | .invalidArgument .. => return .nothing .nameTooLong
    | _ => return .nothing .notFolder

def readVariables : IO (List (String×String)) := do
  let bytes ← IO.FS.readBinFile "/proc/self/environ"
  let text := String.ofList (Text.Utf8.decodeLossy bytes.toList)
  return (text.splitOn "\x00").filterMap fun line =>
    match line.splitOn "=" with
    | name :: value => if name = "" then none else some (name,"=".intercalate value)
    | [] => none

def gather (paths : List String) : IO Files := do
  let found ← paths.mapM fun path => return (path,← lookAt path)
  return ⟨(← IO.currentDir).toString,fun path => (found.lookup path).getD (.nothing .notFound)⟩

/-- The paths at which a program with these words and variables looks for its settings. -/
def settingsPaths (words : List String) (object : Option String) : List String :=
  Settings.variablesFile :: match CommandLine.parse words object with
    | .ok c => (c.config.map fun name => name :: Config.File.candidates name).getD []
    | .error _ => []

def objectPath? (files : Files) (env : List (String×String)) (words : List String) :
    Option String := do
  let c ← (CommandLine.parse words (env.lookup Program.objectVariable)).toOption
  let s ← (Settings.loadFor files env c).toOption
  return s.objectFile

/-- Runs the program and prints what it says. It may neither create maps nor load programs. -/
def run (words : List String) : IO UInt32 := do
  let env ← readVariables
  let paths := settingsPaths words (env.lookup Program.objectVariable)
  let files ← gather paths
  let files ← gather (paths++(objectPath? files env words).toList)
  let outcome := Program.run ⟨.denied,files,env,fun _ => "",.quiet⟩ words
  IO.print outcome.stdout
  IO.eprint outcome.stderr
  return UInt32.ofNat outcome.status

end SchedLatency.Shell

def main (words : List String) : IO UInt32 := SchedLatency.Shell.run words
