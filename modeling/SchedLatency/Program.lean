import SchedLatency.Engine
import SchedLatency.Settings.Loading

namespace SchedLatency

namespace Program

structure Surroundings where
  access : Kernel.Access
  files : Files
  env : List (String×String)
  clock : Nat → String
  timeline : Poller.Timeline

structure Outcome where
  status : Nat
  stdout : String
  stderr : String
  deriving DecidableEq, Repr

def objectVariable : String := "RUNQLAT_OBJECT"

def failed : Nat := 1

def misused : Nat := 2

def aborted : Nat := 101

def indentLines (indent text : String) : String :=
  ("\n" ++ indent).intercalate (text.splitOn "\n")

def numbered (n : Nat) : List String → String
  | [] => ""
  | cause :: rest =>
    "\n" ++ Text.alignRight 5 (Decimal.digits n) ++ ": " ++ indentLines "       " cause++
      numbered (n+1) rest

/-- An error with its causes as it is printed. A single cause has no number. -/
def describe : List String → String
  | [] => ""
  | [error] => "Error: " ++ error ++ "\n"
  | [error,cause] =>
    "Error: " ++ error ++ "\n\nCaused by:\n    " ++ indentLines "    " cause ++ "\n"
  | error :: causes => "Error: " ++ error ++ "\n\nCaused by:" ++ numbered 0 causes ++ "\n"

def failure (stdout : String) (chain : List String) : Outcome := ⟨failed,stdout,describe chain⟩

def runEngine (around : Surroundings) (s : Settings) : Outcome :=
  match Engine.start around.access around.files s with
  | .error chain => failure "" chain
  | .ok engine =>
    let o := engine.run around.access around.clock around.timeline
    match o.ending with
    | .done => ⟨0,o.printed,""⟩
    | .failed chain => failure o.printed chain
    | .aborted => ⟨aborted,o.printed,""⟩

def run (around : Surroundings) (words : List String) : Outcome :=
  match CommandLine.parse words (around.env.lookup objectVariable) with
  | .error e => ⟨misused,"",e.message⟩
  | .ok c =>
    match Settings.loadFor around.files around.env c with
    | .ok s => runEngine around s
    | .error e =>
      match e.complaint with
      | .reported message => failure "" ["Failed to load settings",message]
      | .fatal words => ⟨aborted,"",words⟩

end Program
end SchedLatency
