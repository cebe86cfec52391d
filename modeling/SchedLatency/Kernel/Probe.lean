import SchedLatency.Kernel.Loaded

namespace SchedLatency.Kernel

inductive AttachFault where
  | noProgram (name : String)
  | wrongKind
  | alreadyLoaded
  | refused
  | noTracepoint (name : String)
  /-- Nothing would ever be recorded without this tracepoint. -/
  | missing (name : String)
  deriving DecidableEq, Repr

def AttachFault.chain : AttachFault → List String
  | noProgram name => ["Failed to find " ++ name ++ " program"]
  | wrongKind => ["unexpected program type"]
  | alreadyLoaded => ["the program is already loaded"]
  | refused => ["the BPF_PROG_LOAD syscall failed. Verifier output: ",notPermitted]
  | noTracepoint name => ["Failed to attach " ++ name,"`bpf_raw_tracepoint_open` failed",
      PathFault.notFound.message]
  | missing name => [name ++ " could not be attached"]

/-- Loads the program of some name and attaches it to the tracepoint of that name. A program stays
loaded if only attaching it fails. -/
def Loaded.attach (access : Access) (l : Loaded) (name : String) :
    Option AttachFault×Loaded :=
  match l.programs.find? (·.name=name) with
  | none => (some (.noProgram name),l)
  | some p =>
    if p.kind≠.rawTracepoint then (some .wrongKind,l)
    else if name∈l.active then (some .alreadyLoaded,l)
    else match access with
      | .denied => (some .refused,l)
      | .granted tracepoints =>
        let l := {l with active := name :: l.active}
        (if name∈tracepoints then none else some (.noTracepoint name),l)

/-- Attaches programs one after the other, also behind a failure. -/
def Loaded.attachEach (access : Access) : Loaded → List String → List (Option AttachFault)
  | _,[] => []
  | l,name :: rest =>
    let (fault?,l) := l.attach access name
    fault? :: attachEach access l rest

namespace Probe

def tracepoints : List String := ["sched_wakeup","sched_wakeup_new","sched_switch"]

def required : String := "sched_switch"

def attachTo (access : Access) (l : Loaded) : List String → Except AttachFault Loaded
  | [] => .ok l
  | name :: rest =>
    match l.attach access name with
    | (some fault,_) => .error fault
    | (none,l) => attachTo access l rest

def attach (access : Access) (l : Loaded) (names : List String) : Except AttachFault Loaded := do
  let l ← attachTo access l names
  if required∈names then return l else throw (.missing required)

end Probe
end SchedLatency.Kernel
