import SchedLatency.Kernel.Probe
import SchedLatency.Poller.Run
import SchedLatency.Settings.Basic
import SchedLatency.Text.Utf8

namespace SchedLatency

structure Engine where
  settings : Settings
  loaded : Kernel.Loaded

namespace Engine

/-- Loads the object that the settings name. The error comes with its causes, outermost first. -/
def start (access : Kernel.Access) (files : Files) (s : Settings) :
    Except (List String) Engine :=
  match Kernel.loadFile access files s.objectFile with
  | .ok loaded => .ok ⟨s,loaded⟩
  | .error fault => .error (("Failed to load BPF object " ++ s.objectFile) :: fault.chain)

def banner : String := "Tracking process run queue latency... Hit Ctrl-C to end.\n"

def poller (e : Engine) (clock : Nat → String) : Poller where
  config := e.settings.pollerConfig
  source _ := e.loaded.pass e.settings.map e.settings.keyLayout
  sink := .limited ⟨none,none,.takes 0,0,none⟩
  clock := clock

inductive Ending where
  | done
  | failed (chain : List String)
  | aborted
  deriving DecidableEq, Repr

structure Outcome where
  printed : String
  ending : Ending

def Ending.ofPoller : Poller.Ending → Ending
  | .returned (.ok _) => done
  | .returned (.error fault) => failed fault.chain
  | .aborted _ => aborted

def run (e : Engine) (access : Kernel.Access) (clock : Nat → String) (t : Poller.Timeline) :
    Outcome :=
  match Kernel.Probe.attach access e.loaded Kernel.Probe.tracepoints with
  | .error fault => ⟨"",.failed fault.chain⟩
  | .ok loaded =>
    match (poller {e with loaded := loaded} clock).run t with
    | .ended o =>
      let reports := String.ofList (Text.Utf8.decodeLossy o.state.sink.accepted)
      ⟨banner++reports,.ofPoller o.ending⟩
    | .noPeriod | .unfinished => ⟨banner,.aborted⟩

end Engine
end SchedLatency
