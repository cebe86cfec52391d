import SchedLatency.Poller.Sink
import SchedLatency.Report

namespace SchedLatency

namespace Poller

structure Config where
  /-- Milliseconds between cycles. -/
  interval : Nat
  iterations : Option UInt64
  policy : DuplicatePolicy
  report : Report.Options
  timestamp : Bool
  deriving DecidableEq

inductive Phase where
  | idle
  | collecting
  | rendering
  deriving DecidableEq, Repr

def Phase.name : Phase → String
  | idle => "Idle"
  | collecting => "Collecting"
  | rendering => "Rendering"

inductive CycleError where
  | collect (e : SourceError)
  | write (e : WriteError)
  deriving DecidableEq, Repr

def CycleError.chain : CycleError → List String
  | collect e => ["Failed to collect histogram snapshot",e.message]
  | write e => ["Failed to write report",e.message]

inductive Warning where
  | skippedRecord (e : SourceError)
  | skippedInAll (records : Nat)
  deriving DecidableEq, Repr

def Warning.message : Warning → String
  | skippedRecord e => Snapshot.skipWarning e
  | skippedInAll n => "Skipped " ++ Decimal.digits n ++ " malformed records"

structure State where
  phase : Phase
  /-- The passes taken from the source so far, each with the time at which it was. -/
  visits : List (Nat×Pass)
  sink : Sink.State
  warnings : List Warning
  deriving DecidableEq

def State.initial : State := ⟨.idle,[],.initial,[]⟩

def State.times (s : State) : List Nat := s.visits.map Prod.fst

end Poller

/-- A poller with its surroundings: the passes that its source will play, numbered from zero,
the sink of its reports, and the time of day at which each pass is reported. -/
structure Poller where
  config : Poller.Config
  source : Nat → Pass
  sink : Sink
  clock : Nat → String

namespace Poller

def visit (p : Poller) (now : Nat) (s : State) : Pass×State :=
  let pass := p.source s.visits.length
  (pass,{s with visits := s.visits++[(now,pass)]})

/-- The report on a snapshot, below a line with the time of day if one is asked for. -/
def reportText (p : Poller) (visit : Nat) (s : Snapshot) : String :=
  (if p.config.timestamp then p.clock visit ++ "\n" else "")++Report.render s p.config.report

def summaryWarnings (s : Snapshot) : List Warning :=
  if s.skipped=0 then [] else [.skippedInAll s.skipped]

def cycle (p : Poller) (now : Nat) (s : State) : State×Option CycleError :=
  let (pass,collecting) := p.visit now {s with phase := .collecting}
  let c := Snapshot.build p.config.policy pass
  let noted :=
    {collecting with warnings := collecting.warnings++c.skipped.map Warning.skippedRecord}
  match c.outcome with
  | .error e => ({noted with phase := .idle},some (.collect e))
  | .ok snapshot =>
    let rendering :=
      {noted with phase := .rendering,warnings := noted.warnings++summaryWarnings snapshot}
    let report := p.reportText s.visits.length snapshot
    let (sink,fault?) := p.sink.writeOut rendering.sink report.toUTF8.toList
    ({rendering with phase := .idle,sink := sink},fault?.map CycleError.write)

/-- Cycles at the given times, also after failed ones: the state after each and its fault. -/
def cycles (p : Poller) : List Nat → State → List (State×Option CycleError)
  | [],_ => []
  | now :: times,s =>
    let r := p.cycle now s
    r :: p.cycles times r.1

/-- A source that plays the given passes in order and then the last one again and again. -/
def script (passes : List Pass) (visit : Nat) : Pass :=
  (passes[min visit (passes.length-1)]?).getD .empty

end Poller
end SchedLatency
