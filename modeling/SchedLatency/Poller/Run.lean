import SchedLatency.Poller.Cycle
import SchedLatency.Poller.Timer

namespace SchedLatency.Poller

structure Timeline where
  timer : Timer
  cancelledBefore : Bool
  cancelAt : Option Nat
  /-- Number, from one, of the pass during which the run is cancelled. -/
  cancelDuring : Option Nat
  /-- Does a tick win over a cancellation that arrives in the same instant? -/
  tickWinsTie : Bool
  duration : Nat → Nat

def Timeline.quiet : Timeline := ⟨.standard,false,none,none,false,fun _ => 0⟩

def Timeline.isCancelled (t : Timeline) (now visits : Nat) : Bool :=
  t.cancelledBefore || t.cancelAt.any (·≤now) || t.cancelDuring.any (fun n => 0<n && n≤visits)

def Timeline.interrupts (t : Timeline) (due : Nat) : Bool :=
  t.cancelAt.any fun c => if t.tickWinsTie then c<due else c≤due

theorem Timeline.isCancelled_iff (t : Timeline) (now visits : Nat) :
    t.isCancelled now visits=true ↔ t.cancelledBefore=true ∨ (∃ c,t.cancelAt=some c ∧ c≤now) ∨
      ∃ n,t.cancelDuring=some n ∧ 0<n ∧ n≤visits := by
  simp [isCancelled,Option.any_eq_true,or_assoc]

theorem Timeline.exists_of_interrupts {t : Timeline} {due : Nat} (h : t.interrupts due=true) :
    ∃ c,t.cancelAt=some c ∧ c≤due := by
  obtain ⟨c,hc,inTime⟩ := (Option.any_eq_true _ _).mp h
  refine ⟨c,hc,?_⟩
  split at inTime
  · exact Nat.le_of_lt (of_decide_eq_true inTime)
  · exact of_decide_eq_true inTime

inductive Exit where
  | completed (cycles : UInt64)
  | cancelled (cycles : UInt64)
  deriving DecidableEq, Repr

inductive Abort where
  /-- The clock cannot tell when the next tick is due. -/
  | beyondClock
  /-- The counter cannot count the last cycle. -/
  | beyondCounter
  deriving DecidableEq, Repr

inductive Ending where
  | returned (result : Except CycleError Exit)
  | aborted (why : Abort)

structure Outcome where
  ending : Ending
  state : State

/-- A run that waits for its next tick or has yet to look at its limit. -/
structure Loop where
  now : Nat
  ticker : Ticker
  cycles : UInt64
  state : State

namespace Loop

def start? (config : Config) (timer : Timer) : Option Loop :=
  (Ticker.start? timer config.interval).map fun ticker => ⟨0,ticker,0,.initial⟩

def stop (l : Loop) (ending : Ending) : Outcome := ⟨ending,l.state⟩

def atLimit (l : Loop) (config : Config) : Bool := config.iterations.any (· ≤ l.cycles)

/-- Once round the loop: ends the run or completes one more cycle. -/
def step (p : Poller) (t : Timeline) (l : Loop) : Outcome⊕Loop :=
  if l.atLimit p.config then .inl (l.stop (.returned (.ok (.completed l.cycles))))
  else if t.isCancelled l.now l.state.visits.length then
    .inl (l.stop (.returned (.ok (.cancelled l.cycles))))
  else
    let now := l.ticker.taken l.now
    if t.interrupts now then .inl (l.stop (.returned (.ok (.cancelled l.cycles))))
    else match l.ticker.advance? t.timer l.now with
      | none => .inl (l.stop (.aborted .beyondClock))
      | some ticker =>
        let (state,fault?) := p.cycle now l.state
        match fault? with
        | some e => .inl ⟨.returned (.error e),state⟩
        | none =>
          if l.cycles.toNat+1<UInt64.size then
            .inr ⟨now+t.duration l.state.visits.length,ticker,l.cycles+1,state⟩
          else .inl ⟨.aborted .beyondCounter,state⟩

def follow (p : Poller) (t : Timeline) : Nat → Loop → Option Outcome
  | 0,_ => none
  | rounds+1,l =>
    match l.step p t with
    | .inl outcome => some outcome
    | .inr next => follow p t rounds next

end Loop

inductive RunResult where
  | ended (outcome : Outcome)
  | noPeriod
  | unfinished

def allRounds : Nat := UInt64.size+1

def runFor (rounds : Nat) (p : Poller) (t : Timeline) : RunResult :=
  if p.config.interval=0 then .noPeriod
  else match Loop.start? p.config t.timer with
    | none => .ended ⟨.aborted .beyondClock,.initial⟩
    | some l =>
      match Loop.follow p t rounds l with
      | some outcome => .ended outcome
      | none => .unfinished

def run (p : Poller) (t : Timeline) : RunResult := runFor allRounds p t

end SchedLatency.Poller
