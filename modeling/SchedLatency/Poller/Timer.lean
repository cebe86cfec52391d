namespace SchedLatency.Poller

/-- How ticks follow each other. Times are milliseconds from the start of a run. -/
structure Timer where
  farthest : Nat
  /-- When the tick after one comes that was due at one time and is taken at another. There is none
  if the clock cannot tell it. -/
  next : (period due now : Nat) → Option Nat
  later : ∀ {period due now time : Nat},period≠0 → due≤now → next period due now=some time →
    due<time

namespace Timer

/-- Of a tick that is taken on time the next one is due a period later. -/
def KeepsPace (timer : Timer) : Prop :=
  ∀ period due,due+period≤timer.farthest → timer.next period due due=some (due+period)

/-- A time, if a clock that goes so far can tell it. -/
def told (farthest time : Nat) : Option Nat := if time≤farthest then some time else none

theorem told_eq_some_iff {farthest time time' : Nat} :
    told farthest time=some time' ↔ time=time' ∧ time≤farthest := by
  unfold told
  split
  · rename_i h
    simp [h]
  · rename_i h
    simp [h]

def tolerance : Nat := 5

/-- Where a tick goes that would lie beyond the end of the clock: thirty years on. -/
def farAhead : Nat := 30*365*24*60*60*1000

/-- A tick that is taken much too late puts off the next one by a whole period from then. -/
def delayed (farthest period due now : Nat) : Option Nat :=
  if due+tolerance<now then told farthest (now+period)
  else (told farthest (due+period)).or (told farthest (now+farAhead))

theorem lt_of_delayed {farthest period due now time : Nat} (hp : period≠0) (hle : due≤now)
    (h : delayed farthest period due now=some time) : due<time := by
  have ahead : 0<farAhead := by decide
  unfold delayed at h
  split at h
  · have htime := (told_eq_some_iff.mp h).1
    omega
  · rcases Option.or_eq_some_iff.mp h with h | ⟨-,h⟩
    · have htime := (told_eq_some_iff.mp h).1
      omega
    · have htime := (told_eq_some_iff.mp h).1
      omega

def delaying (farthest : Nat) : Timer := ⟨farthest,delayed farthest,lt_of_delayed⟩

theorem keepsPace_delaying (farthest : Nat) : (delaying farthest).KeepsPace := by
  intro period due h
  have onTime : ¬due+tolerance<due := by omega
  have next : told farthest (due+period)=some (due+period) := told_eq_some_iff.mpr ⟨rfl,h⟩
  change delayed farthest period due due=some (due+period)
  rw [delayed,if_neg onTime,next,Option.some_or]

/-- The timer on a clock that counts its seconds in a signed word. -/
def standard : Timer := delaying (1000*(UInt64.size/2)-1)

end Timer

structure Ticker where
  period : Nat
  next : Nat
  deriving DecidableEq, Repr

namespace Ticker

def start? (timer : Timer) (period : Nat) : Option Ticker :=
  (Timer.told timer.farthest period).map fun first => ⟨period,first⟩

def taken (k : Ticker) (now : Nat) : Nat := max now k.next

def advance? (k : Ticker) (timer : Timer) (now : Nat) : Option Ticker :=
  (timer.next k.period k.next (k.taken now)).map fun next => {k with next := next}

theorem start?_eq_some_iff {timer : Timer} {period : Nat} {k : Ticker} :
    start? timer period=some k ↔ k=⟨period,period⟩ ∧ period≤timer.farthest := by
  unfold start?
  rw [Option.map_eq_some_iff]
  constructor
  · rintro ⟨first,h,rfl⟩
    obtain ⟨rfl,hle⟩ := Timer.told_eq_some_iff.mp h
    exact ⟨rfl,hle⟩
  · rintro ⟨rfl,hle⟩
    exact ⟨period,Timer.told_eq_some_iff.mpr ⟨rfl,hle⟩,rfl⟩

theorem le_taken (k : Ticker) (now : Nat) : now≤k.taken now := Nat.le_max_left _ _

theorem next_le_taken (k : Ticker) (now : Nat) : k.next≤k.taken now := Nat.le_max_right _ _

theorem period_of_advance? {k k' : Ticker} {timer : Timer} {now : Nat}
    (h : k.advance? timer now=some k') : k'.period=k.period := by
  obtain ⟨next,-,rfl⟩ := Option.map_eq_some_iff.mp h
  rfl

theorem next_lt_of_advance? {k k' : Ticker} {timer : Timer} {now : Nat} (hp : k.period≠0)
    (h : k.advance? timer now=some k') : k.next<k'.next := by
  obtain ⟨next,hnext,rfl⟩ := Option.map_eq_some_iff.mp h
  exact timer.later hp (k.next_le_taken now) hnext

end Ticker
end SchedLatency.Poller
