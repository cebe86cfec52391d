import Mathlib
import SchedLatency.Proofs.Rounds
import SchedLatency.Settings.Basic

namespace SchedLatency

namespace Sink

/-- Where texts end that are written one after the other from `start` on. -/
def marks (start : Nat) : List (List UInt8) → List Nat
  | [] => []
  | text :: rest => (start+text.length) :: marks (start+text.length) rest

theorem marks_concat (start : Nat) (texts : List (List UInt8)) (last : List UInt8) :
    marks start (texts++[last])=marks start texts++[start+texts.flatten.length+last.length] := by
  induction texts generalizing start with
  | nil => rfl
  | cons text rest ih =>
    rw [List.cons_append,marks,ih,marks,List.flatten_cons,List.length_append,Nat.add_assoc start,
      List.cons_append]

theorem zipWith_marks (before : List UInt8) (texts : List (List UInt8)) :
    List.zipWith (fun a b => ((before++texts.flatten).take b).drop a)
      (before.length :: marks before.length texts)
      (marks before.length texts++[(before++texts.flatten).length])=texts++[[]] := by
  induction texts generalizing before with
  | nil => simp [marks]
  | cons text rest ih =>
    -- The first text lies between its marks, and counts as being before all others.
    have all : before++(text :: rest).flatten=(before++text)++rest.flatten := by simp
    have ends : before.length+text.length=(before++text).length := List.length_append.symm
    rw [all,marks,ends,List.cons_append,List.zipWith_cons_cons,ih,List.take_left,List.drop_left,
      List.cons_append]

/-- A sink that has been flushed behind each of some texts holds these texts between its flushes and
nothing behind the last one. -/
theorem segments_eq {s : State} {texts : List (List UInt8)} (accepted : s.accepted=texts.flatten)
    (flushes : s.flushes=marks 0 texts) : s.segments=texts++[[]] := by
  unfold State.segments
  rw [accepted,flushes]
  exact zipWith_marks [] texts

end Sink

namespace Poller

def successes (p : Poller) (times : List Nat) : Nat :=
  (p.cycles times .initial).countP fun c => c.2.isNone

theorem length_cycles (p : Poller) (times : List Nat) (s : State) :
    (p.cycles times s).length=times.length := by
  induction times generalizing s with
  | nil => rfl
  | cons now times ih => exact congrArg (·+1) (ih (p.cycle now s).1)

theorem successes_eq {p : Poller} {times : List Nat} (h : p.Succeeds times) :
    p.successes times=times.length := by
  rw [successes,←p.length_cycles times .initial]
  apply List.countP_eq_length.mpr
  intro c hc
  rw [h c hc]
  rfl

/-- Between its flushes the sink holds whole reports, one on each of the first `n` passes, and
nothing behind the last one. -/
def Reported (p : Poller) (n : Nat) (s : Sink.State) : Prop :=
  ∃ texts,(List.range n).map p.report=texts.map .ok ∧ s.segments=texts++[[]]

theorem written_of_succeeds {p : Poller} {times : List Nat} (h : p.Succeeds times) :
    ∃ texts,(List.range times.length).map p.report=texts.map .ok ∧
      (p.after times).sink.accepted=texts.flatten ∧
      (p.after times).sink.flushes=Sink.marks 0 texts := by
  induction times using List.reverseRecOn with
  | nil => exact ⟨[],rfl,rfl,rfl⟩
  | append_singleton times now ih =>
    obtain ⟨earlier,ok⟩ := succeeds_concat.mp h
    obtain ⟨texts,reports,accepted,flushes⟩ := ih earlier
    obtain ⟨b,effect⟩ := p.cycle_effect now (p.after times)
    rw [ok,length_visits_after] at effect
    obtain ⟨report,added,marked⟩ := effect.of_success
    refine ⟨texts++[b],?_,?_,?_⟩
    · rw [List.length_append,List.length_singleton,List.range_succ,List.map_append,reports,
        List.map_singleton,report,List.map_append,List.map_singleton]
    · rw [after_concat,added,accepted,List.flatten_append,List.flatten_singleton]
    · rw [after_concat,marked,flushes,added,accepted,Sink.marks_concat,List.length_append,
        Nat.zero_add]

theorem reported_after {p : Poller} {times : List Nat} (h : p.Succeeds times) :
    p.Reported times.length (p.after times).sink := by
  obtain ⟨texts,reports,accepted,flushes⟩ := written_of_succeeds h
  exact ⟨texts,reports,Sink.segments_eq accepted flushes⟩

/-- What the counter of a loop stands for: cycles that have succeeded, no more than are asked for,
each of which has visited the source once and left one whole report between two flushes. -/
structure Loop.Counted (p : Poller) (l : Loop) : Prop where
  state : l.state=p.after l.state.times
  cycles : l.cycles.toNat=p.successes l.state.times
  visits : l.state.visits.length=l.cycles.toNat
  reports : p.Reported l.cycles.toNat l.state.sink
  limit : ∀ n,p.config.iterations=some n → l.cycles≤n

def Outcome.Counted (p : Poller) (t : Timeline) (o : Outcome) : Prop :=
  o.state=p.after o.state.times ∧
  match o.ending with
  | .returned (.ok (.completed c)) =>
    p.config.iterations=some c ∧ o.state.visits.length=c.toNat ∧
      p.successes o.state.times=c.toNat ∧ p.Reported c.toNat o.state.sink
  | .returned (.ok (.cancelled c)) =>
    (∃ l,Loop.Reachable p t l ∧ o=l.stop (.returned (.ok (.cancelled c))) ∧
      t.isCancelled (l.ticker.taken l.now) l.state.visits.length=true) ∧
    (∀ n,p.config.iterations=some n → c<n) ∧ o.state.visits.length=c.toNat ∧
      p.successes o.state.times=c.toNat ∧ p.Reported c.toNat o.state.sink
  | .returned (.error e) =>
    ∃ earlier now,o.state.times=earlier++[now] ∧ o.state.visits.length=earlier.length+1 ∧
      p.successes earlier=earlier.length ∧ (p.cycle now (p.after earlier)).2=some e
  | .aborted .beyondClock =>
    p.successes o.state.times=o.state.visits.length ∧
      (t.timer.farthest<p.config.interval ∨
        ∃ l,Loop.Reachable p t l ∧ o.state=l.state ∧ l.ticker.advance? t.timer l.now=none)
  | .aborted .beyondCounter =>
    p.successes o.state.times=o.state.visits.length ∧ o.state.visits.length=UInt64.size

theorem State.length_times (s : State) : s.times.length=s.visits.length := List.length_map _

theorem Loop.Sound.successes_eq {p : Poller} {l : Loop} (h : l.Sound p) :
    p.successes l.state.times=l.cycles.toNat := by
  rw [Poller.successes_eq h.succeeded,State.length_times,h.visits]

theorem Loop.Sound.reported {p : Poller} {l : Loop} (h : l.Sound p) :
    p.Reported l.cycles.toNat l.state.sink := by
  have reported := reported_after h.succeeded
  rwa [←h.state,State.length_times,h.visits] at reported

theorem counted_of_reachable {p : Poller} {t : Timeline} {l : Loop} (reach : Loop.Reachable p t l) :
    l.Counted p := by
  have sound := reach.sound
  exact ⟨sound.state,sound.successes_eq.symm,sound.visits,sound.reported,sound.limit⟩

theorem counted_of_step {p : Poller} {t : Timeline} {l : Loop} {o : Outcome}
    (reach : Loop.Reachable p t l) (final : l.step p t=.inl o) : o.Counted p t := by
  have sound := reach.sound
  have call : (l.call p).1=p.after (l.call p).1.times := by
    rw [Loop.Sound.times_call]
    exact sound.call_eq
  cases Loop.round_of_step final with
  | completed limit =>
    exact ⟨sound.state,sound.iterations_eq limit,sound.visits,sound.successes_eq,sound.reported⟩
  | cancelled limit stopped =>
    have noticed := Loop.isCancelled_of_isStopped stopped
    have below : ∀ n,p.config.iterations=some n → l.cycles<n :=
      fun _ => Loop.lt_of_atLimit_eq_false limit
    exact ⟨sound.state,⟨l,reach,rfl,noticed⟩,below,sound.visits,sound.successes_eq,sound.reported⟩
  | untold _ _ untold =>
    refine ⟨sound.state,?_,.inr ⟨l,reach,rfl,untold⟩⟩
    exact sound.successes_eq.trans sound.visits.symm
  | failed _ _ fault =>
    refine ⟨call,l.state.times,l.ticker.taken l.now,Loop.Sound.times_call l p,?_,?_,?_⟩
    · rw [State.length_times]
      exact l.length_visits_call p
    · exact successes_eq sound.succeeded
    · rwa [←sound.state]
  | uncounted _ _ ok full =>
    have all : p.Succeeds (l.call p).1.times := by
      rw [Loop.Sound.times_call,succeeds_concat,←sound.state]
      exact ⟨sound.succeeded,ok⟩
    have visits : (l.call p).1.visits.length=UInt64.size := by
      have word := l.cycles.toNat_lt_size
      rw [l.length_visits_call,sound.visits]
      omega
    exact ⟨call,(successes_eq all).trans (State.length_times _),visits⟩

/-- Whenever a run comes round, its counter is the number of cycles that have succeeded and does
not exceed the limit, and the sink holds as many whole reports, each flushed. If the run ends as
completed, its cycles are the limit and its visits as many; as cancelled, it has been cancelled, its
cycles are below the limit and its visits as many; with an error, the last visit is that of the
failed cycle and all cycles before it have succeeded. It is broken off only after cycles that have
all succeeded, and only if the clock cannot tell a tick or the counter is full. A limit of zero ends
it without a visit, cancelled or not, provided that the clock can tell when the first tick would be
due. If it cannot, the run is broken off at once, whatever its limit. -/
theorem run_counts_cycles (p : Poller) (t : Timeline) (hp : p.config.interval≠0) :
    (∀ l,Loop.Reachable p t l → l.Counted p) ∧
    (∀ rounds o,runFor rounds p t=.ended o → o.Counted p t) ∧
    (p.config.iterations=some 0 → p.config.interval≤t.timer.farthest →
      ∀ rounds,runFor (rounds+1) p t=.ended ⟨.returned (.ok (.completed 0)),.initial⟩) ∧
    (t.timer.farthest<p.config.interval →
      ∀ rounds,runFor rounds p t=.ended ⟨.aborted .beyondClock,.initial⟩) := by
  refine ⟨fun _ => counted_of_reachable,?_,?_,
    fun untold rounds => runFor_of_untold hp rounds untold⟩
  · intro rounds o ended
    rcases Nat.lt_or_ge t.timer.farthest p.config.interval with untold | told
    · rw [runFor_of_untold hp rounds untold] at ended
      cases ended
      exact ⟨rfl,rfl,.inl untold⟩
    · obtain ⟨l,reach,final,-⟩ := (runFor_eq_ended_iff hp told).mp ended
      exact counted_of_step reach final
  · intro zero told rounds
    have started := Loop.start?_eq_some_iff.mpr ⟨rfl,told⟩
    generalize (⟨0,⟨p.config.interval,p.config.interval⟩,0,.initial⟩ : Loop)=l at started
    have fresh := (Loop.start?_eq_some_iff.mp started).1
    have limit : l.atLimit p.config=true := by
      rw [Loop.atLimit,zero,fresh]
      rfl
    have final : l.step p t=.inl ⟨.returned (.ok (.completed 0)),.initial⟩ := by
      rw [Loop.step_eq,limit,fresh]
      rfl
    have none : l.cycles.toNat=0 := by
      rw [fresh]
      rfl
    exact (runFor_eq_ended_iff hp told).mpr ⟨l,.start started,final,by omega⟩

/-- A run of two cycles that is cancelled in the second one ends as completed, not as cancelled. -/
theorem run_counts_cycles_up_to_limit :
    let p : Poller := ⟨⟨5,some 2,.sum,.standard,false⟩,fun _ => .empty,
      .limited ⟨some 4,none,.takes 0,1,none⟩,fun _ => ""⟩
    let t := {Timeline.quiet with cancelDuring := some 2}
    p.config.interval≠0 ∧ ∃ o,runFor 3 p t=.ended o ∧ o.ending=.returned (.ok (.completed 2)) ∧
      o.state.times=[5,10] ∧ p.successes [5,10]=2 ∧ p.Reported 2 o.state.sink := by
  intro p t
  have hp : p.config.interval≠0 := by decide
  have ended : runFor 3 p t=.ended ⟨.returned (.ok (.completed 2)),
      ⟨.idle,[(5,.empty),(10,.empty)],
        ⟨(Report.noData++Report.noData).toUTF8.toList,12,0,[22,44]⟩,[]⟩⟩ := by
    cbv
  obtain ⟨-,-,-,all,reported⟩ := (run_counts_cycles p t hp).2.1 3 _ ended
  exact ⟨hp,_,ended,rfl,rfl,all,reported⟩

/-- An interval that a command line may ask for, of which the clock cannot tell the end: the run is
broken off although its limit is zero. -/
theorem zero_cycles_beyond_clock :
    let c : CommandLine :=
      {CommandLine.nothing with interval := some 18446744073709551615,iterations := some 0}
    let p : Poller := ⟨(Settings.unset.override c).pollerConfig,fun _ => .empty,
      .limited ⟨none,none,.takes 0,0,none⟩,fun _ => ""⟩
    CommandLine.parse ["--interval","18446744073709551615","--iterations","0"] none=.ok c ∧
      p.config.interval≠0 ∧ p.config.iterations=some 0 ∧
      p.run .quiet=.ended ⟨.aborted .beyondClock,.initial⟩ ∧
      ∀ rounds o,runFor rounds p .quiet=.ended o → o.ending≠.returned (.ok (.completed 0)) := by
  intro c p
  have hp : p.config.interval≠0 := by decide
  have untold : Timeline.quiet.timer.farthest<p.config.interval := by decide
  have zero : p.config.iterations=some 0 := by decide
  refine ⟨by rfl,hp,zero,runFor_of_untold hp _ untold,?_⟩
  intro rounds o ended
  rw [runFor_of_untold hp rounds untold] at ended
  cases ended
  nofun

end Poller
end SchedLatency
