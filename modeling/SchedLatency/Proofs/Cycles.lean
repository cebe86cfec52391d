import SchedLatency.Poller.Cycle

namespace SchedLatency

namespace Sink

theorem writeOut_eq_none_iff (sink : Sink) (s : State) (bytes : List UInt8) :
    (sink.writeOut s bytes).2=none ↔
      (sink.writeAll s bytes).2=none ∧ (sink.flush (sink.writeAll s bytes).1).2=none := by
  cases h : (sink.writeAll s bytes).2 with
  | some e => simp [writeOut_of_fault h]
  | none => simp [writeOut_of_done h]

end Sink

namespace Poller

def after (p : Poller) (times : List Nat) : State :=
  times.foldl (fun s now => (p.cycle now s).1) .initial

/-- What pass `k` alone calls for: the bytes of its report, or why there is none. -/
def report (p : Poller) (k : Nat) : Except SourceError (List UInt8) :=
  (Snapshot.build p.config.policy (p.source k)).outcome.map fun s =>
    ((if p.config.timestamp then p.clock k ++ "\n" else "")++
      Report.render s p.config.report).toUTF8.toList

theorem after_concat (p : Poller) (times : List Nat) (now : Nat) :
    p.after (times++[now])=(p.cycle now (p.after times)).1 := by
  unfold after
  rw [List.foldl_append]
  rfl

theorem cycle_of_lost {p : Poller} {s : State} {e : SourceError} (now : Nat)
    (h : p.report s.visits.length=.error e) :
    (p.cycle now s).1.phase=.idle ∧
      (p.cycle now s).1.visits=s.visits++[(now,p.source s.visits.length)] ∧
      (p.cycle now s).1.sink=s.sink ∧ (p.cycle now s).2=some (.collect e) := by
  unfold report at h
  cases ho : (Snapshot.build p.config.policy (p.source s.visits.length)).outcome with
  | error f =>
    rw [ho] at h
    cases h
    simp only [cycle,visit,ho,and_self]
  | ok snapshot =>
    rw [ho] at h
    cases h

theorem cycle_of_report {p : Poller} {s : State} {r : List UInt8} (now : Nat)
    (h : p.report s.visits.length=.ok r) :
    (p.cycle now s).1.phase=.idle ∧
      (p.cycle now s).1.visits=s.visits++[(now,p.source s.visits.length)] ∧
      (p.cycle now s).1.sink=(p.sink.writeOut s.sink r).1 ∧
      (p.cycle now s).2=(p.sink.writeOut s.sink r).2.map CycleError.write := by
  unfold report at h
  cases ho : (Snapshot.build p.config.policy (p.source s.visits.length)).outcome with
  | error f =>
    rw [ho] at h
    cases h
  | ok snapshot =>
    rw [ho] at h
    cases h
    simp only [cycle,visit,reportText,ho,and_self]

theorem cycle_rests (p : Poller) (now : Nat) (s : State) :
    (p.cycle now s).1.phase=.idle ∧
      (p.cycle now s).1.visits=s.visits++[(now,p.source s.visits.length)] := by
  cases h : p.report s.visits.length with
  | error e => exact ⟨(cycle_of_lost now h).1,(cycle_of_lost now h).2.1⟩
  | ok r => exact ⟨(cycle_of_report now h).1,(cycle_of_report now h).2.1⟩

theorem times_cycle (p : Poller) (now : Nat) (s : State) :
    (p.cycle now s).1.times=s.times++[now] := by
  rw [State.times,(p.cycle_rests now s).2,List.map_append]
  rfl

theorem length_visits_cycle (p : Poller) (now : Nat) (s : State) :
    (p.cycle now s).1.visits.length=s.visits.length+1 := by
  rw [(p.cycle_rests now s).2,List.length_append]
  rfl

theorem cycle_eq_none_iff (p : Poller) (now : Nat) (s : State) :
    (p.cycle now s).2=none ↔ ∃ r,p.report s.visits.length=.ok r ∧
      (p.sink.writeAll s.sink r).2=none ∧
      (p.sink.flush (p.sink.writeAll s.sink r).1).2=none := by
  cases h : p.report s.visits.length with
  | error e => simp [(cycle_of_lost now h).2.2.2]
  | ok r =>
    rw [(cycle_of_report now h).2.2.2,Option.map_eq_none_iff,Sink.writeOut_eq_none_iff]
    simp

/-- What a cycle that is called upon for a report makes of the sink, which bytes it adds, and how it
ends. -/
inductive Effect (sink : Sink) (report : Except SourceError (List UInt8))
    (before now : Sink.State) : List UInt8 → Option CycleError → Prop where
  /-- Nothing is written about a lost pass. -/
  | lost {e : SourceError} : report=.error e → now=before →
      Effect sink report before now [] (some (.collect e))
  /-- A report that cannot be written out leaves a part of itself and is not flushed. -/
  | cutOff {r b : List UInt8} {e : WriteError} : report=.ok r →
      (sink.writeAll before r).2=some e → b<+:r → b≠r →
      now.accepted=before.accepted++b → now.flushes=before.flushes →
      Effect sink report before now b (some (.write e))
  /-- A report that is written out is flushed once, and only this may fail then. -/
  | complete {r : List UInt8} : report=.ok r → (sink.writeAll before r).2=none →
      now.accepted=before.accepted++r → now.flushes=before.flushes++[now.accepted.length] →
      Effect sink report before now r
        ((sink.flushFault now.flushes.length).map fun reason => .write (.flushFailed reason))

theorem Effect.accepted_eq {sink : Sink} {report : Except SourceError (List UInt8)}
    {before now : Sink.State} {b : List UInt8} {fault : Option CycleError}
    (h : Effect sink report before now b fault) : now.accepted=before.accepted++b := by
  cases h with
  | lost _ same => rw [same,List.append_nil]
  | cutOff _ _ _ _ accepted _ => exact accepted
  | complete _ _ accepted _ => exact accepted

theorem Effect.of_success {sink : Sink} {report : Except SourceError (List UInt8)}
    {before now : Sink.State} {b : List UInt8} (h : Effect sink report before now b none) :
    report=.ok b ∧ now.accepted=before.accepted++b ∧
      now.flushes=before.flushes++[now.accepted.length] := by
  generalize hf : (none : Option CycleError)=fault at h
  cases h with
  | lost _ _ => cases hf
  | cutOff _ _ _ _ _ _ => cases hf
  | complete report _ accepted flushes => exact ⟨report,accepted,flushes⟩

theorem cycle_effect (p : Poller) (now : Nat) (s : State) :
    ∃ b,Effect p.sink (p.report s.visits.length) s.sink (p.cycle now s).1.sink b
      (p.cycle now s).2 := by
  cases h : p.report s.visits.length with
  | error e =>
    obtain ⟨-,-,sink,fault⟩ := cycle_of_lost now h
    rw [fault]
    exact ⟨[],.lost rfl sink⟩
  | ok r =>
    obtain ⟨-,-,sink,fault⟩ := cycle_of_report now h
    obtain ⟨taken,left,split,accepted,flushes,done⟩ := p.sink.writeAll_accepts s.sink r
    cases hw : (p.sink.writeAll s.sink r).2 with
    | some e =>
      rw [Sink.writeOut_of_fault hw] at sink fault
      -- A fault means that something is left, so what is taken is not the whole report.
      have short : taken≠r := by
        intro all
        have nothing : left=[] := List.append_right_eq_self.mp (all ▸ split.symm)
        rw [done.mpr nothing] at hw
        cases hw
      rw [fault]
      exact ⟨taken,.cutOff rfl hw ⟨left,split.symm⟩ short (sink ▸ accepted) (sink ▸ flushes)⟩
    | none =>
      rw [Sink.writeOut_of_done hw] at sink fault
      have all : taken=r := by rw [split,done.mp hw,List.append_nil]
      have marked : (p.cycle now s).1.sink.flushes=
          s.sink.flushes++[(p.cycle now s).1.sink.accepted.length] := by
        rw [sink,←flushes]
        rfl
      have result : (p.cycle now s).2=(p.sink.flushFault (p.cycle now s).1.sink.flushes.length).map
          fun reason => .write (.flushFailed reason) := by
        rw [sink,fault]
        exact Option.map_map _ _ _
      subst all
      rw [result]
      exact ⟨taken,.complete rfl hw (sink ▸ accepted) marked⟩

theorem times_foldl (p : Poller) (times : List Nat) (s : State) :
    (times.foldl (fun s now => (p.cycle now s).1) s).times=s.times++times := by
  induction times generalizing s with
  | nil => exact (List.append_nil _).symm
  | cons now times ih => rw [List.foldl_cons,ih,times_cycle,List.append_assoc,List.singleton_append]

theorem times_after (p : Poller) (times : List Nat) : (p.after times).times=times :=
  p.times_foldl times .initial

theorem length_visits_after (p : Poller) (times : List Nat) :
    (p.after times).visits.length=times.length := by
  have length := congrArg List.length (p.times_after times)
  rwa [State.times,List.length_map] at length

theorem cycles_append (p : Poller) (times times' : List Nat) (s : State) :
    p.cycles (times++times') s=
      p.cycles times s++p.cycles times' (times.foldl (fun s now => (p.cycle now s).1) s) := by
  induction times generalizing s with
  | nil => rfl
  | cons now times ih => exact congrArg (p.cycle now s :: ·) (ih (p.cycle now s).1)

theorem cycles_concat (p : Poller) (times : List Nat) (now : Nat) :
    p.cycles (times++[now]) .initial=
      p.cycles times .initial++[p.cycle now (p.after times)] :=
  p.cycles_append times [now] .initial

section

variable (p : Poller) (time : Nat → Nat) (k : Nat)

def stateAt : State := p.after ((List.range k).map time)

def written : List UInt8 :=
  (p.stateAt time (k+1)).sink.accepted.drop (p.stateAt time k).sink.accepted.length

theorem stateAt_succ : p.stateAt time (k+1)=(p.cycle (time k) (p.stateAt time k)).1 := by
  rw [stateAt,List.range_succ,List.map_append,List.map_singleton,after_concat]
  rfl

theorem length_visits_stateAt : (p.stateAt time k).visits.length=k := by
  rw [stateAt,length_visits_after,List.length_map,List.length_range]

theorem cycles_range : p.cycles ((List.range k).map time) .initial=
    (List.range k).map fun j => p.cycle (time j) (p.stateAt time j) := by
  induction k with
  | zero => rfl
  | succ k ih =>
    rw [List.range_succ,List.map_append,List.map_singleton,cycles_concat,ih,List.map_append]
    rfl

theorem effect_written : Effect p.sink (p.report k) (p.stateAt time k).sink
    (p.cycle (time k) (p.stateAt time k)).1.sink (p.written time k)
    (p.cycle (time k) (p.stateAt time k)).2 := by
  obtain ⟨b,h⟩ := p.cycle_effect (time k) (p.stateAt time k)
  rw [length_visits_stateAt] at h
  have same : p.written time k=b := by
    rw [written,stateAt_succ,h.accepted_eq,List.drop_left]
  rw [same]
  exact h

theorem accepted_stateAt :
    (p.stateAt time k).sink.accepted=((List.range k).map (p.written time)).flatten := by
  induction k with
  | zero => rfl
  | succ k ih =>
    rw [stateAt_succ,(p.effect_written time k).accepted_eq,ih]
    simp [List.range_succ]

end

/-- Any number of calls of one poller, at any times, also after failed ones. What the sink has
accepted is what each call added, one after the other, and each call adds what its own pass calls
for: nothing if the pass is lost, else its report or, if that cannot be written out, a proper part
of it. The report is the time of day, if asked for, and the rendered snapshot of the pass. Written
reports are flushed once and nothing else is. A call succeeds exactly if report, writing and flush
do, and leaves the poller at rest in any case. -/
theorem cycles_write_reports (p : Poller) (time : Nat → Nat) (n : Nat) :
    let report (k : Nat) : Except SourceError (List UInt8) :=
      (Snapshot.build p.config.policy (p.source k)).outcome.map fun s =>
        ((if p.config.timestamp then p.clock k ++ "\n" else "")++
          Report.render s p.config.report).toUTF8.toList
    p.cycles ((List.range n).map time) .initial=
      (List.range n).map (fun k => p.cycle (time k) (p.stateAt time k)) ∧
    (p.stateAt time n).sink.accepted=((List.range n).map (p.written time)).flatten ∧
    ∀ k,
      let before := p.stateAt time k
      let call := p.cycle (time k) before
      p.stateAt time (k+1)=call.1 ∧
      Effect p.sink (report k) before.sink call.1.sink (p.written time k) call.2 ∧
      (call.2=none ↔ ∃ r,report k=.ok r ∧ (p.sink.writeAll before.sink r).2=none ∧
        (p.sink.flush (p.sink.writeAll before.sink r).1).2=none) ∧
      call.1.phase=.idle := by
  refine ⟨p.cycles_range time n,p.accepted_stateAt time n,?_⟩
  intro k before call
  have ok := p.cycle_eq_none_iff (time k) before
  rw [length_visits_stateAt] at ok
  exact ⟨p.stateAt_succ time k,p.effect_written time k,ok,(p.cycle_rests _ _).1⟩

end Poller
end SchedLatency
