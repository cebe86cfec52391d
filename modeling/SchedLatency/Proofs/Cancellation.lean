import Mathlib
import SchedLatency.Proofs.Coverage
import SchedLatency.Proofs.Rounds

namespace SchedLatency.Poller

def Timeline.uncancelled (t : Timeline) : Timeline :=
  {t with cancelledBefore := false,cancelAt := none,cancelDuring := none}

def Config.exitAt (config : Config) (cycles : UInt64) : Exit :=
  if config.iterations=some cycles then .completed cycles else .cancelled cycles

/-- The run is over in this way if it is given a round for each visit and one more. The rounds of
`run` are enough for as many visits as a word can count. -/
def Ends (p : Poller) (t : Timeline) (o : Outcome) : Prop :=
  ∀ rounds,o.state.visits.length<rounds → runFor rounds p t=.ended o

section

variable {p : Poller} {t : Timeline} {l : Loop}

namespace Loop

theorem isStopped_uncancelled (l : Loop) (t : Timeline) : l.isStopped t.uncancelled=false := rfl

/-- A round that is not stopped goes as if nobody cancelled the run. -/
theorem step_uncancelled (h : l.isStopped t=false) : l.step p t=l.step p t.uncancelled := by
  rw [step_eq,step_eq,h,isStopped_uncancelled]
  rfl

theorem Reachable.uncancelled (h : Reachable p t l) : Reachable p t.uncancelled l := by
  induction h with
  | start h => exact .start h
  | next _ step ih =>
    cases round_of_step step with
    | succeeded _ goesOn _ _ _ =>
      rw [step_uncancelled goesOn] at step
      exact ih.next step

theorem Reachable.told (h : Reachable p t l) : p.config.interval≤t.timer.farthest := by
  induction h with
  | start h => exact (start?_eq_some_iff.mp h).2
  | next _ _ ih => exact ih

theorem isStopped_of_isCancelled (h : t.isCancelled l.now l.state.visits.length=true) :
    l.isStopped t=true := by
  rw [isStopped,h,Bool.true_or]

theorem visits_of_step {o : Outcome} (final : l.step p t=.inl o) :
    l.state.visits.length≤o.state.visits.length := by
  have one := l.length_visits_call p
  cases round_of_step final with
  | completed _ => exact Nat.le_refl _
  | cancelled _ _ => exact Nat.le_refl _
  | untold _ _ _ => exact Nat.le_refl _
  | failed _ _ _ => exact Nat.le_of_lt (by rw [one]; exact Nat.lt_succ_self _)
  | uncounted _ _ _ _ => exact Nat.le_of_lt (by rw [one]; exact Nat.lt_succ_self _)

end Loop

theorem ends_of_step (hp : p.config.interval≠0) (reach : Loop.Reachable p t l) {o : Outcome}
    (final : l.step p t=.inl o) : Ends p t o := by
  have most := Loop.visits_of_step final
  rw [reach.sound.visits] at most
  intro rounds enough
  exact (runFor_eq_ended_iff hp reach.told).mpr ⟨l,reach,final,Nat.lt_of_le_of_lt most enough⟩

theorem ends_of_isStopped (hp : p.config.interval≠0) (reach : Loop.Reachable p t l)
    (stopped : l.isStopped t=true) :
    Ends p t (l.stop (.returned (.ok (p.config.exitAt l.cycles)))) := by
  apply ends_of_step hp reach
  rw [Loop.step_eq,stopped]
  cases limit : l.atLimit p.config with
  | true =>
    rw [Config.exitAt,if_pos (reach.sound.iterations_eq limit)]
    rfl
  | false =>
    have other : p.config.iterations≠some l.cycles := by
      intro h
      have below := Loop.lt_of_atLimit_eq_false limit h
      exact Nat.lt_irrefl _ (UInt64.lt_iff_toNat_lt.mp below)
    rw [Config.exitAt,if_neg other]
    rfl

theorem ends_or_reaches (hp : p.config.interval≠0) (t : Timeline) (n : Nat) :
    (∃ o,Ends p t o) ∨ ∃ l,Loop.Reachable p t l ∧ l.cycles.toNat=n := by
  induction n with
  | zero =>
    rcases Nat.lt_or_ge t.timer.farthest p.config.interval with untold | told
    · exact .inl ⟨_,fun rounds _ => runFor_of_untold hp rounds untold⟩
    · exact .inr ⟨_,.start (Loop.start?_eq_some_iff.mpr ⟨rfl,told⟩),rfl⟩
  | succ n ih =>
    rcases ih with ended | ⟨l,reach,rfl⟩
    · exact .inl ended
    · cases step : l.step p t with
      | inl o => exact .inl ⟨o,ends_of_step hp reach step⟩
      | inr next => exact .inr ⟨next,reach.next step,Loop.cycles_of_step step⟩

/-- Each tick is due later than the one before, so the time of any cancellation is reached. -/
theorem isStopped_of_cancelAt (hp : p.config.interval≠0) (reach : Loop.Reachable p t l) {c : Nat}
    (hc : t.cancelAt=some c) (late : c≤l.cycles.toNat) : l.isStopped t=true := by
  have next := reach.cycles_lt_next hp
  have taken := l.ticker.next_le_taken l.now
  have before : c<l.ticker.taken l.now := by omega
  have interrupted : t.interrupts (l.ticker.taken l.now)=true := by
    rw [Timeline.interrupts,hc,Option.any_some]
    split
    · exact decide_eq_true before
    · exact decide_eq_true (Nat.le_of_lt before)
  rw [Loop.isStopped,interrupted,Bool.or_true]

theorem ends_of_isCancelled (hp : p.config.interval≠0) {now visits : Nat}
    (h : t.isCancelled now visits=true) : ∃ o,Ends p t o := by
  have stopped : ∃ n,∀ l,Loop.Reachable p t l → l.cycles.toNat=n → l.isStopped t=true := by
    rcases (t.isCancelled_iff now visits).mp h with before | ⟨c,hc,-⟩ | ⟨n,hn,pos,-⟩
    · refine ⟨0,fun l _ _ => Loop.isStopped_of_isCancelled ?_⟩
      exact (t.isCancelled_iff _ _).mpr (.inl before)
    · exact ⟨c,fun l reach late => isStopped_of_cancelAt hp reach hc (Nat.le_of_eq late.symm)⟩
    · refine ⟨n,fun l reach all => Loop.isStopped_of_isCancelled ?_⟩
      have visits : n≤l.state.visits.length := Nat.le_of_eq (by rw [reach.sound.visits,all])
      exact (t.isCancelled_iff _ _).mpr (.inr (.inr ⟨n,hn,pos,visits⟩))
  -- Either the run ends on its own before its `n`-th cycle is completed, or it is stopped there.
  obtain ⟨n,stopped⟩ := stopped
  rcases ends_or_reaches hp t n with ended | ⟨l,reach,all⟩
  · exact ended
  · exact ⟨_,ends_of_isStopped hp reach (stopped l reach all)⟩

theorem ends_of_isCancelled_in_cycle (hp : p.config.interval≠0) (reach : Loop.Reachable p t l)
    (limit : l.atLimit p.config=false) (goesOn : l.isStopped t=false) {ticker : Ticker}
    (tick : l.ticker.advance? t.timer l.now=some ticker)
    (h : t.isCancelled (l.ticker.taken l.now+t.duration l.state.visits.length)
      (l.state.visits.length+1)=true) :
    (∀ e,(l.call p).2=some e → Ends p t ⟨.returned (.error e),(l.call p).1⟩) ∧
    ((l.call p).2=none → l.cycles.toNat+1<UInt64.size →
      Ends p t ⟨.returned (.ok (p.config.exitAt (l.cycles+1))),(l.call p).1⟩) := by
  constructor
  · intro e fault
    apply ends_of_step hp reach
    rw [Loop.step_eq,limit,goesOn,tick]
    simp [fault]
  · intro ok room
    have step : l.step p t=.inr (l.advance p t ticker) := by
      rw [Loop.step_eq,limit,goesOn,tick]
      simp [ok,room]
    apply ends_of_isStopped hp (reach.next step)
    apply Loop.isStopped_of_isCancelled
    change t.isCancelled _ (l.call p).1.visits.length=true
    rwa [l.length_visits_call]

end

/-- A run that is ever cancelled ends. It comes round for the first time before its first tick, if
the clock can tell that. Whenever it comes round, all has gone as without the cancellation, cycle by
cycle. If it is cancelled then or before the tick it waits for, it ends without another visit, even
if that tick is due. Otherwise the round goes as without the cancellation. If it comes to a cycle
and the run is cancelled in the course of that, the cycle takes its pass from the source all the
same, accounts for all its records unless the pass is lost, and makes of the sink what the report
calls for, which is to be written whole and flushed if the cycle succeeds. Then the run ends, with
the error of the cycle or, as completed or cancelled, depending on the limit. -/
theorem cancellation_stops_between_cycles (p : Poller) (t : Timeline) (hp : p.config.interval≠0) :
    (∀ now visits,t.isCancelled now visits=true → ∃ o,Ends p t o) ∧
    (p.config.interval≤t.timer.farthest →
      Loop.Reachable p t ⟨0,⟨p.config.interval,p.config.interval⟩,0,.initial⟩) ∧
    ∀ l,Loop.Reachable p t l →
      Loop.Reachable p t.uncancelled l ∧ l.state=p.after l.state.times ∧
      (t.isCancelled l.now l.state.visits.length=true ∨
          t.interrupts (l.ticker.taken l.now)=true →
        Ends p t (l.stop (.returned (.ok (p.config.exitAt l.cycles))))) ∧
      (l.isStopped t=false → l.step p t=l.step p t.uncancelled) ∧
      ∀ ticker,l.atLimit p.config=false → l.isStopped t=false →
        l.ticker.advance? t.timer l.now=some ticker →
        let k := l.state.visits.length
        let now := l.ticker.taken l.now
        let call := p.cycle now l.state
        t.isCancelled (now+t.duration k) (k+1)=true →
          call.1.visits=l.state.visits++[(now,p.source k)] ∧
          ((∃ e,call.2=some (.collect e) ∧ ¬(p.source k).Intact) ∨
            ∃ s,(p.source k).Intact ∧ s.Covers (p.source k).records ∧
              let report := ((if p.config.timestamp then p.clock k ++ "\n" else "")++
                Report.render s p.config.report).toUTF8.toList
              ∃ b,Effect p.sink (.ok report) l.state.sink call.1.sink b call.2 ∧
                (call.2=none → call.1.sink.accepted=l.state.sink.accepted++report ∧
                  call.1.sink.flushes=l.state.sink.flushes++[call.1.sink.accepted.length])) ∧
          (∀ e,call.2=some e → Ends p t ⟨.returned (.error e),call.1⟩) ∧
          (call.2=none → k+1<UInt64.size →
            Ends p t ⟨.returned (.ok (p.config.exitAt (l.cycles+1))),call.1⟩) := by
  refine ⟨fun _ _ => ends_of_isCancelled hp,
    fun told => .start (Loop.start?_eq_some_iff.mpr ⟨rfl,told⟩),?_⟩
  intro l reach
  refine ⟨reach.uncancelled,reach.sound.state,?_,Loop.step_uncancelled,?_⟩
  · intro h
    apply ends_of_isStopped hp reach
    rw [Loop.isStopped,Bool.or_eq_true]
    exact h
  · intro ticker limit goesOn tick k now call cancelled
    have ends := ends_of_isCancelled_in_cycle hp reach limit goesOn tick cancelled
    have visits : k=l.cycles.toNat := reach.sound.visits
    refine ⟨(p.cycle_rests now l.state).2,?_,ends.1,?_⟩
    · obtain ⟨b,effect⟩ := p.cycle_effect now l.state
      rcases Snapshot.build_covers p.config.policy (p.source k) with
        ⟨e,lost,spoiled⟩ | ⟨s,built,intact,covers⟩
      · have report : p.report k=.error e := by rw [report,lost]; rfl
        exact .inl ⟨e,(cycle_of_lost now report).2.2.2,spoiled⟩
      · refine .inr ⟨s,intact,covers,b,?_,?_⟩
        · rw [report,built] at effect
          exact effect
        · intro ok
          rw [ok,report,built] at effect
          obtain ⟨whole,accepted,flushes⟩ := effect.of_success
          cases whole
          exact ⟨accepted,flushes⟩
    · intro ok room
      rw [visits] at room
      exact ends.2 ok room

/-- A run of three cycles, cancelled in its first pass, whose sink takes four bytes at a time: the
report is whole and flushed, and there is no second pass. -/
theorem cancellation_in_first_pass :
    let p : Poller := ⟨⟨5,some 3,.sum,.standard,false⟩,fun _ => .empty,
      .limited ⟨some 4,none,.takes 0,1,none⟩,fun _ => ""⟩
    let t := {Timeline.quiet with cancelDuring := some 1}
    let l : Loop := ⟨0,⟨5,5⟩,0,.initial⟩
    p.config.interval≠0 ∧ Loop.Reachable p t l ∧ l.atLimit p.config=false ∧
      l.isStopped t=false ∧ l.ticker.advance? t.timer l.now=some ⟨5,10⟩ ∧
      t.isCancelled (5+t.duration 0) 1=true ∧
      Ends p t ⟨.returned (.ok (.cancelled 1)),
        ⟨.idle,[(5,.empty)],⟨Report.noData.toUTF8.toList,6,0,[22]⟩,[]⟩⟩ := by
  intro p t l
  have hp : p.config.interval≠0 := by decide
  obtain ⟨-,start,cancelled⟩ := cancellation_stops_between_cycles p t hp
  have reach : Loop.Reachable p t l := start (by decide)
  have tick : l.ticker.advance? t.timer l.now=some ⟨5,10⟩ := by decide
  have onward := (cancelled l reach).2.2.2.2
  have ends := onward ⟨5,10⟩ rfl rfl tick rfl
  have call : p.cycle 5 .initial=
      (⟨.idle,[(5,.empty)],⟨Report.noData.toUTF8.toList,6,0,[22]⟩,[]⟩,none) := by
    cbv
  have last := ends.2.2.2
  change (p.cycle 5 .initial).2=none → _ → Ends p t ⟨_,(p.cycle 5 .initial).1⟩ at last
  rw [call] at last
  exact ⟨hp,reach,rfl,rfl,tick,rfl,last rfl (by decide)⟩

end SchedLatency.Poller
