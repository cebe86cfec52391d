import SchedLatency.Poller.Run
import SchedLatency.Proofs.Cycles

namespace SchedLatency.Poller

def Succeeds (p : Poller) (times : List Nat) : Prop := ∀ c∈p.cycles times .initial,c.2=none

theorem succeeds_concat {p : Poller} {times : List Nat} {now : Nat} :
    p.Succeeds (times++[now]) ↔ p.Succeeds times ∧ (p.cycle now (p.after times)).2=none := by
  unfold Succeeds
  rw [cycles_concat,List.forall_mem_append,List.forall_mem_singleton]

namespace Loop

variable {p : Poller} {t : Timeline} {l l' : Loop}

def isStopped (l : Loop) (t : Timeline) : Bool :=
  t.isCancelled l.now l.state.visits.length || t.interrupts (l.ticker.taken l.now)

def call (l : Loop) (p : Poller) : State×Option CycleError :=
  p.cycle (l.ticker.taken l.now) l.state

def advance (l : Loop) (p : Poller) (t : Timeline) (ticker : Ticker) : Loop where
  now := l.ticker.taken l.now+t.duration l.state.visits.length
  ticker := ticker
  cycles := l.cycles+1
  state := (l.call p).1

theorem length_visits_call (l : Loop) (p : Poller) :
    (l.call p).1.visits.length=l.state.visits.length+1 :=
  p.length_visits_cycle _ _

theorem isCancelled_of_isStopped (h : l.isStopped t=true) :
    t.isCancelled (l.ticker.taken l.now) l.state.visits.length=true := by
  have later := l.ticker.le_taken l.now
  rw [isStopped,Bool.or_eq_true,Timeline.isCancelled_iff] at h
  rw [Timeline.isCancelled_iff]
  rcases h with h | h
  · rcases h with before | ⟨c,hc,past⟩ | during
    · exact .inl before
    · exact .inr (.inl ⟨c,hc,Nat.le_trans past later⟩)
    · exact .inr (.inr during)
  · exact .inr (.inl (Timeline.exists_of_interrupts h))

theorem step_eq (p : Poller) (t : Timeline) (l : Loop) :
    l.step p t=
      if l.atLimit p.config then .inl (l.stop (.returned (.ok (.completed l.cycles))))
      else if l.isStopped t then .inl (l.stop (.returned (.ok (.cancelled l.cycles))))
      else match l.ticker.advance? t.timer l.now with
        | none => .inl (l.stop (.aborted .beyondClock))
        | some ticker => match (l.call p).2 with
          | some e => .inl ⟨.returned (.error e),(l.call p).1⟩
          | none =>
            if l.cycles.toNat+1<UInt64.size then .inr (l.advance p t ticker)
            else .inl ⟨.aborted .beyondCounter,(l.call p).1⟩ := by
  unfold step isStopped
  cases l.atLimit p.config with
  | true => rfl
  | false =>
    cases t.isCancelled l.now l.state.visits.length with
    | true => rfl
    | false =>
      cases interrupted : t.interrupts (l.ticker.taken l.now) with
      | true => simp [interrupted]
      | false =>
        cases l.ticker.advance? t.timer l.now with
        | none => simp [interrupted]
        | some ticker =>
          cases fault : (p.cycle (l.ticker.taken l.now) l.state).2 <;>
            simp [interrupted,call,advance,fault]

/-- What one round comes to. -/
inductive Round (p : Poller) (t : Timeline) (l : Loop) : Outcome⊕Loop → Prop where
  | completed : l.atLimit p.config=true →
      Round p t l (.inl (l.stop (.returned (.ok (.completed l.cycles)))))
  | cancelled : l.atLimit p.config=false → l.isStopped t=true →
      Round p t l (.inl (l.stop (.returned (.ok (.cancelled l.cycles)))))
  | untold : l.atLimit p.config=false → l.isStopped t=false →
      l.ticker.advance? t.timer l.now=none → Round p t l (.inl (l.stop (.aborted .beyondClock)))
  | failed {e : CycleError} : l.atLimit p.config=false → l.isStopped t=false →
      (l.call p).2=some e → Round p t l (.inl ⟨.returned (.error e),(l.call p).1⟩)
  | uncounted : l.atLimit p.config=false → l.isStopped t=false → (l.call p).2=none →
      UInt64.size≤l.cycles.toNat+1 → Round p t l (.inl ⟨.aborted .beyondCounter,(l.call p).1⟩)
  | succeeded {ticker : Ticker} : l.atLimit p.config=false → l.isStopped t=false →
      l.ticker.advance? t.timer l.now=some ticker → (l.call p).2=none →
      l.cycles.toNat+1<UInt64.size → Round p t l (.inr (l.advance p t ticker))

theorem round_of_step {r : Outcome⊕Loop} (h : l.step p t=r) : Round p t l r := by
  rw [←h,step_eq]
  cases limit : l.atLimit p.config with
  | true => exact .completed limit
  | false =>
    cases stopped : l.isStopped t with
    | true => exact .cancelled limit stopped
    | false =>
      cases tick : l.ticker.advance? t.timer l.now with
      | none => exact .untold limit stopped tick
      | some ticker =>
        cases fault : (l.call p).2 with
        | some e => exact .failed limit stopped fault
        | none =>
          by_cases room : l.cycles.toNat+1<UInt64.size
          · simp only [Bool.false_eq_true,if_false,if_pos room]
            exact .succeeded limit stopped tick fault room
          · simp only [Bool.false_eq_true,if_false,if_neg room]
            exact .uncounted limit stopped fault (Nat.le_of_not_lt room)

theorem cycles_advance {ticker : Ticker} (room : l.cycles.toNat+1<UInt64.size) :
    (l.advance p t ticker).cycles.toNat=l.cycles.toNat+1 := by
  change (l.cycles+1).toNat=_
  rw [UInt64.toNat_add]
  exact Nat.mod_eq_of_lt room

theorem cycles_of_step (h : l.step p t=.inr l') : l'.cycles.toNat=l.cycles.toNat+1 := by
  cases round_of_step h with
  | succeeded _ _ _ _ room => exact cycles_advance room

theorem start?_eq_some_iff {config : Config} {timer : Timer} :
    start? config timer=some l ↔
      l=⟨0,⟨config.interval,config.interval⟩,0,.initial⟩ ∧ config.interval≤timer.farthest := by
  unfold start?
  rw [Option.map_eq_some_iff]
  constructor
  · rintro ⟨ticker,h,rfl⟩
    obtain ⟨rfl,hle⟩ := Ticker.start?_eq_some_iff.mp h
    exact ⟨rfl,hle⟩
  · rintro ⟨rfl,hle⟩
    exact ⟨_,Ticker.start?_eq_some_iff.mpr ⟨rfl,hle⟩,rfl⟩

inductive Reachable (p : Poller) (t : Timeline) : Loop → Prop where
  | start {l : Loop} : start? p.config t.timer=some l → Reachable p t l
  | next {l l' : Loop} : Reachable p t l → l.step p t=.inr l' → Reachable p t l'

/-- What holds whenever a run comes round: all cycles so far have succeeded, and there are no more
than asked for. -/
structure Sound (p : Poller) (l : Loop) : Prop where
  state : l.state=p.after l.state.times
  succeeded : p.Succeeds l.state.times
  visits : l.state.visits.length=l.cycles.toNat
  limit : ∀ n,p.config.iterations=some n → l.cycles≤n
  period : l.ticker.period=p.config.interval

theorem lt_of_atLimit_eq_false {config : Config} (h : l.atLimit config=false) {n : UInt64}
    (hn : config.iterations=some n) : l.cycles<n := by
  rw [atLimit,hn,Option.any_some,decide_eq_false_iff_not,UInt64.le_iff_toNat_le] at h
  rw [UInt64.lt_iff_toNat_lt]
  omega

theorem Sound.iterations_eq (h : l.Sound p) (limit : l.atLimit p.config=true) :
    p.config.iterations=some l.cycles := by
  obtain ⟨n,hn,reached⟩ := (Option.any_eq_true _ _).mp limit
  have most := h.limit n hn
  have least := of_decide_eq_true reached
  rw [UInt64.le_iff_toNat_le] at most least
  rw [hn,UInt64.toNat_inj.mp (Nat.le_antisymm least most)]

theorem Sound.call_eq (h : l.Sound p) :
    (l.call p).1=p.after (l.state.times++[l.ticker.taken l.now]) := by
  rw [after_concat,call,←h.state]

theorem Sound.times_call (l : Loop) (p : Poller) :
    (l.call p).1.times=l.state.times++[l.ticker.taken l.now] :=
  p.times_cycle _ _

theorem sound_start (h : start? p.config t.timer=some l) : l.Sound p := by
  obtain ⟨rfl,-⟩ := start?_eq_some_iff.mp h
  refine ⟨rfl,?_,rfl,?_,rfl⟩
  · intro c hc
    cases hc
  · intro n _
    exact UInt64.le_iff_toNat_le.mpr (Nat.zero_le _)

theorem Sound.advance (h : l.Sound p) {ticker : Ticker} (limit : l.atLimit p.config=false)
    (tick : l.ticker.advance? t.timer l.now=some ticker) (ok : (l.call p).2=none)
    (room : l.cycles.toNat+1<UInt64.size) : (l.advance p t ticker).Sound p where
  state := by
    change (l.call p).1=p.after (l.call p).1.times
    rw [times_call]
    exact h.call_eq
  succeeded := by
    change p.Succeeds (l.call p).1.times
    rw [times_call,succeeds_concat,←h.state]
    exact ⟨h.succeeded,ok⟩
  visits := by
    rw [cycles_advance room,←h.visits]
    exact l.length_visits_call p
  limit := by
    intro n hn
    have below := lt_of_atLimit_eq_false limit hn
    rw [UInt64.lt_iff_toNat_lt] at below
    rw [UInt64.le_iff_toNat_le,cycles_advance room]
    exact below
  period := (Ticker.period_of_advance? tick).trans h.period

theorem Reachable.sound (h : Reachable p t l) : l.Sound p := by
  induction h with
  | start h => exact sound_start h
  | next _ step ih =>
    cases round_of_step step with
    | succeeded limit _ tick ok room => exact ih.advance limit tick ok room

/-- The tick that a run waits for comes later with every cycle. -/
theorem Reachable.cycles_lt_next (h : Reachable p t l) (hp : p.config.interval≠0) :
    l.cycles.toNat<l.ticker.next := by
  induction h with
  | start h =>
    obtain ⟨rfl,-⟩ := start?_eq_some_iff.mp h
    exact Nat.pos_of_ne_zero hp
  | @next l l' reach step ih =>
    cases round_of_step step with
    | @succeeded ticker _ _ tick _ room =>
      have hperiod : l.ticker.period≠0 := by rwa [reach.sound.period]
      have later : l.ticker.next<ticker.next := Ticker.next_lt_of_advance? hperiod tick
      rw [cycles_advance room]
      exact Nat.lt_of_le_of_lt ih later

variable {first : Loop} (started : start? p.config t.timer=some first)

include started

theorem follow_of_reachable (h : Reachable p t l) (rounds : Nat) :
    follow p t (l.cycles.toNat+rounds) first=follow p t rounds l := by
  -- Along the way to the loop, for any number of rounds that are left when it is reached.
  induction h generalizing rounds with
  | start h =>
    rw [started] at h
    cases h
    obtain ⟨rfl,-⟩ := start?_eq_some_iff.mp started
    exact congrArg (follow p t · _) (Nat.zero_add rounds)
  | @next l l' _ step ih =>
    rw [cycles_of_step step,Nat.add_assoc,Nat.add_comm 1 rounds,ih]
    simp only [follow,step]

omit started

theorem reachable_of_follow (h : Reachable p t l) {rounds : Nat} {o : Outcome}
    (ended : follow p t rounds l=some o) :
    ∃ last,Reachable p t last ∧ last.step p t=.inl o ∧
      last.cycles.toNat<l.cycles.toNat+rounds := by
  induction rounds generalizing l with
  | zero => cases ended
  | succ rounds ih =>
    unfold follow at ended
    cases step : l.step p t with
    | inl o' =>
      rw [step] at ended
      cases ended
      exact ⟨l,h,step,by omega⟩
    | inr next =>
      rw [step] at ended
      have one := cycles_of_step step
      obtain ⟨last,reach,final,bound⟩ := ih (h.next step) ended
      exact ⟨last,reach,final,by omega⟩

end Loop

variable {p : Poller} (hp : p.config.interval≠0) {t : Timeline}

include hp

theorem runFor_of_untold (rounds : Nat) (untold : t.timer.farthest<p.config.interval) :
    runFor rounds p t=.ended ⟨.aborted .beyondClock,.initial⟩ := by
  have none : Loop.start? p.config t.timer=none := by
    cases h : Loop.start? p.config t.timer with
    | none => rfl
    | some l =>
      have told := (Loop.start?_eq_some_iff.mp h).2
      omega
  rw [runFor,if_neg hp,none]

theorem runFor_of_started {first : Loop} (started : Loop.start? p.config t.timer=some first)
    (rounds : Nat) : runFor rounds p t=
      match Loop.follow p t rounds first with
      | some o => .ended o
      | none => .unfinished := by
  cases ended : Loop.follow p t rounds first <;> simp [runFor,hp,started,ended]

/-- Any other run ends in the last loop that it reaches, and needs a round more than that has
cycles. -/
theorem runFor_eq_ended_iff (told : p.config.interval≤t.timer.farthest) {rounds : Nat}
    {o : Outcome} :
    runFor rounds p t=.ended o ↔
      ∃ last,Loop.Reachable p t last ∧ last.step p t=.inl o ∧ last.cycles.toNat<rounds := by
  have started := Loop.start?_eq_some_iff.mpr ⟨rfl,told⟩
  rw [runFor_of_started hp started]
  generalize (⟨0,⟨p.config.interval,p.config.interval⟩,0,.initial⟩ : Loop)=first at started
  have fresh : first.cycles.toNat=0 := by
    rw [(Loop.start?_eq_some_iff.mp started).1]
    rfl
  constructor
  · intro h
    cases ended : Loop.follow p t rounds first with
    | none =>
      rw [ended] at h
      cases h
    | some o' =>
      rw [ended] at h
      cases h
      obtain ⟨last,reach,final,bound⟩ := Loop.reachable_of_follow (.start started) ended
      exact ⟨last,reach,final,by omega⟩
  · rintro ⟨last,reach,final,bound⟩
    -- One round per cycle leads to the last loop, the next one ends the run.
    have split : rounds=last.cycles.toNat+(rounds-last.cycles.toNat-1+1) := by omega
    have ended : Loop.follow p t rounds first=some o := by
      rw [split,Loop.follow_of_reachable started reach]
      simp only [Loop.follow,final]
    rw [ended]

end SchedLatency.Poller
