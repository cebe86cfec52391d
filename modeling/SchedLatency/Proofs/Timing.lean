import SchedLatency.Proofs.Cancellation
import SchedLatency.Proofs.Counting

namespace SchedLatency.Poller

def Timeline.prompt (timer : Timer) (cancelAt : Option Nat) (tickWinsTie : Bool) : Timeline :=
  {Timeline.quiet with timer := timer,cancelAt := cancelAt,tickWinsTie := tickWinsTie}

def Config.ticks (config : Config) (n : Nat) : List Nat :=
  (List.range n).map fun i => (i+1)*config.interval

/-- The number of cycles that a limit and a cancellation leave, if there is either. -/
def Config.allotted (config : Config) (cancelAt : Option Nat) : Option Nat :=
  Option.merge min (config.iterations.map UInt64.toNat) (cancelAt.map (·/config.interval))

theorem Config.ticks_succ (config : Config) (n : Nat) :
    config.ticks (n+1)=config.ticks n++[(n+1)*config.interval] := by
  unfold ticks
  rw [List.range_succ,List.map_append,List.map_singleton]

theorem Config.length_ticks (config : Config) (n : Nat) : (config.ticks n).length=n := by
  rw [ticks,List.length_map,List.length_range]

theorem visits_ticks (p : Poller) (n : Nat) : (p.after (p.config.ticks n)).visits=
    (List.range n).map fun i => ((i+1)*p.config.interval,p.source i) := by
  induction n with
  | zero => rfl
  | succ n ih =>
    rw [Config.ticks_succ,after_concat,(p.cycle_rests _ _).2,length_visits_after,
      Config.length_ticks,ih,List.range_succ,List.map_append,List.map_singleton]

structure Config.Allots (config : Config) (cancelAt : Option Nat) (k : Nat) : Prop where
  withinLimit : ∀ n,config.iterations=some n → k≤n.toNat
  withinTime : ∀ c,cancelAt=some c → k≤c/config.interval
  tight : (∃ n,config.iterations=some n ∧ n.toNat=k) ∨ ∃ c,cancelAt=some c ∧ c/config.interval=k

theorem Config.allots {config : Config} {cancelAt : Option Nat} {k : Nat}
    (h : config.allotted cancelAt=some k) : config.Allots cancelAt k := by
  unfold allotted at h
  cases limit : config.iterations with
  | none =>
    cases cancelAt with
    | none => simp [limit] at h
    | some c =>
      have hk : c/config.interval=k := by simpa [limit] using h
      refine ⟨by simp [limit],?_,.inr ⟨c,rfl,hk⟩⟩
      intro c' hc
      cases hc
      exact hk.ge
  | some n =>
    cases cancelAt with
    | none =>
      have hk : n.toNat=k := by simpa [limit] using h
      refine ⟨?_,by simp,.inl ⟨n,limit,hk⟩⟩
      intro n' hn
      rw [limit] at hn
      cases hn
      exact hk.ge
    | some c =>
      have hk : min n.toNat (c/config.interval)=k := by simpa [limit] using h
      refine ⟨?_,?_,?_⟩
      · intro n' hn
        rw [limit] at hn
        cases hn
        omega
      · intro c' hc
        cases hc
        omega
      · rcases Nat.le_total n.toNat (c/config.interval) with hle | hle
        · exact .inl ⟨n,limit,by omega⟩
        · exact .inr ⟨c,rfl,by omega⟩

theorem Config.Allots.iterations_eq_iff {config : Config} {cancelAt : Option Nat} {k : Nat}
    (h : config.Allots cancelAt k) (word : k<UInt64.size) :
    config.iterations=some (.ofNat k) ↔ ∃ n,config.iterations=some n ∧ n.toNat=k := by
  constructor
  · intro limit
    exact ⟨_,limit,UInt64.toNat_ofNat_of_lt' word⟩
  · rintro ⟨n,limit,rfl⟩
    rw [limit,UInt64.ofNat_toNat]

namespace Loop

/-- The loop that has completed so many cycles, each at its tick. -/
def onTime (p : Poller) (j : Nat) : Loop where
  now := j*p.config.interval
  ticker := ⟨p.config.interval,(j+1)*p.config.interval⟩
  cycles := .ofNat j
  state := p.after (p.config.ticks j)

variable (p : Poller) (timer : Timer) (c? : Option Nat) (tie : Bool) (j : Nat)

theorem taken_onTime : (onTime p j).ticker.taken (onTime p j).now=(j+1)*p.config.interval := by
  apply Nat.max_eq_right
  exact Nat.mul_le_mul_right _ (Nat.le_succ j)

theorem call_onTime : (onTime p j).call p=
    p.cycle ((j+1)*p.config.interval) (p.after (p.config.ticks j)) := by
  rw [call,taken_onTime]
  rfl

theorem advance_onTime : (onTime p j).advance p (.prompt timer c? tie)
    ⟨p.config.interval,(j+2)*p.config.interval⟩=onTime p (j+1) := by
  unfold advance
  rw [call_onTime,←after_concat,←Config.ticks_succ,taken_onTime]
  simp [onTime,Timeline.prompt,Timeline.quiet]

variable {p timer c? j}

theorem advance?_onTime (pace : timer.KeepsPace) (told : (j+2)*p.config.interval≤timer.farthest) :
    (onTime p j).ticker.advance? timer (onTime p j).now=
      some ⟨p.config.interval,(j+2)*p.config.interval⟩ := by
  have after : (j+2)*p.config.interval=(j+1)*p.config.interval+p.config.interval :=
    Nat.succ_mul (j+1) _
  unfold Ticker.advance?
  rw [taken_onTime,after]
  rw [after] at told
  exact congrArg (Option.map _) (pace p.config.interval ((j+1)*p.config.interval) told)

/-- A run on time is stopped in the period in which it is cancelled. -/
theorem isStopped_onTime_iff (hp : p.config.interval≠0)
    (apart : ∀ c,c?=some c → ¬p.config.interval∣c) :
    (onTime p j).isStopped (.prompt timer c? tie)=true ↔
      ∃ c,c?=some c ∧ c/p.config.interval≤j := by
  have within (c : Nat) : c/p.config.interval≤j ↔ c<(j+1)*p.config.interval := by
    rw [←Nat.lt_succ_iff]
    exact Nat.div_lt_iff_lt_mul (Nat.pos_of_ne_zero hp)
  constructor
  · intro stopped
    have cancelled := isCancelled_of_isStopped stopped
    rw [taken_onTime,Timeline.isCancelled_iff] at cancelled
    obtain before | ⟨c,hc,hle⟩ | ⟨n,hn,-⟩ := cancelled
    · cases before
    · have hne : c≠(j+1)*p.config.interval := by
        rintro rfl
        exact apart _ hc (Nat.dvd_mul_left _ _)
      exact ⟨c,hc,(within c).mpr (by omega)⟩
    · cases hn
  · rintro ⟨c,hc,hle⟩
    have hlt := (within c).mp hle
    have interrupted : (Timeline.prompt timer c? tie).interrupts ((j+1)*p.config.interval)=true := by
      change c?.any _=true
      rw [hc,Option.any_some]
      split
      · exact decide_eq_true hlt
      · exact decide_eq_true hlt.le
    rw [isStopped,taken_onTime,interrupted,Bool.or_true]

section

variable {k : Nat} (hp : p.config.interval≠0) (apart : ∀ c,c?=some c → ¬p.config.interval∣c)
  (allots : p.config.Allots c? k) (word : k<UInt64.size)

include allots word

theorem atLimit_onTime (hj : j<k) : (onTime p j).atLimit p.config=false := by
  unfold atLimit
  cases limit : p.config.iterations with
  | none => rfl
  | some n =>
    have hn := allots.withinLimit n limit
    have cycles : (UInt64.ofNat j).toNat=j := UInt64.toNat_ofNat_of_lt' (hj.trans word)
    rw [Option.any_some,decide_eq_false_iff_not,UInt64.le_iff_toNat_le]
    change ¬n.toNat≤(UInt64.ofNat j).toNat
    omega

include hp apart

omit word in
theorem isStopped_onTime (hj : j<k) :
    (onTime p j).isStopped (.prompt timer c? tie)=false := by
  rw [←Bool.not_eq_true,isStopped_onTime_iff tie hp apart]
  rintro ⟨c,hc,hle⟩
  have hk := allots.withinTime c hc
  omega

variable (pace : timer.KeepsPace) (told : (k+1)*p.config.interval≤timer.farthest)

include pace told

theorem step_onTime (hj : j<k) : (onTime p j).step p (.prompt timer c? tie)=
    match (p.cycle ((j+1)*p.config.interval) (p.after (p.config.ticks j))).2 with
    | some e => .inl ⟨.returned (.error e),p.after (p.config.ticks (j+1))⟩
    | none => .inr (onTime p (j+1)) := by
  have cycles : (UInt64.ofNat j).toNat=j := UInt64.toNat_ofNat_of_lt' (hj.trans word)
  have room : (onTime p j).cycles.toNat+1<UInt64.size := by
    change (UInt64.ofNat j).toNat+1<_
    omega
  have next : (j+2)*p.config.interval≤timer.farthest :=
    (Nat.mul_le_mul_right _ (by omega)).trans told
  have tick := advance?_onTime pace next
  rw [step_eq,atLimit_onTime allots word hj,isStopped_onTime tie hp apart allots hj]
  have same : (Timeline.prompt timer c? tie).timer=timer := rfl
  rw [same,tick,Config.ticks_succ,after_concat]
  cases fault : (p.cycle ((j+1)*p.config.interval) (p.after (p.config.ticks j))).2 <;>
    simp [call_onTime,fault,room,advance_onTime]

theorem reachable_onTime (hj : j≤k) (ok : p.Succeeds (p.config.ticks j)) :
    Reachable p (.prompt timer c? tie) (onTime p j) := by
  induction j with
  | zero =>
    apply Reachable.start
    have first := (Nat.le_mul_of_pos_left p.config.interval (Nat.succ_pos k)).trans told
    refine start?_eq_some_iff.mpr ⟨?_,first⟩
    simp [onTime,Config.ticks,after]
  | succ j ih =>
    rw [Config.ticks_succ,succeeds_concat] at ok
    have reach := ih (by omega) ok.1
    have step := step_onTime tie hp apart allots word pace told hj
    rw [ok.2] at step
    exact reach.next step

omit pace told

theorem step_allotted : (onTime p k).step p (.prompt timer c? tie)=
    .inl ((onTime p k).stop (.returned (.ok (p.config.exitAt (.ofNat k))))) := by
  rw [step_eq]
  by_cases limit : p.config.iterations=some (.ofNat k)
  · have atLimit : (onTime p k).atLimit p.config=true := by
      unfold atLimit
      rw [limit]
      exact decide_eq_true (UInt64.le_iff_toNat_le.mpr (Nat.le_refl _))
    rw [atLimit,Config.exitAt,if_pos limit]
    rfl
  · have cycles : (UInt64.ofNat k).toNat=k := UInt64.toNat_ofNat_of_lt' word
    have open_ended := mt (allots.iterations_eq_iff word).mpr limit
    obtain ⟨c,hc,hk⟩ := allots.tight.resolve_left open_ended
    have stopped : (onTime p k).isStopped (.prompt timer c? tie)=true :=
      (isStopped_onTime_iff tie hp apart).mpr ⟨c,hc,hk.le⟩
    have notAtLimit : (onTime p k).atLimit p.config=false := by
      unfold atLimit
      cases other : p.config.iterations with
      | none => rfl
      | some n =>
        have hle := allots.withinLimit n other
        have hne : n.toNat≠k := fun h => open_ended ⟨n,other,h⟩
        rw [Option.any_some,decide_eq_false_iff_not,UInt64.le_iff_toNat_le]
        change ¬n.toNat≤(UInt64.ofNat k).toNat
        omega
    rw [notAtLimit,stopped,Config.exitAt,if_neg limit]
    rfl

end
end Loop

theorem run_of_ends {p : Poller} {t : Timeline} {o : Outcome} (ends : Ends p t o)
    (word : o.state.visits.length≤UInt64.size) : p.run t=.ended o :=
  ends allRounds (by unfold allRounds; omega)

theorem Config.Allots.exitAt_eq {config : Config} {c? : Option Nat} {k : Nat}
    (allots : config.Allots c? k) (word : k<UInt64.size) :
    (∀ n,config.iterations=some n → (∀ c,c?=some c → n.toNat≤c/config.interval) →
      config.exitAt (.ofNat k)=.completed n) ∧
    ∀ c,c?=some c → (∀ n,config.iterations=some n → c/config.interval<n.toNat) →
      config.exitAt (.ofNat k)=.cancelled (.ofNat (c/config.interval)) := by
  constructor
  · intro n hn inTime
    have hk : n.toNat=k := by
      have hle := allots.withinLimit n hn
      rcases allots.tight with ⟨n',hn',hk⟩ | ⟨c,hc,hck⟩
      · rw [hn] at hn'
        cases hn'
        exact hk
      · have hge := inTime c hc
        omega
    rw [←hk,UInt64.ofNat_toNat,Config.exitAt,if_pos hn]
  · intro c hc below
    have hle := allots.withinTime c hc
    have open_ended : ¬∃ n,config.iterations=some n ∧ n.toNat=k := by
      rintro ⟨n,hn,hk⟩
      have hlt := below n hn
      omega
    obtain ⟨c',hc',hk⟩ := allots.tight.resolve_left open_ended
    cases hc.symm.trans hc'
    rw [Config.exitAt,if_neg (mt (allots.iterations_eq_iff word).mp open_ended),hk]

/-- A run without delays, with a limit, a time at which it is cancelled in the course of a period,
or both, and as many cycles allotted to it as these leave. The timer keeps pace and can tell all
ticks up to the one behind the last cycle. If the cycles all succeed, the run visits its source at
that many ticks, reports on each pass, and ends as completed if the limit is no more than the whole
periods before the cancellation, else as cancelled. If a cycle before that fails, the run visits its
source at the ticks up to this one and ends with its error. -/
theorem run_keeps_time (p : Poller) (timer : Timer) (pace : timer.KeepsPace) (c? : Option Nat)
    (tie : Bool) (hp : p.config.interval≠0) (apart : ∀ c,c?=some c → ¬p.config.interval∣c)
    {k : Nat} (hk : p.config.allotted c?=some k) (word : k<UInt64.size)
    (told : (k+1)*p.config.interval≤timer.farthest) :
    let t := Timeline.prompt timer c? tie
    (p.Succeeds (p.config.ticks k) → ∃ exit s,
      p.run t=.ended ⟨.returned (.ok exit),s⟩ ∧
      s.visits=(List.range k).map (fun i => ((i+1)*p.config.interval,p.source i)) ∧
      p.Reported k s.sink ∧
      (∀ n,p.config.iterations=some n → (∀ c,c?=some c → n.toNat≤c/p.config.interval) →
        exit=.completed n) ∧
      ∀ c,c?=some c → (∀ n,p.config.iterations=some n → c/p.config.interval<n.toNat) →
        exit=.cancelled (.ofNat (c/p.config.interval))) ∧
    ∀ f<k,p.Succeeds (p.config.ticks f) → ∀ e,
      (p.cycle ((f+1)*p.config.interval) (p.after (p.config.ticks f))).2=some e → ∃ s,
        p.run t=.ended ⟨.returned (.error e),s⟩ ∧
        s.visits=(List.range (f+1)).map fun i => ((i+1)*p.config.interval,p.source i) := by
  intro t
  have allots := Config.allots hk
  constructor
  · intro ok
    have reach := Loop.reachable_onTime tie hp apart allots word pace told (Nat.le_refl k) ok
    have ends := ends_of_step hp reach (Loop.step_allotted tie hp apart allots word)
    have visits := p.visits_ticks k
    have reported := reported_after ok
    rw [Config.length_ticks] at reported
    refine ⟨p.config.exitAt (.ofNat k),p.after (p.config.ticks k),run_of_ends ends ?_,visits,
      reported,allots.exitAt_eq word⟩
    change (p.after (p.config.ticks k)).visits.length≤_
    rw [length_visits_after,Config.length_ticks]
    exact word.le
  · intro f hf ok e fault
    have reach := Loop.reachable_onTime tie hp apart allots word pace told hf.le ok
    have step := Loop.step_onTime tie hp apart allots word pace told hf
    rw [fault] at step
    refine ⟨p.after (p.config.ticks (f+1)),run_of_ends (ends_of_step hp reach step) ?_,
      p.visits_ticks (f+1)⟩
    rw [length_visits_after,Config.length_ticks]
    omega

/-- Five seconds between cycles, and a cancellation after eleven: two visits, and then the run is
over although its limit is three. -/
theorem run_keeps_time_until_cancelled :
    let p : Poller := ⟨⟨5000,some 3,.sum,.standard,false⟩,fun _ => .empty,
      .limited ⟨some 4,none,.takes 0,1,none⟩,fun _ => ""⟩
    Timer.standard.KeepsPace ∧ p.config.interval≠0 ∧ ¬p.config.interval∣11000 ∧
      p.config.allotted (some 11000)=some 2 ∧ 3*p.config.interval≤Timer.standard.farthest ∧
      p.Succeeds (p.config.ticks 2) ∧ ∃ s,
        p.run (.prompt .standard (some 11000) true)=.ended ⟨.returned (.ok (.cancelled 2)),s⟩ ∧
        s.visits=[(5000,.empty),(10000,.empty)] := by
  intro p
  have pace : Timer.standard.KeepsPace := Timer.keepsPace_delaying _
  have hp : p.config.interval≠0 := by decide
  have between : ¬p.config.interval∣11000 := by decide
  have apart : ∀ c,some 11000=some c → ¬p.config.interval∣c := by
    rintro c ⟨⟩
    exact between
  have hk : p.config.allotted (some 11000)=some 2 := by decide
  have told : 3*p.config.interval≤Timer.standard.farthest := by decide
  have ok : p.Succeeds (p.config.ticks 2) := by
    have faults : (p.cycles (p.config.ticks 2) .initial).map Prod.snd=[none,none] := by cbv
    intro c hc
    have fault : c.2∈[none,none] := faults ▸ List.mem_map_of_mem hc
    simpa using fault
  obtain ⟨exit,s,ended,visits,-,-,cancelled⟩ :=
    (run_keeps_time p .standard pace (some 11000) true hp apart hk (by decide) told).1 ok
  have stops : exit=.cancelled (.ofNat (11000/p.config.interval)) := by
    apply cancelled 11000 rfl
    rintro n ⟨⟩
    decide
  have twice : UInt64.ofNat (11000/p.config.interval)=2 := by decide
  rw [stops,twice] at ended
  exact ⟨pace,hp,between,hk,told,ok,s,ended,visits⟩

/-- Without a first tick that the clock can tell, a run does not come to the end of its limit. -/
theorem no_time_beyond_clock :
    let p : Poller := ⟨⟨18446744073709551615000,some 0,.sum,.standard,false⟩,fun _ => .empty,
      .limited ⟨none,none,.takes 0,0,none⟩,fun _ => ""⟩
    Timer.standard.KeepsPace ∧ p.config.interval≠0 ∧ p.config.allotted none=some 0 ∧
      p.Succeeds (p.config.ticks 0) ∧
      p.run (.prompt .standard none false)=.ended ⟨.aborted .beyondClock,.initial⟩ ∧
      ∀ s,p.run (.prompt .standard none false)≠.ended ⟨.returned (.ok (.completed 0)),s⟩ := by
  intro p
  have hp : p.config.interval≠0 := by decide
  have untold : (Timeline.prompt .standard none false).timer.farthest<p.config.interval := by
    decide
  have aborted := runFor_of_untold hp allRounds untold
  refine ⟨Timer.keepsPace_delaying _,hp,by decide,by nofun,aborted,?_⟩
  intro s completed
  cases aborted.symm.trans completed

end SchedLatency.Poller
