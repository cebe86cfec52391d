import SchedLatency.Report

namespace SchedLatency

namespace Snapshot

theorem get?_restrict (s : Snapshot) (id k : EntityId) :
    (s.restrict id).get? k=if k=id then s.get? k else none := by
  unfold restrict get?
  rw [EntityMap.get?_filterIds]
  simp

theorem restrict_congr {s t : Snapshot} {id : EntityId} (h : s.get? id=t.get? id) :
    (s.restrict id).histograms=(t.restrict id).histograms := by
  apply EntityMap.ext_get?
  intro k
  change (s.restrict id).get? k=(t.restrict id).get? k
  rw [get?_restrict,get?_restrict]
  by_cases hk : k=id
  · rw [hk,h]
  · rw [if_neg hk,if_neg hk]

theorem isEmpty_of_get? {s : Snapshot} {id : EntityId} {h : Histogram} (hs : s.get? id=some h) :
    s.isEmpty=false := by
  have there := (s.histograms.get?_eq_some_iff_mem id h).mp hs
  rw [isEmpty,List.isEmpty_eq_false_iff]
  exact List.ne_nil_of_mem there

end Snapshot

namespace Report

theorem selected_some (s : Snapshot) (id : EntityId) :
    selected s (some id)=(s.restrict id).histograms.entries := by
  apply List.filter_congr
  intro e _
  exact BEq.comm

/-- A report shows nothing of a snapshot but the entities that its filter selects. -/
theorem render_of_selected {s t : Snapshot} {options : Options} {pid : Option EntityId}
    (hs : s.isEmpty=false) (ht : t.isEmpty=false) (h : selected s options.pid=selected t pid) :
    render s options=render t {options with pid := pid} := by
  have same : sections s options=sections t {options with pid := pid} := by
    unfold sections histograms percentileTable p99Table
    rw [h]
  unfold render
  rw [hs,ht,same]

/-- A report restricted to one entity is the same for any two non-empty snapshots that agree on this
entity. If they have it, the report is the unrestricted one on the snapshot of this entity alone. -/
theorem render_pid_isolated {options : Options} {id : EntityId} (hpid : options.pid=some id)
    {s t : Snapshot} (hs : s.isEmpty=false) (ht : t.isEmpty=false) (h : s.get? id=t.get? id) :
    render s options=render t options ∧
    ((s.get? id).isSome=true →
      render s options=render (s.restrict id) {options with pid := none}) := by
  constructor
  · have same : selected s options.pid=selected t options.pid := by
      rw [hpid,selected_some,selected_some,Snapshot.restrict_congr h]
    exact render_of_selected hs ht same
  · intro there
    obtain ⟨k,hk⟩ := Option.isSome_iff_exists.mp there
    have alone : (s.restrict id).get? id=some k := by
      rw [Snapshot.get?_restrict,if_pos rfl,hk]
    have same : selected s options.pid=selected (s.restrict id) none := by
      rw [hpid,selected_some,selected_none]
    exact render_of_selected hs (Snapshot.isEmpty_of_get? alone) same

/-- Entity 20 beside entity 10 and beside entity 30, in a report with all three sections. -/
theorem render_pid_isolated_beside_others :
    let h : Histogram := ⟨[⟨1,5⟩,⟨3,2⟩]⟩
    let s : Snapshot := ⟨⟨[(10,⟨[⟨0,1⟩]⟩),(20,h)],by decide⟩,0⟩
    let t : Snapshot := ⟨⟨[(20,h),(30,⟨[]⟩)],by decide⟩,7⟩
    let options : Options := ⟨some 20,.log2,true,[50,99.9],true⟩
    options.pid=some 20 ∧ s.isEmpty=false ∧ t.isEmpty=false ∧ s.get? 20=t.get? 20 ∧
      (s.get? 20).isSome=true ∧ s≠t ∧ render s options=render t options ∧
      render s options=render (s.restrict 20) {options with pid := none} := by
  intro h s t options
  have agree : s.get? 20=t.get? 20 := by decide
  have there : (s.get? 20).isSome=true := by decide
  obtain ⟨same,alone⟩ := @render_pid_isolated options 20 rfl s t rfl rfl agree
  exact ⟨rfl,rfl,rfl,agree,there,by decide,same,alone there⟩

end Report
end SchedLatency
