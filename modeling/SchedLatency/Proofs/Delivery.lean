import SchedLatency.Proofs.Collecting
import SchedLatency.Report

namespace SchedLatency

/-- The pass ends well and has not lost its source on the way. -/
structure Pass.Intact (p : Pass) : Prop where
  ended : p.failure=none
  kept : ∀ reason,.fault (.unavailable reason)∉p.records

namespace Snapshot

theorem firstLoss?_eq_none {records : List Record}
    (h : ∀ reason,.fault (.unavailable reason)∉records) : firstLoss? records=none := by
  apply List.findSome?_eq_none_iff.mpr
  intro r hr
  cases r with
  | sample x => rfl
  | fault e =>
    cases e with
    | unavailable reason => exact absurd hr (h reason)
    | malformedRecord reason => rfl

theorem outcome_of_intact (order : Enumeration) (policy : DuplicatePolicy) {p : Pass}
    (h : p.Intact) :
    (buildIn order policy p).outcome=.ok (ofRecordsIn order policy p.records) := by
  rw [outcome_buildIn,h.ended,firstLoss?_eq_none h.kept]
  rfl

def readable (records : List Record) : List Record := records.filter fun r => r.malformed?.isNone

theorem samples_readable (records : List Record) : samples (readable records)=samples records := by
  unfold samples readable
  rw [List.filterMap_filter]
  apply congrArg (List.filterMap · records)
  funext r
  cases r with
  | sample x => rfl
  | fault e => split <;> rfl

end Snapshot

theorem Report.render_congr {s t : Snapshot} (h : s.histograms=t.histograms)
    (options : Report.Options) : Report.render s options=Report.render t options := by
  cases s
  cases t
  cases h
  rfl

namespace Snapshot

/-- Two intact passes that deliver the same records in any order give the same snapshot and the
same reports, and two that differ by malformed records alone still the same histograms and
reports, however their tallies are enumerated. -/
theorem buildIn_order_independent (order order' : Enumeration) (policy : DuplicatePolicy)
    {p q : Pass} (hp : p.Intact) (hq : q.Intact) :
    ∃ s t,(buildIn order policy p).outcome=.ok s ∧ (buildIn order' policy q).outcome=.ok t ∧
      (p.records.Perm q.records →
        s=t ∧ ∀ options,Report.render s options=Report.render t options) ∧
      ((readable p.records).Perm (readable q.records) →
        s.histograms=t.histograms ∧ ∀ options,Report.render s options=Report.render t options) := by
  refine ⟨_,_,outcome_of_intact order policy hp,outcome_of_intact order' policy hq,?_,?_⟩
  · intro h
    have same := ofRecordsIn_perm order order' policy h
    exact ⟨same,fun options => congrArg (Report.render · options) same⟩
  · intro h
    have samples : (samples p.records).Perm (samples q.records) := by
      rw [←samples_readable p.records,←samples_readable q.records]
      exact h.filterMap Record.sample?
    have same := histograms_ofRecordsIn_perm order order' policy samples
    exact ⟨same,Report.render_congr same⟩

/-- A pass with a repeated key and a malformed record, the same one backwards, and the one without
the malformed record; the tallies are enumerated backwards as well. -/
theorem buildIn_order_independent_reversed :
    let p : Pass := ⟨[.sample ⟨7,3,10⟩,.fault (.malformedRecord "short read"),.sample ⟨42,1,2⟩,
      .sample ⟨7,3,5⟩],none⟩
    let q : Pass := ⟨p.records.reverse,none⟩
    let r : Pass := ⟨readable p.records,none⟩
    let backwards : Enumeration := ⟨List.reverse,List.reverse_perm⟩
    p.Intact ∧ q.Intact ∧ r.Intact ∧ p.records≠q.records ∧ p.records≠r.records ∧
      (∃ s t,(buildIn .firstSeen .sum p).outcome=.ok s ∧
        (buildIn backwards .sum q).outcome=.ok t ∧
          s=t ∧ ∀ options,Report.render s options=Report.render t options) ∧
      ∃ s t,(buildIn .firstSeen .keep p).outcome=.ok s ∧
        (buildIn backwards .keep r).outcome=.ok t ∧ s.histograms=t.histograms ∧
          ∀ options,Report.render s options=Report.render t options := by
  intro p q r backwards
  have hp : p.Intact := ⟨rfl,by simp [p]⟩
  have hq : q.Intact := ⟨rfl,by simp [p,q]⟩
  have hr : r.Intact := ⟨rfl,by simp [p,r,readable]⟩
  have perm : p.records.Perm q.records := (List.reverse_perm p.records).symm
  have readable_perm : (readable p.records).Perm (readable r.records) := .of_eq rfl
  obtain ⟨s,t,hs,ht,same,-⟩ := buildIn_order_independent .firstSeen backwards .sum hp hq
  obtain ⟨s',t',hs',ht',-,same'⟩ := buildIn_order_independent .firstSeen backwards .keep hp hr
  exact ⟨hp,hq,hr,by decide,by decide,⟨s,t,hs,ht,same perm⟩,s',t',hs',ht',same' readable_perm⟩

end Snapshot
end SchedLatency
