import SchedLatency.Proofs.FloorSlot
import SchedLatency.Proofs.Grouping

namespace SchedLatency.Snapshot

theorem mem_buckets_sum (order : Enumeration) (xs : List Sample) (id : EntityId) (b : Bucket) :
    (id,b)∈buckets order .sum xs ↔
      (∃ x∈xs,x.key=(id,b.slot)) ∧ b.count=Counter.clamp (observed (·==(id,b.slot)) xs) := by
  rw [←mem_tallyOf,←(order.perm (tallyOf xs)).mem_iff]
  simp only [buckets,List.mem_map]
  constructor
  · rintro ⟨e,he,heq⟩
    cases heq
    exact he
  · intro h
    exact ⟨_,h,rfl⟩

theorem mem_buckets_keep (order : Enumeration) (xs : List Sample) (id : EntityId) (b : Bucket) :
    (id,b)∈buckets order .keep xs ↔ ∃ x∈xs,x.entity=id ∧ x.bucket=b := by
  simp [buckets]

/-- Either policy gives buckets to exactly the entities that have samples. -/
theorem bucketsAt_ne_nil_iff (order : Enumeration) (policy : DuplicatePolicy) (xs : List Sample)
    (id : EntityId) : bucketsAt id (buckets order policy xs)≠[] ↔ ∃ x∈xs,x.entity=id := by
  constructor
  · intro hne
    obtain ⟨b,hb⟩ := List.exists_mem_of_ne_nil _ hne
    rw [mem_bucketsAt] at hb
    cases policy with
    | sum =>
      obtain ⟨⟨x,hx,hkey⟩,_⟩ := (mem_buckets_sum order xs id b).mp hb
      exact ⟨x,hx,congrArg Prod.fst hkey⟩
    | keep =>
      obtain ⟨x,hx,hid,_⟩ := (mem_buckets_keep order xs id b).mp hb
      exact ⟨x,hx,hid⟩
  · rintro ⟨x,hx,rfl⟩
    cases policy with
    | sum =>
      let c := Counter.clamp (observed (·==x.key) xs)
      have hb : (x.entity,⟨x.slot,c⟩)∈buckets order .sum xs :=
        (mem_buckets_sum order xs x.entity ⟨x.slot,c⟩).mpr ⟨⟨x,hx,rfl⟩,rfl⟩
      exact List.ne_nil_of_mem (mem_bucketsAt.mpr hb)
    | keep =>
      have hb : (x.entity,x.bucket)∈buckets order .keep xs :=
        (mem_buckets_keep order xs x.entity x.bucket).mpr ⟨x,hx,rfl,rfl⟩
      exact List.ne_nil_of_mem (mem_bucketsAt.mpr hb)

theorem mem_ids_ofRecordsIn (order : Enumeration) (policy : DuplicatePolicy)
    (records : List Record) (id : EntityId) :
    id∈(ofRecordsIn order policy records).histograms.ids ↔
      ∃ x∈samples records,x.entity=id := by
  rw [EntityMap.mem_ids_iff,←bucketsAt_ne_nil_iff order policy]
  change (∃ h,(ofRecordsIn order policy records).get? id=some h) ↔ _
  rw [get?_ofRecordsIn]
  split
  · rename_i hnil
    simp [hnil]
  · rename_i hne
    simp [hne]

theorem get?_ofRecordsIn_some {order : Enumeration} {policy : DuplicatePolicy}
    {records : List Record} {id : EntityId} {h : Histogram}
    (hget : (ofRecordsIn order policy records).get? id=some h) :
    h.buckets≠[] ∧ h.buckets.Pairwise (fun a b => a.le b=true) ∧
      h.buckets.Perm (bucketsAt id (buckets order policy (samples records))) := by
  rw [get?_ofRecordsIn] at hget
  split at hget
  · cases hget
  · rename_i hne
    cases hget
    have perm := Histogram.sort_perm ⟨bucketsAt id (buckets order policy (samples records))⟩
    refine ⟨?_,Histogram.sort_pairwise _,perm⟩
    intro hnil
    exact hne (hnil ▸ perm).symm.eq_nil

theorem sorted_ofRecordsIn {order : Enumeration} {policy : DuplicatePolicy}
    {records : List Record} {id : EntityId} {h : Histogram}
    (hget : (ofRecordsIn order policy records).get? id=some h) : h.Sorted := by
  apply (get?_ofRecordsIn_some hget).2.1.imp
  intro a b hle
  rw [Bucket.le_iff] at hle
  rw [UInt64.le_iff_toNat_le]
  omega

/-- Different buckets of an entity's tally belong to different slots. -/
theorem nodup_slots_sum (order : Enumeration) (xs : List Sample) (id : EntityId) :
    (bucketsAt id (buckets order .sum xs)).Pairwise (fun a b => a.slot≠b.slot) := by
  have keys : (order.arrange (tallyOf xs)).Pairwise (fun e e' => e.1≠e'.1) := by
    apply (order.perm _).symm.pairwise (List.pairwise_map.mp (nodup_tallyOf xs))
    intro e e' h
    exact Ne.symm h
  unfold bucketsAt buckets
  apply List.pairwise_map.mpr
  rw [List.pairwise_filter]
  apply List.pairwise_map.mpr
  apply keys.imp
  intro e e' hne hid hid' hslot
  apply hne
  exact Prod.ext ((eq_of_beq hid).trans (eq_of_beq hid').symm) hslot

theorem slots_ascending_of_nodup {bs : List Bucket}
    (sorted : bs.Pairwise (fun a b => a.le b=true))
    (nodup : bs.Pairwise (fun a b => a.slot≠b.slot)) :
    bs.Pairwise (fun a b => a.slot<b.slot) := by
  apply (sorted.and nodup).imp
  rintro a b ⟨hle,hne⟩
  rw [Bucket.le_iff] at hle
  rw [UInt64.lt_iff_toNat_lt]
  rcases hle with hlt | ⟨heq,_⟩
  · exact hlt
  · exact absurd (UInt64.toNat_inj.mp heq) hne

/-- Under the summing policy a snapshot is the group-by of its samples: the entities with samples
in ascending order, and for each of them one bucket per observed slot with the clamped sum of all
counts. No enumeration of the tally shows in it. -/
theorem ofRecordsIn_sum_groups (order : Enumeration) (records : List Record) :
    let s := ofRecordsIn order .sum records
    s.histograms.ids.Pairwise (·<·) ∧
    (∀ id,id∈s.histograms.ids ↔ ∃ x∈samples records,x.entity=id) ∧
    (∀ id h,(id,h)∈s.histograms.entries →
      s.get? id=some h ∧ h.buckets≠[] ∧ h.buckets.Pairwise (fun a b => a.slot<b.slot) ∧
      ∀ slot count,⟨slot,count⟩∈h.buckets ↔
        (∃ x∈samples records,x.entity=id ∧ x.slot=slot) ∧
          count.toNat=min Counter.limit (observed (·==(id,slot)) (samples records))) ∧
    s.skipped=(faults records).length := by
  intro s
  refine ⟨s.histograms.ascending,mem_ids_ofRecordsIn order .sum records,?_,
    skipped_ofRecordsIn order .sum records⟩
  intro id h hmem
  have hget : s.get? id=some h := (s.histograms.get?_eq_some_iff_mem id h).mpr hmem
  obtain ⟨hne,sorted,perm⟩ := get?_ofRecordsIn_some hget
  have nodup := perm.symm.pairwise (nodup_slots_sum order (samples records) id)
    (fun h => Ne.symm h)
  refine ⟨hget,hne,slots_ascending_of_nodup sorted nodup,?_⟩
  intro slot count
  rw [perm.mem_iff,mem_bucketsAt,mem_buckets_sum,←UInt64.toNat_inj,Counter.toNat_clamp]
  simp only [Sample.key,Prod.mk.injEq]

end SchedLatency.Snapshot
