import SchedLatency.Proofs.Coverage

namespace SchedLatency

namespace Snapshot

theorem sameProfile_of_get? {order order' : Enumeration} {records : List Record} {id : EntityId}
    {h k : Histogram} (hh : (ofRecordsIn order .sum records).get? id=some h)
    (hk : (ofRecordsIn order' .keep records).get? id=some k) : h.SameProfile k := by
  obtain ⟨-,-,hperm⟩ := get?_ofRecordsIn_some hh
  obtain ⟨-,-,kperm⟩ := get?_ofRecordsIn_some hk
  constructor
  · intro v
    unfold Histogram.slots
    rw [(hperm.map Bucket.slot).mem_iff,(kperm.map Bucket.slot).mem_iff]
    simp only [List.mem_map,mem_bucketsAt,mem_buckets_sum,mem_buckets_keep]
    constructor
    · rintro ⟨b,⟨⟨x,hx,hkey⟩,-⟩,rfl⟩
      exact ⟨x.bucket,⟨x,hx,congrArg Prod.fst hkey,rfl⟩,congrArg Prod.snd hkey⟩
    · rintro ⟨b,⟨x,hx,rfl,rfl⟩,rfl⟩
      let sum := Counter.clamp (observed (·==x.key) (samples records))
      exact ⟨⟨x.slot,sum⟩,⟨⟨x,hx,rfl⟩,rfl⟩,rfl⟩
  · intro v
    unfold Histogram.upTo
    have hcounts := observations_buckets_sum order (samples records) id (·≤v)
    have kcounts := observations_buckets_keep order' (samples records) id (·≤v)
    rw [Bucket.observations_perm (hperm.filter _),Bucket.observations_perm (kperm.filter _),
      hcounts,kcounts]

/-- What only depends on the profile of a sorted histogram is the same under both policies. -/
theorem mapValues_policy_eq {β : Type} {f : Histogram → β} (order order' : Enumeration)
    (records : List Record)
    (hf : ∀ h k,h.SameProfile k → h.Sorted → k.Sorted → h.buckets≠[] → f h=f k) :
    (ofRecordsIn order .sum records).histograms.mapValues f=
      (ofRecordsIn order' .keep records).histograms.mapValues f := by
  apply EntityMap.ext_get?
  intro id
  rw [EntityMap.get?_mapValues,EntityMap.get?_mapValues]
  have hids := mem_ids_ofRecordsIn order .sum records id
  have kids := mem_ids_ofRecordsIn order' .keep records id
  rw [EntityMap.mem_ids_iff] at hids kids
  cases hh : (ofRecordsIn order .sum records).histograms.get? id with
  | none =>
    cases hk : (ofRecordsIn order' .keep records).histograms.get? id with
    | none => rfl
    | some k =>
      obtain ⟨h,hh'⟩ := hids.mpr (kids.mp ⟨k,hk⟩)
      rw [hh] at hh'
      cases hh'
  | some h =>
    obtain ⟨k,hk⟩ := kids.mpr (hids.mp ⟨h,hh⟩)
    rw [hk]
    exact congrArg some (hf h k (sameProfile_of_get? hh hk) (sorted_ofRecordsIn hh)
      (sorted_ofRecordsIn hk) (get?_ofRecordsIn_some hh).1)

end Snapshot

namespace Report

theorem percentileTable_congr {s t : Snapshot}
    (h : s.histograms.mapValues (Histogram.estimate · .bucketFloor)=
      t.histograms.mapValues (Histogram.estimate · .bucketFloor))
    (percentiles : List Float) (pid : Option EntityId) :
    percentileTable s percentiles pid=percentileTable t percentiles pid := by
  have rows (s : Snapshot) : (selected s pid).map (percentileRow percentiles)=
      ((s.histograms.mapValues (Histogram.estimate · .bucketFloor)).entries.filter
        fun e => passes pid e.1).map
          fun e => entityCell e.1++concat (percentiles.map fun p => estimateCell (e.2 p)) := by
    unfold selected EntityMap.mapValues
    rw [List.filter_map,List.map_map]
    rfl
  unfold percentileTable
  rw [rows s,rows t,h]

end Report

/-- Summing and keeping give the same entities, skipped records, totals and bucket-floor estimates,
and so the same table of percentiles, however the tally is enumerated. -/
theorem ofRecordsIn_policies_agree (order order' : Enumeration) (records : List Record) :
    let s := Snapshot.ofRecordsIn order .sum records
    let k := Snapshot.ofRecordsIn order' .keep records
    s.histograms.ids=k.histograms.ids ∧ s.skipped=k.skipped ∧
    (∀ id,(s.get? id).map Histogram.total=(k.get? id).map Histogram.total) ∧
    (∀ id percentile,(s.get? id).map (·.estimate .bucketFloor percentile)=
      (k.get? id).map (·.estimate .bucketFloor percentile)) ∧
    ∀ percentiles pid,
      Report.percentileTable s percentiles pid=Report.percentileTable k percentiles pid := by
  intro s k
  have totals : s.histograms.mapValues Histogram.total=k.histograms.mapValues Histogram.total :=
    Snapshot.mapValues_policy_eq order order' records fun _ _ profile _ _ _ => profile.total_eq
  have estimates : s.histograms.mapValues (Histogram.estimate · .bucketFloor)=
      k.histograms.mapValues (Histogram.estimate · .bucketFloor) :=
    Snapshot.mapValues_policy_eq order order' records fun _ _ profile hs ks hne =>
      funext fun p => profile.estimate_eq hs ks hne p
  refine ⟨?_,?_,?_,?_,Report.percentileTable_congr estimates⟩
  · rw [←EntityMap.ids_mapValues s.histograms Histogram.total,totals,EntityMap.ids_mapValues]
  · exact (Snapshot.skipped_ofRecordsIn ..).trans (Snapshot.skipped_ofRecordsIn ..).symm
  · intro id
    unfold Snapshot.get?
    rw [←EntityMap.get?_mapValues,totals,EntityMap.get?_mapValues]
  · intro id percentile
    have at_id := congrArg (fun m => (m.get? id).map (· percentile)) estimates
    simp only [EntityMap.get?_mapValues,Option.map_map] at at_id
    exact at_id

end SchedLatency
