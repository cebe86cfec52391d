import SchedLatency.Proofs.Buckets

namespace SchedLatency.Snapshot

def listing (m : EntityMap Histogram) : List (EntityId×Bucket) :=
  m.entries.flatMap fun e => e.2.buckets.map (e.1,·)

theorem alterList_push_perm (id : EntityId) (b : Bucket) (es : List (EntityId×Histogram)) :
    ((EntityMap.alterList id (fun h => (h.getD .empty).push b) es).flatMap
      fun e => e.2.buckets.map (e.1,·)).Perm
        ((id,b) :: es.flatMap fun e => e.2.buckets.map (e.1,·)) := by
  induction es with
  | nil => exact .refl _
  | cons e es ih =>
    obtain ⟨k,h⟩ := e
    unfold EntityMap.alterList
    split
    · exact .refl _
    · split
      · rename_i hid
        subst hid
        simp [Histogram.push,List.perm_middle]
      · rw [List.flatMap_cons,List.flatMap_cons]
        exact (ih.append_left _).trans List.perm_middle

theorem listing_pushBucket (m : EntityMap Histogram) (id : EntityId) (b : Bucket) :
    (listing (Grouping.pushBucket m id b)).Perm ((id,b) :: listing m) :=
  alterList_push_perm id b m.entries

theorem listing_pushAll (m : EntityMap Histogram) (es : List (EntityId×Bucket)) :
    (listing (pushAll m es)).Perm (es++listing m) := by
  induction es generalizing m with
  | nil => exact .refl _
  | cons e es ih =>
    have step := (listing_pushBucket m e.1 e.2).append_left es
    exact (ih (Grouping.pushBucket m e.1 e.2)).trans (step.trans List.perm_middle)

theorem listing_sort (m : EntityMap Histogram) :
    (listing (m.mapValues Histogram.sort)).Perm (listing m) := by
  unfold listing EntityMap.mapValues
  rw [List.flatMap_map]
  induction m.entries with
  | nil => exact .refl _
  | cons e es ih => exact ((Histogram.sort_perm e.2).map _).append ih

/-- Either policy lists the buckets that its samples come to, whatever their order. -/
theorem listing_ofRecordsIn (order : Enumeration) (policy : DuplicatePolicy)
    (records : List Record) :
    (listing (ofRecordsIn order policy records).histograms).Perm
      (buckets order policy (samples records)) := by
  rw [ofRecordsIn_eq]
  apply (listing_sort _).trans
  have all := listing_pushAll .empty (buckets order policy (samples records))
  have none : listing .empty=[] := rfl
  rwa [none,List.append_nil] at all

theorem bucketsAt_keep (order : Enumeration) (xs : List Sample) (id : EntityId) :
    bucketsAt id (buckets order .keep xs)=(xs.filter (·.entity==id)).map Sample.bucket := by
  simp [bucketsAt,buckets,List.filter_map,Function.comp_def]

theorem length_samples_add_faults (records : List Record) :
    (samples records).length+(faults records).length=records.length := by
  induction records with
  | nil => rfl
  | cons r records ih =>
    cases r with
    | sample x =>
      have hsamples : samples (.sample x :: records)=x :: samples records := rfl
      have hfaults : faults (.sample x :: records)=faults records := rfl
      rw [hsamples,hfaults,List.length_cons,List.length_cons]
      omega
    | fault e =>
      rw [samples_fault,faults_fault,List.length_cons,List.length_cons]
      omega

/-- Under the keeping policy a snapshot holds each sample once: the entities with samples, and for
each of them its samples as buckets, arranged by slot and count. The skipped records and the buckets
together are all the records. -/
theorem ofRecordsIn_keep_groups (order : Enumeration) (records : List Record) :
    let s := ofRecordsIn order .keep records
    (∀ id,id∈s.histograms.ids ↔ ∃ x∈samples records,x.entity=id) ∧
    (∀ id h,(id,h)∈s.histograms.entries →
      s.get? id=some h ∧ h.buckets≠[] ∧
      h.buckets.Perm (((samples records).filter (·.entity==id)).map Sample.bucket) ∧
      h.buckets.Pairwise (fun a b => a.slot<b.slot ∨ a.slot=b.slot ∧ a.count≤b.count)) ∧
    s.skipped=(faults records).length ∧
    (listing s.histograms).Perm ((samples records).map fun x => (x.entity,x.bucket)) ∧
    s.skipped+(listing s.histograms).length=records.length := by
  intro s
  have hskipped : s.skipped=(faults records).length := skipped_ofRecordsIn order .keep records
  have hlisting := listing_ofRecordsIn order .keep records
  refine ⟨mem_ids_ofRecordsIn order .keep records,?_,hskipped,hlisting,?_⟩
  · intro id h hmem
    have hget : s.get? id=some h := (s.histograms.get?_eq_some_iff_mem id h).mpr hmem
    obtain ⟨hne,sorted,perm⟩ := get?_ofRecordsIn_some hget
    rw [bucketsAt_keep] at perm
    refine ⟨hget,hne,perm,?_⟩
    apply sorted.imp
    intro a b hle
    rw [Bucket.le_iff] at hle
    rwa [UInt64.lt_iff_toNat_lt,UInt64.le_iff_toNat_le,←UInt64.toNat_inj]
  · have hlength : (listing s.histograms).length=(samples records).length := by
      rw [hlisting.length_eq]
      exact List.length_map _
    rw [hskipped,hlength,Nat.add_comm]
    exact length_samples_add_faults records

end SchedLatency.Snapshot
