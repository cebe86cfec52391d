import SchedLatency.Proofs.Buckets
import SchedLatency.Proofs.Delivery

namespace SchedLatency.Snapshot

def slotKeys (id : EntityId) (q : UInt64 → Bool) (key : SlotKey) : Bool := key.1==id && q key.2

variable (order : Enumeration) (xs : List Sample) (id : EntityId) (q : UInt64 → Bool)

theorem observations_buckets_sum :
    Counter.clamp (Bucket.observations
      ((bucketsAt id (buckets order .sum xs)).filter (q ·.slot)))=
        Counter.clamp (observed (slotKeys id q) xs) := by
  have entries : Bucket.observations ((bucketsAt id (buckets order .sum xs)).filter (q ·.slot))=
      weight (slotKeys id q) (order.arrange (tallyOf xs)) := by
    simp [bucketsAt,buckets,ofTally,weight,slotKeys,List.filter_map,Function.comp_def,
      Bool.and_comm]
  rw [entries,weight_perm _ (order.perm _),weight_tallyOf]

theorem observations_buckets_keep :
    Bucket.observations ((bucketsAt id (buckets order .keep xs)).filter (q ·.slot))=
      observed (slotKeys id q) xs := by
  simp [bucketsAt,buckets,observed,slotKeys,Sample.key,Sample.bucket,List.filter_map,
    Function.comp_def,Bool.and_comm]
  rfl

theorem observations_buckets (policy : DuplicatePolicy) :
    Counter.clamp (Bucket.observations
      ((bucketsAt id (buckets order policy xs)).filter (q ·.slot)))=
        Counter.clamp (observed (slotKeys id q) xs) := by
  cases policy with
  | sum => exact observations_buckets_sum order xs id q
  | keep => rw [observations_buckets_keep]

/-- A snapshot accounts for all of some records: the entities with samples, what each has been
observed in any slots, as far as counters go, and the number of malformed records. -/
structure Covers (s : Snapshot) (records : List Record) : Prop where
  ids : ∀ id,id∈s.histograms.ids ↔ ∃ x∈samples records,x.entity=id
  counts : ∀ id h,s.get? id=some h → ∀ q : UInt64 → Bool,
    Counter.clamp (Bucket.observations (h.buckets.filter (q ·.slot)))=
      Counter.clamp (observed (slotKeys id q) (samples records))
  skipped : s.skipped=(faults records).length

theorem covers_ofRecordsIn (policy : DuplicatePolicy) (records : List Record) :
    (ofRecordsIn order policy records).Covers records where
  ids := mem_ids_ofRecordsIn order policy records
  counts := by
    intro id h hget q
    obtain ⟨-,-,perm⟩ := get?_ofRecordsIn_some hget
    rw [Bucket.observations_perm (perm.filter _),observations_buckets]
  skipped := skipped_ofRecordsIn order policy records

/-- A pass is lost exactly if it ends with an error or hands out the news of a loss. All records of
any other pass are accounted for. -/
theorem build_covers (policy : DuplicatePolicy) (pass : Pass) :
    (∃ e,(build policy pass).outcome=.error e ∧ ¬pass.Intact) ∨
      ∃ s,(build policy pass).outcome=.ok s ∧ pass.Intact ∧ s.Covers pass.records := by
  have outcome := outcome_buildIn .firstSeen policy pass
  cases lost : pass.failure.or (firstLoss? pass.records) with
  | some e =>
    rw [lost] at outcome
    refine .inl ⟨e,outcome,?_⟩
    intro intact
    rw [intact.ended,firstLoss?_eq_none intact.kept] at lost
    cases lost
  | none =>
    rw [lost] at outcome
    obtain ⟨ended,kept⟩ := Option.or_eq_none_iff.mp lost
    refine .inr ⟨_,outcome,⟨ended,?_⟩,covers_ofRecordsIn _ policy pass.records⟩
    intro reason hr
    obtain ⟨e,he⟩ := firstLoss?_isSome hr
    rw [kept] at he
    cases he

end SchedLatency.Snapshot
