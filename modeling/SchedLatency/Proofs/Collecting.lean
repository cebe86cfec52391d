import SchedLatency.Proofs.Grouping

namespace SchedLatency

namespace Record

def loss? : Record → Option SourceError
  | fault (.unavailable reason) => some (.unavailable reason)
  | _ => none

def malformed? : Record → Option String
  | fault (.malformedRecord reason) => some reason
  | _ => none

end Record

namespace Snapshot

def firstLoss? (records : List Record) : Option SourceError := records.findSome? Record.loss?

/-- The records that come before the first loss of the source. -/
def beforeLoss (records : List Record) : List Record :=
  records.takeWhile fun r => r.loss?.isNone

theorem firstLoss?_cons (r : Record) (records : List Record) :
    firstLoss? (r :: records)=r.loss?.or (firstLoss? records) := by
  rw [firstLoss?,List.findSome?_cons]
  cases r.loss? <;> rfl

theorem beforeLoss_cons (r : Record) (records : List Record) :
    beforeLoss (r :: records)=if r.loss?.isNone then r :: beforeLoss records else [] := by
  rw [beforeLoss,List.takeWhile_cons]
  rfl

theorem receive_loss {r : Record} {e : SourceError} (h : r.loss?=some e) (g : Grouping) :
    (Collector.mk none g).receive r=⟨some e,g⟩ := by
  cases r with
  | sample x => cases h
  | fault f =>
    cases f with
    | unavailable reason =>
      cases h
      rfl
    | malformedRecord reason => cases h

theorem receive_usable {r : Record} (h : r.loss?=none) (g : Grouping) :
    (Collector.mk none g).receive r=⟨none,g.add r⟩ := by
  cases r with
  | sample x => rfl
  | fault f =>
    cases f with
    | unavailable reason => cases h
    | malformedRecord reason => rfl

theorem foldl_receive_closed (e : SourceError) (g : Grouping) (records : List Record) :
    records.foldl Collector.receive ⟨some e,g⟩=⟨some e,g⟩ := by
  induction records with
  | nil => rfl
  | cons r records ih => exact ih

/-- The collector remembers the first loss and has grouped exactly what came before it. -/
theorem foldl_receive (g : Grouping) (records : List Record) :
    records.foldl Collector.receive ⟨none,g⟩=
      ⟨firstLoss? records,(beforeLoss records).foldl Grouping.add g⟩ := by
  induction records generalizing g with
  | nil => rfl
  | cons r records ih =>
    rw [List.foldl_cons,firstLoss?_cons,beforeLoss_cons]
    cases h : r.loss? with
    | none =>
      rw [receive_usable h]
      exact ih (g.add r)
    | some e =>
      rw [receive_loss h]
      exact foldl_receive_closed e g records

theorem firstLoss?_isSome {records : List Record} {reason : String}
    (h : .fault (.unavailable reason)∈records) : ∃ e,firstLoss? records=some e := by
  induction records with
  | nil => cases h
  | cons r records ih =>
    rw [firstLoss?_cons]
    rcases List.mem_cons.mp h with rfl | h
    · exact ⟨_,rfl⟩
    · obtain ⟨e,he⟩ := ih h
      rw [he]
      cases r.loss? with
      | none => exact ⟨e,rfl⟩
      | some f => exact ⟨f,rfl⟩

theorem beforeLoss_eq_self {records : List Record} (h : firstLoss? records=none) :
    beforeLoss records=records := by
  induction records with
  | nil => rfl
  | cons r records ih =>
    rw [firstLoss?_cons,Option.or_eq_none_iff] at h
    rw [beforeLoss_cons,h.1,ih h.2]
    rfl

theorem warnings_foldl_add (policy : DuplicatePolicy) (records : List Record) :
    (records.foldl Grouping.add (.start policy)).warnings=faults records := by
  cases policy with
  | sum => rw [Grouping.start,foldl_add_sum,List.nil_append]
  | keep => rw [Grouping.start,foldl_add_keep,List.nil_append]

/-- Before the source is lost, the only faults are malformed records. -/
theorem faults_beforeLoss (records : List Record) :
    faults (beforeLoss records)=
      ((beforeLoss records).filterMap Record.malformed?).map SourceError.malformedRecord := by
  induction records with
  | nil => rfl
  | cons r records ih =>
    rw [beforeLoss_cons]
    cases r with
    | sample x => exact ih
    | fault e =>
      cases e with
      | unavailable reason => rfl
      | malformedRecord reason => exact congrArg (.malformedRecord reason :: ·) ih

theorem outcome_buildIn (order : Enumeration) (policy : DuplicatePolicy) (pass : Pass) :
    (buildIn order policy pass).outcome=
      (pass.failure.or (firstLoss? pass.records)).elim
        (.ok (ofRecordsIn order policy pass.records)) .error := by
  unfold buildIn Collector.start
  rw [foldl_receive]
  cases pass.failure with
  | some e => rfl
  | none =>
    cases h : firstLoss? pass.records with
    | some e => rfl
    | none =>
      rw [beforeLoss_eq_self h]
      rfl

theorem skipped_buildIn (order : Enumeration) (policy : DuplicatePolicy) (pass : Pass) :
    (buildIn order policy pass).skipped=faults (beforeLoss pass.records) := by
  unfold buildIn Collector.start
  rw [foldl_receive,←warnings_foldl_add policy]

/-- A pass gives the error with which it ends, else the first loss among its records, else the
snapshot of all its records. Each malformed record before the first loss gives one warning, in
order, and a snapshot counts exactly those. -/
theorem buildIn_outcome_and_warnings (order order' : Enumeration) (policy : DuplicatePolicy)
    (pass : Pass) :
    let c := buildIn order policy pass
    c.outcome=(pass.failure.or (firstLoss? pass.records)).elim
      (.ok (ofRecordsIn order' policy pass.records)) .error ∧
    ((∃ reason,.fault (.unavailable reason)∈pass.records) → ∀ s,c.outcome≠.ok s) ∧
    c.skipped.map skipWarning=
      ((beforeLoss pass.records).filterMap Record.malformed?).map
        ("Skipping record: malformed record: " ++ ·) ∧
    ∀ s,c.outcome=.ok s → (c.skipped.map skipWarning).length=s.skipped := by
  intro c
  have outcome : c.outcome=(pass.failure.or (firstLoss? pass.records)).elim
      (.ok (ofRecordsIn order' policy pass.records)) .error := by
    rw [←ofRecordsIn_perm order order' policy (.refl pass.records)]
    exact outcome_buildIn order policy pass
  have skipped : c.skipped=faults (beforeLoss pass.records) := skipped_buildIn order policy pass
  refine ⟨outcome,?_,?_,?_⟩
  · rintro ⟨reason,hr⟩ s hs
    obtain ⟨e,he⟩ := firstLoss?_isSome hr
    rw [outcome,he] at hs
    cases hf : pass.failure <;> rw [hf] at hs <;> cases hs
  · rw [skipped,faults_beforeLoss,List.map_map]
    have text : "Skipping record: malformed record: "="Skipping record: " ++ "malformed record: " :=
      rfl
    apply List.map_congr_left
    intro reason _
    rw [text,String.append_assoc]
    rfl
  · intro s hs
    rw [outcome] at hs
    cases h : pass.failure.or (firstLoss? pass.records) with
    | some e => rw [h] at hs; cases hs
    | none =>
      rw [h] at hs
      cases hs
      rw [List.length_map,skipped,beforeLoss_eq_self (Option.or_eq_none_iff.mp h).2,
        skipped_ofRecordsIn]

end Snapshot
end SchedLatency
