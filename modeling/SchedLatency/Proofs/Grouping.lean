import SchedLatency.Proofs.Tally

namespace SchedLatency.Snapshot

def samples (records : List Record) : List Sample := records.filterMap Record.sample?

theorem samples_fault (e : SourceError) (records : List Record) :
    samples (.fault e :: records)=samples records := rfl

theorem faults_fault (e : SourceError) (records : List Record) :
    faults (.fault e :: records)=e :: faults records := rfl

def pushAll (m : EntityMap Histogram) (es : List (EntityId×Bucket)) : EntityMap Histogram :=
  es.foldl (fun m e => Grouping.pushBucket m e.1 e.2) m

/-- The buckets of one entity, in the order in which they come. -/
def bucketsAt (id : EntityId) (es : List (EntityId×Bucket)) : List Bucket :=
  (es.filter fun e => e.1==id).map Prod.snd

theorem mem_bucketsAt {id : EntityId} {es : List (EntityId×Bucket)} {b : Bucket} :
    b∈bucketsAt id es ↔ (id,b)∈es := by
  simp [bucketsAt]

theorem bucketsAt_perm (id : EntityId) {es es' : List (EntityId×Bucket)} (h : es.Perm es') :
    (bucketsAt id es).Perm (bucketsAt id es') :=
  (h.filter _).map _

theorem get?_pushBucket (m : EntityMap Histogram) (id k : EntityId) (b : Bucket) :
    (Grouping.pushBucket m id b).get? k=
      if k=id then some (((m.get? id).getD .empty).push b) else m.get? k :=
  EntityMap.get?_alter m id _ k

theorem get?_pushAll (m : EntityMap Histogram) (es : List (EntityId×Bucket)) (id : EntityId) :
    (pushAll m es).get? id=
      if bucketsAt id es=[] then m.get? id
      else some ⟨((m.get? id).getD .empty).buckets++bucketsAt id es⟩ := by
  induction es generalizing m with
  | nil => rfl
  | cons e es ih =>
    change (pushAll (Grouping.pushBucket m e.1 e.2) es).get? id=_
    rw [ih,get?_pushBucket]
    by_cases h : id=e.1
    · have hb : bucketsAt id (e :: es)=e.2 :: bucketsAt id es := by simp [bucketsAt,h]
      rw [hb,if_pos h,if_neg (List.cons_ne_nil _ _),h]
      split
      · rename_i hnil
        rw [hnil]
        rfl
      · simp [Histogram.push]
    · have hb : bucketsAt id (e :: es)=bucketsAt id es := by
        simp [bucketsAt,Ne.symm h]
      rw [hb,if_neg h]

def ofTally (e : SlotKey×Counter) : EntityId×Bucket := (e.1.1,⟨e.1.2,e.2⟩)

def buckets (order : Enumeration) (policy : DuplicatePolicy) (xs : List Sample) :
    List (EntityId×Bucket) :=
  match policy with
  | .sum => (order.arrange (tallyOf xs)).map ofTally
  | .keep => xs.map fun x => (x.entity,x.bucket)

theorem buckets_perm (order order' : Enumeration) (policy : DuplicatePolicy) {xs ys : List Sample}
    (h : xs.Perm ys) : (buckets order policy xs).Perm (buckets order' policy ys) := by
  cases policy with
  | sum => exact ((order.perm _).trans ((tallyOf_perm h).trans (order'.perm _).symm)).map _
  | keep => exact h.map _

theorem foldl_add_sum (t : Tally) (m : EntityMap Histogram) (n : Nat) (ws : List SourceError)
    (records : List Record) :
    records.foldl Grouping.add ⟨.sum,t,m,n,ws⟩=
      ⟨.sum,tallyOn t (samples records),m,n+(faults records).length,ws++faults records⟩ := by
  induction records generalizing t n ws with
  | nil => simp [samples,tallyOn,faults]
  | cons r records ih =>
    rw [List.foldl_cons]
    cases r with
    | sample x => exact ih (t.add x.key x.count) n ws
    | fault e =>
      refine (ih t (n+1) (ws++[e])).trans ?_
      rw [samples_fault,faults_fault,List.append_assoc,List.singleton_append,List.length_cons,
        Nat.add_right_comm,Nat.add_assoc]

theorem foldl_add_keep (t : Tally) (m : EntityMap Histogram) (n : Nat) (ws : List SourceError)
    (records : List Record) :
    records.foldl Grouping.add ⟨.keep,t,m,n,ws⟩=
      ⟨.keep,t,pushAll m ((samples records).map fun x => (x.entity,x.bucket)),
        n+(faults records).length,ws++faults records⟩ := by
  induction records generalizing m n ws with
  | nil => simp [samples,pushAll,faults]
  | cons r records ih =>
    rw [List.foldl_cons]
    cases r with
    | sample x => exact ih (Grouping.pushBucket m x.entity x.bucket) n ws
    | fault e =>
      refine (ih m (n+1) (ws++[e])).trans ?_
      rw [samples_fault,faults_fault,List.append_assoc,List.singleton_append,List.length_cons,
        Nat.add_right_comm,Nat.add_assoc]

/-- A snapshot is made of the buckets its samples come to and of the number of faults. -/
theorem ofRecordsIn_eq (order : Enumeration) (policy : DuplicatePolicy) (records : List Record) :
    ofRecordsIn order policy records=
      ⟨(pushAll .empty (buckets order policy (samples records))).mapValues Histogram.sort,
        (faults records).length⟩ := by
  unfold ofRecordsIn Grouping.start
  cases policy with
  | sum =>
    rw [foldl_add_sum]
    simp only [Grouping.toSnapshot,buckets,pushAll,List.foldl_map,Nat.zero_add]
    rfl
  | keep =>
    rw [foldl_add_keep]
    have nothing : order.arrange []=[] := (order.perm []).eq_nil
    simp only [Grouping.toSnapshot,nothing,buckets,Nat.zero_add,List.foldl_nil]

theorem skipped_ofRecordsIn (order : Enumeration) (policy : DuplicatePolicy)
    (records : List Record) :
    (ofRecordsIn order policy records).skipped=(faults records).length := by
  rw [ofRecordsIn_eq]

theorem get?_ofRecordsIn (order : Enumeration) (policy : DuplicatePolicy) (records : List Record)
    (id : EntityId) :
    (ofRecordsIn order policy records).get? id=
      if bucketsAt id (buckets order policy (samples records))=[] then none
      else some (Histogram.sort ⟨bucketsAt id (buckets order policy (samples records))⟩) := by
  rw [ofRecordsIn_eq,get?,EntityMap.get?_mapValues,get?_pushAll]
  split <;> rfl

/-- Samples in another order, and a tally enumerated in another order, give the same histograms. -/
theorem histograms_ofRecordsIn_perm (order order' : Enumeration) (policy : DuplicatePolicy)
    {records records' : List Record} (h : (samples records).Perm (samples records')) :
    (ofRecordsIn order policy records).histograms=
      (ofRecordsIn order' policy records').histograms := by
  apply EntityMap.ext_get?
  intro id
  have perm := bucketsAt_perm id (buckets_perm order order' policy h)
  have left := get?_ofRecordsIn order policy records id
  have right := get?_ofRecordsIn order' policy records' id
  unfold get? at left right
  rw [left,right]
  by_cases hnil : bucketsAt id (buckets order policy (samples records))=[]
  · rw [if_pos hnil,if_pos (List.perm_nil.mp (hnil ▸ perm.symm))]
  · have hnil' : bucketsAt id (buckets order' policy (samples records'))≠[] := by
      intro h'
      exact hnil (List.perm_nil.mp (h' ▸ perm))
    rw [if_neg hnil,if_neg hnil',Histogram.sort_eq_of_perm perm]

theorem ofRecordsIn_perm (order order' : Enumeration) (policy : DuplicatePolicy)
    {records records' : List Record} (h : records.Perm records') :
    ofRecordsIn order policy records=ofRecordsIn order' policy records' := by
  apply Snapshot.ext
  · exact histograms_ofRecordsIn_perm order order' policy (h.filterMap Record.sample?)
  · rw [skipped_ofRecordsIn,skipped_ofRecordsIn]
    exact (h.filterMap Record.fault?).length_eq

end SchedLatency.Snapshot
