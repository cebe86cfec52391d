import SchedLatency.Snapshot

namespace SchedLatency

def Sample.key (s : Sample) : SlotKey := (s.entity,s.slot)

def Sample.bucket (s : Sample) : Bucket := ⟨s.slot,s.count⟩

namespace Snapshot

/-- Sum of the counters whose keys satisfy `p`, however large. -/
def weight (p : SlotKey → Bool) (t : Tally) : Nat :=
  Bucket.observations ((t.filter fun e => p e.1).map fun e => ⟨e.1.2,e.2⟩)

def observed (p : SlotKey → Bool) (xs : List Sample) : Nat :=
  Bucket.observations ((xs.filter fun x => p x.key).map Sample.bucket)

theorem weight_cons (p : SlotKey → Bool) (key : SlotKey) (sum : Counter) (t : Tally) :
    weight p ((key,sum) :: t)=(if p key then sum.toNat else 0)+weight p t := by
  unfold weight
  cases h : p key <;> simp [h,Bucket.observations_cons]

theorem weight_perm (p : SlotKey → Bool) {t t' : Tally} (h : t.Perm t') : weight p t=weight p t' :=
  Bucket.observations_perm ((h.filter _).map _)

theorem observed_cons (p : SlotKey → Bool) (x : Sample) (xs : List Sample) :
    observed p (x :: xs)=(if p x.key then x.count.toNat else 0)+observed p xs := by
  unfold observed
  cases h : p x.key <;> simp [h,Bucket.observations_cons,Sample.bucket]

theorem observed_perm (p : SlotKey → Bool) {xs ys : List Sample} (h : xs.Perm ys) :
    observed p xs=observed p ys :=
  Bucket.observations_perm ((h.filter _).map _)

/-- Adding to a counter that stops at its limit loses nothing that a clamped sum would show. -/
theorem weight_add (p : SlotKey → Bool) (key : SlotKey) (count : Counter) (t : Tally) :
    Counter.clamp (weight p (t.add key count))=
      Counter.clamp (weight p t+if p key then count.toNat else 0) := by
  unfold Tally.add
  induction t with
  | nil =>
    rw [Association.alter,weight_cons,Counter.clamp_eq_clamp]
    split
    · rw [Option.getD_none,Counter.toNat_add,UInt64.toNat_zero]
      omega
    · rfl
  | cons e t ih =>
    obtain ⟨k,sum⟩ := e
    rw [Counter.clamp_eq_clamp] at ih ⊢
    unfold Association.alter
    split
    · rename_i hk
      have hk : k=key := eq_of_beq hk
      subst hk
      rw [weight_cons,weight_cons,Option.getD_some,Counter.toNat_add]
      -- Only this counter can fall short of its sum, and then the clamped sum is at its limit too.
      by_cases hp : p k=true
      · rw [if_pos hp,if_pos hp,if_pos hp]
        omega
      · rw [if_neg hp,if_neg hp,if_neg hp,Nat.add_zero]
    · rw [weight_cons,weight_cons]
      omega

theorem weight_eq_zero {p : SlotKey → Bool} {t : Tally} (h : ∀ e∈t,p e.1=false) :
    weight p t=0 := by
  have none : t.filter (fun e => p e.1)=[] := by
    apply List.filter_eq_nil_iff.mpr
    intro e he
    rw [h e he]
    exact Bool.false_ne_true
  rw [weight,none]
  rfl

theorem weight_eq_lookup {t : Tally} (h : (t.map Prod.fst).Nodup) (key : SlotKey) :
    weight (·==key) t=((t.lookup key).getD 0).toNat := by
  induction t with
  | nil => rfl
  | cons e t ih =>
    obtain ⟨k,sum⟩ := e
    obtain ⟨hfst,hrest⟩ := List.nodup_cons.mp h
    rw [weight_cons,List.lookup_cons]
    by_cases hk : key=k
    · subst hk
      have others : weight (·==key) t=0 := by
        apply weight_eq_zero
        intro e he
        have hkey : e.1∈t.map Prod.fst := List.mem_map_of_mem he
        apply beq_eq_false_iff_ne.mpr
        rintro rfl
        exact hfst hkey
      rw [others]
      simp
    · have hk' : (k==key)=false := beq_eq_false_iff_ne.mpr (Ne.symm hk)
      rw [ih hrest,beq_eq_false_iff_ne.mpr hk,hk']
      simp

def tallyOn (t : Tally) (xs : List Sample) : Tally :=
  xs.foldl (fun t x => t.add x.key x.count) t

theorem keys_add (t : Tally) (key k : SlotKey) (count : Counter) :
    k∈(t.add key count).map Prod.fst ↔ k=key ∨ k∈t.map Prod.fst := by
  unfold Tally.add
  rw [Association.keys_alter]
  split
  · rename_i h
    rw [List.contains_iff_mem] at h
    constructor
    · exact .inr
    · rintro (rfl | hk)
      · exact h
      · exact hk
  · rw [List.mem_append,List.mem_singleton]
    exact or_comm

theorem keys_tallyOn (t : Tally) (xs : List Sample) (k : SlotKey) :
    k∈(tallyOn t xs).map Prod.fst ↔ k∈xs.map Sample.key ∨ k∈t.map Prod.fst := by
  induction xs generalizing t with
  | nil => simp [tallyOn]
  | cons x xs ih =>
    change k∈(tallyOn (t.add x.key x.count) xs).map Prod.fst ↔ _
    rw [ih,keys_add,List.map_cons,List.mem_cons,or_left_comm,or_assoc]

theorem nodup_tallyOn {t : Tally} (h : (t.map Prod.fst).Nodup) (xs : List Sample) :
    ((tallyOn t xs).map Prod.fst).Nodup := by
  induction xs generalizing t with
  | nil => exact h
  | cons x xs ih => exact ih (Association.nodup_keys_alter _ _ h)

theorem weight_tallyOn (p : SlotKey → Bool) (t : Tally) (xs : List Sample) :
    Counter.clamp (weight p (tallyOn t xs))=Counter.clamp (weight p t+observed p xs) := by
  induction xs generalizing t with
  | nil => rfl
  | cons x xs ih =>
    change Counter.clamp (weight p (tallyOn (t.add x.key x.count) xs))=_
    have step := weight_add p x.key x.count t
    rw [Counter.clamp_eq_clamp] at step
    rw [ih,observed_cons,Counter.clamp_eq_clamp]
    omega

def tallyOf (xs : List Sample) : Tally := tallyOn [] xs

theorem nodup_tallyOf (xs : List Sample) : ((tallyOf xs).map Prod.fst).Nodup :=
  nodup_tallyOn (by simp) xs

theorem weight_tallyOf (p : SlotKey → Bool) (xs : List Sample) :
    Counter.clamp (weight p (tallyOf xs))=Counter.clamp (observed p xs) := by
  rw [tallyOf,weight_tallyOn,weight_eq_zero (by simp),Nat.zero_add]

/-- A tally is the group-by of its samples: one entry per key, with the clamped sum. -/
theorem mem_tallyOf (xs : List Sample) (key : SlotKey) (c : Counter) :
    (key,c)∈tallyOf xs ↔
      (∃ x∈xs,x.key=key) ∧ c=Counter.clamp (observed (·==key) xs) := by
  have present : key∈(tallyOf xs).map Prod.fst ↔ ∃ x∈xs,x.key=key := by
    rw [tallyOf,keys_tallyOn]
    simp
  have counter : ((tallyOf xs).lookup key).getD 0=Counter.clamp (observed (·==key) xs) := by
    rw [←weight_tallyOf,weight_eq_lookup (nodup_tallyOf xs),Counter.clamp_toNat]
  rw [←present,←counter,←Association.lookup_eq_some_iff_mem (nodup_tallyOf xs)]
  constructor
  · intro h
    rw [h]
    have hm := (Association.lookup_eq_some_iff_mem (nodup_tallyOf xs)).mp h
    exact ⟨List.mem_map_of_mem hm,rfl⟩
  · rintro ⟨hk,rfl⟩
    obtain ⟨e,he,rfl⟩ := List.mem_map.mp hk
    have hv := (Association.lookup_eq_some_iff_mem (nodup_tallyOf xs)).mpr he
    rw [hv]
    rfl

theorem tallyOf_perm {xs ys : List Sample} (h : xs.Perm ys) : (tallyOf xs).Perm (tallyOf ys) := by
  have nodup (zs : List Sample) : (tallyOf zs).Nodup := by
    apply List.Pairwise.imp _ (List.pairwise_map.mp (nodup_tallyOf zs))
    intro e e' hne heq
    exact hne (congrArg Prod.fst heq)
  apply (List.perm_ext_iff_of_nodup (nodup xs) (nodup ys)).mpr
  rintro ⟨key,c⟩
  rw [mem_tallyOf,mem_tallyOf,observed_perm _ h]
  simp only [h.mem_iff]

end Snapshot
end SchedLatency
