import SchedLatency.Counter

namespace SchedLatency

structure Bucket where
  slot : UInt64
  count : UInt64
  deriving DecidableEq, Repr

def Bucket.le (a b : Bucket) : Bool :=
  a.slot<b.slot || a.slot==b.slot && a.count≤b.count

namespace Bucket

theorem le_iff (a b : Bucket) :
    a.le b=true ↔ a.slot.toNat<b.slot.toNat ∨
      a.slot.toNat=b.slot.toNat ∧ a.count.toNat≤b.count.toNat := by
  simp [le,UInt64.lt_iff_toNat_lt,UInt64.le_iff_toNat_le,UInt64.toNat_inj]

theorem le_trans (a b c : Bucket) (hab : a.le b=true) (hbc : b.le c=true) : a.le c=true := by
  rw [le_iff] at hab hbc ⊢
  omega

theorem le_total (a b : Bucket) : (a.le b || b.le a)=true := by
  rw [Bool.or_eq_true,le_iff,le_iff]
  omega

theorem le_antisymm (a b : Bucket) (hab : a.le b=true) (hba : b.le a=true) : a=b := by
  rw [le_iff] at hab hba
  have slots : a.slot=b.slot := UInt64.toNat_inj.mp (by omega)
  have counts : a.count=b.count := UInt64.toNat_inj.mp (by omega)
  cases a
  cases b
  simp only at slots counts
  rw [slots,counts]

/-- Observations in all the buckets of a list, however many. -/
def observations : List Bucket → Nat
  | [] => 0
  | b :: bs => b.count.toNat+observations bs

theorem observations_cons (b : Bucket) (bs : List Bucket) :
    observations (b :: bs)=b.count.toNat+observations bs := rfl

theorem observations_append (bs cs : List Bucket) :
    observations (bs++cs)=observations bs+observations cs := by
  induction bs with
  | nil => exact (Nat.zero_add _).symm
  | cons b bs ih => rw [List.cons_append,observations_cons,ih,observations_cons,Nat.add_assoc]

theorem observations_perm {bs cs : List Bucket} (h : bs.Perm cs) :
    observations bs=observations cs := by
  induction h with
  | nil => rfl
  | cons b _ ih => rw [observations_cons,observations_cons,ih]
  | swap a b bs =>
    rw [observations_cons,observations_cons,observations_cons,observations_cons]
    omega
  | trans _ _ ih ih' => exact ih.trans ih'

theorem observations_take_add_drop (bs : List Bucket) (i : Nat) :
    observations (bs.take i)+observations (bs.drop i)=observations bs := by
  rw [←observations_append,List.take_append_drop]

theorem observations_eq_zero_iff {bs : List Bucket} :
    observations bs=0 ↔ ∀ b∈bs,b.count=0 := by
  induction bs with
  | nil => simp [observations]
  | cons b bs ih =>
    rw [observations_cons,Nat.add_eq_zero_iff,ih,List.forall_mem_cons,←UInt64.toNat_inj]
    rfl

end Bucket

/-- The buckets of one entity, in the order they were added until `sort` arranges them. -/
structure Histogram where
  buckets : List Bucket
  deriving DecidableEq, Repr

namespace Histogram

def empty : Histogram := ⟨[]⟩

instance : EmptyCollection Histogram := ⟨empty⟩
instance : Inhabited Histogram := ⟨empty⟩

def push (h : Histogram) (b : Bucket) : Histogram := ⟨h.buckets++[b]⟩

def sort (h : Histogram) : Histogram := ⟨h.buckets.mergeSort Bucket.le⟩

/-- Is there no bucket at all? Buckets that count nothing are still buckets. -/
def isEmpty (h : Histogram) : Bool := h.buckets.isEmpty

/-- Sum of all counts, added up in order by a counter that stops at its limit. -/
def total (h : Histogram) : Counter :=
  h.buckets.foldl (fun sum b => Counter.add sum b.count) 0

theorem sort_perm (h : Histogram) : h.sort.buckets.Perm h.buckets :=
  List.mergeSort_perm _ _

theorem sort_pairwise (h : Histogram) : h.sort.buckets.Pairwise (fun a b => a.le b=true) :=
  List.pairwise_mergeSort Bucket.le_trans Bucket.le_total _

/-- There is only one way to arrange buckets in order. -/
theorem eq_sort {bs : List Bucket} {h : Histogram} (perm : bs.Perm h.buckets)
    (sorted : bs.Pairwise fun a b => a.le b=true) : ⟨bs⟩=h.sort := by
  apply congrArg Histogram.mk
  apply List.Perm.eq_of_pairwise (fun a b _ _ => Bucket.le_antisymm a b) sorted (sort_pairwise h)
  exact perm.trans (sort_perm h).symm

theorem sort_eq_of_perm {bs cs : List Bucket} (h : bs.Perm cs) : sort ⟨bs⟩=sort ⟨cs⟩ :=
  eq_sort ((sort_perm ⟨bs⟩).trans h) (sort_pairwise ⟨bs⟩)

theorem foldl_add_clamp (n : Nat) (bs : List Bucket) :
    bs.foldl (fun sum b => Counter.add sum b.count) (Counter.clamp n)=
      Counter.clamp (n+Bucket.observations bs) := by
  induction bs generalizing n with
  | nil => rfl
  | cons b bs ih =>
    rw [List.foldl_cons,Counter.add_clamp,ih,Bucket.observations_cons,Nat.add_assoc]

theorem total_eq_clamp (h : Histogram) : h.total=Counter.clamp (Bucket.observations h.buckets) := by
  have start := foldl_add_clamp 0 h.buckets
  rw [Nat.zero_add] at start
  exact start

theorem total_eq_zero_iff {h : Histogram} : h.total=0 ↔ ∀ b∈h.buckets,b.count=0 := by
  rw [total_eq_clamp,←Bucket.observations_eq_zero_iff,←UInt64.toNat_inj,Counter.toNat_clamp,
    Counter.limit,UInt64.size,UInt64.toNat_zero]
  omega

structure LengthMismatch where
  bins : Nat
  counts : Nat
  deriving DecidableEq, Repr

def ofColumns (bins counts : List UInt64) : Except LengthMismatch Histogram :=
  if bins.length=counts.length then .ok (sort ⟨List.zipWith Bucket.mk bins counts⟩)
  else .error ⟨bins.length,counts.length⟩

end Histogram
end SchedLatency
