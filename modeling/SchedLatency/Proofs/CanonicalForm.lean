import Mathlib.Algebra.Ring.Nat
import Mathlib.Data.List.Perm.Basic
import SchedLatency.Percentile

namespace SchedLatency

def Bucket.Arranged (bs : List Bucket) : Prop :=
  bs.Pairwise fun a b => a.slot<b.slot ∨ a.slot=b.slot ∧ a.count≤b.count

theorem Bucket.arranged_iff {bs : List Bucket} :
    Arranged bs ↔ bs.Pairwise fun a b => a.le b=true := by
  have same (a b : Bucket) :
      a.le b=true ↔ a.slot<b.slot ∨ a.slot=b.slot ∧ a.count≤b.count := by
    simp [le]
  simp only [same]
  rfl

namespace Histogram

open Bucket (Arranged observations)

def ofPairs (pairs : List (UInt64×UInt64)) : Histogram := ⟨pairs.map fun p => ⟨p.1,p.2⟩⟩

theorem sort_sort (h : Histogram) : h.sort.sort=h.sort :=
  sort_eq_of_perm (sort_perm h)

theorem total_eq_of_perm {h k : Histogram} (perm : h.buckets.Perm k.buckets) :
    h.total=k.total := by
  rw [total_eq_clamp,total_eq_clamp,Bucket.observations_perm perm]

/-- Sorting tells apart what is not the same up to order, and nothing else. -/
theorem sort_eq_sort_iff {h k : Histogram} : h.sort=k.sort ↔ h.buckets.Perm k.buckets := by
  constructor
  · intro same
    calc
      h.buckets.Perm h.sort.buckets := (sort_perm h).symm
      _=k.sort.buckets := congrArg buckets same
      List.Perm _ k.buckets := sort_perm k
  · exact sort_eq_of_perm

theorem ofPairs_perm_iff {pairs pairs' : List (UInt64×UInt64)} :
    (ofPairs pairs).buckets.Perm (ofPairs pairs').buckets ↔ pairs.Perm pairs' := by
  apply List.map_perm_map_iff
  rintro ⟨slot,count⟩ ⟨slot',count'⟩ same
  obtain ⟨rfl,rfl⟩ := Bucket.mk.inj same
  rfl

theorem ofColumns_eq {bins counts : List UInt64} (h : bins.length=counts.length) :
    ofColumns bins counts=.ok (ofPairs (bins.zip counts)).sort := by
  unfold ofColumns ofPairs
  rw [if_pos h,List.zip,List.map_zipWith]

theorem observations_ofPairs {bins counts : List UInt64} (h : bins.length=counts.length) :
    observations (ofPairs (bins.zip counts)).buckets=(counts.map UInt64.toNat).sum := by
  induction bins generalizing counts with
  | nil =>
    cases counts with
    | nil => rfl
    | cons c cs => cases h
  | cons b bins ih =>
    cases counts with
    | nil => cases h
    | cons c cs =>
      have rest := ih (Nat.succ.inj h)
      change c.toNat+observations (ofPairs (bins.zip cs)).buckets=_
      rw [rest]
      rfl

/-- Columns of different length are refused with both lengths. Others give their pairs in order of
slot and count, which is the only such arrangement, with the total that the pairs have in any order.
Other columns give the same histogram exactly if their pairs are the same up to order, and then all
estimates are the same too. Sorting again changes nothing. -/
theorem ofColumns_canonical (bins counts : List UInt64) :
    (bins.length≠counts.length → ofColumns bins counts=.error ⟨bins.length,counts.length⟩) ∧
    (bins.length=counts.length → ∃ h,ofColumns bins counts=.ok h ∧
      Arranged h.buckets ∧ h.buckets.Perm (ofPairs (bins.zip counts)).buckets ∧
      (∀ bs : List Bucket,bs.Perm (ofPairs (bins.zip counts)).buckets → Arranged bs →
        h.buckets=bs) ∧
      h.total=(ofPairs (bins.zip counts)).total ∧
      h.total.toNat=min Counter.limit (counts.map UInt64.toNat).sum ∧
      ∀ bins' counts' : List UInt64,bins'.length=counts'.length →
        (ofColumns bins' counts'=.ok h ↔ (bins'.zip counts').Perm (bins.zip counts)) ∧
        ((bins'.zip counts').Perm (bins.zip counts) → ∀ mode percentile,
          (ofColumns bins' counts').map (·.estimate mode percentile)=
            .ok (h.estimate mode percentile))) ∧
    ∀ h : Histogram,h.sort.sort=h.sort ∧ h.sort.total=h.total := by
  refine ⟨fun different => if_neg different,?_,?_⟩
  · intro lengths
    let pairs := ofPairs (bins.zip counts)
    refine ⟨pairs.sort,ofColumns_eq lengths,Bucket.arranged_iff.mpr (sort_pairwise pairs),
      sort_perm pairs,?_,total_eq_of_perm (sort_perm pairs),?_,?_⟩
    · intro bs perm arranged
      exact congrArg buckets (eq_sort perm (Bucket.arranged_iff.mp arranged)).symm
    · rw [total_eq_of_perm (sort_perm pairs),total_eq_clamp,Counter.toNat_clamp,
        observations_ofPairs lengths]
    · intro bins' counts' lengths'
      have same : ofColumns bins' counts'=.ok pairs.sort ↔
          (bins'.zip counts').Perm (bins.zip counts) := by
        rw [ofColumns_eq lengths',Except.ok.injEq,sort_eq_sort_iff,ofPairs_perm_iff]
      refine ⟨same,?_⟩
      intro perm mode percentile
      rw [same.mpr perm]
      rfl
  · intro h
    exact ⟨sort_sort h,total_eq_of_perm (sort_perm h)⟩

example : (ofColumns [3,1,3,3] [9,1,2,9]).map buckets=
    .ok [⟨1,1⟩,⟨3,2⟩,⟨3,9⟩,⟨3,9⟩] := by
  cbv

end Histogram
end SchedLatency
