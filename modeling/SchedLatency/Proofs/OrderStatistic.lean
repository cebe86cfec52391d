import SchedLatency.Proofs.FloorSlot
import SchedLatency.Proofs.Rank

namespace SchedLatency

open Bucket (observations)

theorem lt_length_filter_iff {vs : List UInt64} (hvs : vs.Pairwise (·≤·)) {P : UInt64 → Bool}
    (down : ∀ a b,a≤b → P b → P a) {i : Nat} (hi : i<vs.length) :
    i<(vs.filter P).length ↔ P vs[i] := by
  induction vs generalizing i with
  | nil => simp at hi
  | cons a vs ih =>
    obtain ⟨ha,htail⟩ := List.pairwise_cons.mp hvs
    by_cases hav : P a
    · rw [List.filter_cons,if_pos hav,List.length_cons]
      cases i with
      | zero => simpa using hav
      | succ i => simpa using ih htail (by simpa using hi)
    · have first : ∀ w∈a :: vs,a≤w := by
        intro w hw
        rcases List.mem_cons.mp hw with rfl | hmem
        · exact UInt64.le_refl _
        · exact ha w hmem
      have none : (a :: vs).filter P=[] :=
        List.filter_eq_nil_iff.mpr fun w hw hPw => hav (down a w (first w hw) hPw)
      rw [none]
      exact iff_of_false (Nat.not_lt_zero i)
        fun hPi => hav (down a _ (first _ (List.getElem_mem hi)) hPi)

namespace Bucket

/-- The observations of some buckets one by one, each as its slot. -/
def values (bs : List Bucket) : List UInt64 :=
  bs.flatMap fun b => List.replicate b.count.toNat b.slot

theorem values_cons (b : Bucket) (bs : List Bucket) :
    values (b :: bs)=List.replicate b.count.toNat b.slot++values bs := rfl

theorem mem_values {bs : List Bucket} {v : UInt64} (h : v∈values bs) : ∃ b∈bs,b.slot=v := by
  obtain ⟨b,hb,hv⟩ := List.mem_flatMap.mp h
  exact ⟨b,hb,(List.eq_of_mem_replicate hv).symm⟩

theorem length_values (bs : List Bucket) : (values bs).length=observations bs := by
  induction bs with
  | nil => rfl
  | cons b bs ih => rw [values_cons,List.length_append,List.length_replicate,ih,observations_cons]

theorem filter_values (bs : List Bucket) (P : UInt64 → Bool) :
    (values bs).filter P=values (bs.filter (P ·.slot)) := by
  induction bs with
  | nil => rfl
  | cons b bs ih =>
    rw [values_cons,List.filter_append,ih,List.filter_replicate,List.filter_cons]
    split
    · rw [values_cons]
    · rw [List.nil_append]

theorem values_ascending {bs : List Bucket} (hbs : bs.Pairwise fun a b => a.slot≤b.slot) :
    (values bs).Pairwise (·≤·) := by
  induction bs with
  | nil => exact .nil
  | cons b bs ih =>
    obtain ⟨hb,htail⟩ := List.pairwise_cons.mp hbs
    rw [values_cons,List.pairwise_append]
    refine ⟨List.pairwise_replicate.mpr (.inr (UInt64.le_refl _)),ih htail,?_⟩
    intro v hv w hw
    obtain ⟨c,hc,rfl⟩ := mem_values hw
    rw [List.eq_of_mem_replicate hv]
    exact hb c hc

end Bucket

namespace Histogram

def values (h : Histogram) : List UInt64 := Bucket.values h.buckets

variable {h k : Histogram} {p q : Float}

theorem length_values (h : Histogram) : h.values.length=observations h.buckets :=
  Bucket.length_values _

theorem values_ascending (hs : h.Sorted) : h.values.Pairwise (·≤·) := Bucket.values_ascending hs

theorem length_filter_values (h : Histogram) (P : UInt64 → Bool) :
    (h.values.filter P).length=observations (h.buckets.filter (P ·.slot)) := by
  rw [values,Bucket.filter_values,Bucket.length_values]

theorem lt_upTo_iff (hs : h.Sorted) {i : Nat} (hi : i<h.values.length) {v : UInt64} :
    i<h.upTo v ↔ h.values[i]≤v := by
  have down (a b : UInt64) (hab : a≤b) (hb : decide (b≤v)) : decide (a≤v) :=
    decide_eq_true (UInt64.le_trans hab (of_decide_eq_true hb))
  rw [upTo,←h.length_filter_values (·≤v),
    lt_length_filter_iff (values_ascending hs) down hi,decide_eq_true_iff]

theorem mem_slots_of_mem_values {v : UInt64} (hv : v∈h.values) : v∈h.slots := by
  obtain ⟨b,hb,rfl⟩ := Bucket.mem_values hv
  exact List.mem_map_of_mem hb

theorem clamp_upTo (hfit : observations h.buckets<2^64) (v : UInt64) :
    (Counter.clamp (h.upTo v)).toNat=h.upTo v := by
  have hle : h.upTo v≤observations h.buckets := observations_filter_le _ _
  exact Counter.toNat_clamp_of_lt (hle.trans_lt hfit)

/-- The slot that holds a rank within the total is the observation in that place. -/
theorem IsFloor.eq_getElem (hs : h.Sorted) (hfit : observations h.buckets<2^64) {rank : Counter}
    {v : UInt64} (hv : h.IsFloor rank v) (hpos : 1≤rank.toNat) (hi : rank.toNat-1<h.values.length) :
    v=h.values[rank.toNat-1] := by
  apply UInt64.le_antisymm
  · -- The observation itself has so many others up to it that no later slot can be the least.
    apply UInt64.not_lt.mp
    intro hlt
    have hshort := hv.least _ (mem_slots_of_mem_values (List.getElem_mem hi)) hlt
    rw [UInt64.lt_iff_toNat_lt,clamp_upTo hfit] at hshort
    have := (lt_upTo_iff hs hi).mpr (UInt64.le_refl _)
    omega
  · apply (lt_upTo_iff hs hi).mp
    rcases hv.reached with hr | hlast
    · rw [UInt64.le_iff_toNat_le,clamp_upTo hfit] at hr
      omega
    · rw [upTo_eq_observations hlast,←length_values]
      exact hi

theorem buckets_ne_nil (ht : h.total≠0) : h.buckets≠[] := by
  intro hnil
  apply ht
  rw [total_eq_clamp,hnil]
  rfl

theorem total_toNat (hfit : observations h.buckets<2^64) :
    h.total.toNat=observations h.buckets := by
  rw [total_eq_clamp]
  exact Counter.toNat_clamp_of_lt hfit

theorem total_ne_zero (hpos : 0<observations h.buckets) (hfit : observations h.buckets<2^64) :
    h.total≠0 := by
  intro hzero
  have htotal := total_toNat hfit
  rw [hzero,UInt64.toNat_zero] at htotal
  omega

theorem estimate_eq_ok (ht : h.total≠0) (hp : accepts p) (mode : Mode) :
    h.estimate mode p=.ok (match mode with
      | .bucketFloor => .slot (h.slotAt (h.floorIndex p))
      | .interpolated => .interpolated (h.interpolate p)) := by
  have hempty : h.isEmpty=false := List.isEmpty_eq_false_iff.mpr (buckets_ne_nil ht)
  unfold estimate
  rw [hempty,hp]
  cases mode <;> simp [ht]

theorem estimate_eq_slotAt (ht : h.total≠0) (hp : accepts p) :
    h.estimate .bucketFloor p=.ok (.slot (h.slotAt (h.floorIndex p))) :=
  estimate_eq_ok ht hp .bucketFloor

theorem estimate_of_rank_zero (ht : h.total≠0) (hp : accepts p) (hzero : h.rank p=0) :
    h.estimate .bucketFloor p=.ok (.slot (h.slotAt 0)) := by
  have hindex : h.floorIndex p=0 := by
    unfold floorIndex
    simp only
    rw [if_pos hzero]
  rw [estimate_eq_slotAt ht hp,hindex]

theorem estimate_bucketFloor (hs : h.Sorted) (ht : h.total≠0) (hp : accepts p) :
    ∃ v,h.estimate .bucketFloor p=.ok (.slot v) ∧ h.IsFloor (h.rank p) v :=
  ⟨_,estimate_eq_slotAt ht hp,isFloor_floorIndex hs (buckets_ne_nil ht) p⟩

theorem IsFloor.least_of_zero {v : UInt64} (hv : h.IsFloor 0 v) : ∀ w∈h.slots,v≤w := by
  intro w hw
  apply UInt64.not_lt.mp
  intro hlt
  exact absurd (hv.least w hw hlt) (UInt64.not_lt.mpr UInt64.zero_le)

theorem estimate_eq_getElem (hs : h.Sorted) (hfit : observations h.buckets<2^64) (hp : accepts p)
    (hlow : 1≤(h.rank p).toNat) (hi : (h.rank p).toNat-1<h.values.length) :
    h.estimate .bucketFloor p=.ok (.slot h.values[(h.rank p).toNat-1]) := by
  have hpos : 0<observations h.buckets := by
    rw [←length_values]
    omega
  obtain ⟨v,hestimate,hv⟩ := estimate_bucketFloor hs (total_ne_zero hpos hfit) hp
  rw [hestimate,hv.eq_getElem hs hfit hlow hi]

/-- Sorted histograms with the same observations answer alike, except for rank zero. -/
theorem estimate_eq_of_perm (hs : h.Sorted) (ks : k.Sorted) (perm : k.values.Perm h.values)
    (hfit : observations h.buckets<2^64) (hp : accepts p) (hlow : 1≤(h.rank p).toNat)
    (hi : (h.rank p).toNat-1<h.values.length) :
    k.estimate .bucketFloor p=h.estimate .bucketFloor p := by
  have same : k.values=h.values :=
    perm.eq_of_pairwise (fun _ _ _ _ => UInt64.le_antisymm) (values_ascending ks)
      (values_ascending hs)
  have count : observations k.buckets=observations h.buckets := by
    rw [←length_values,←length_values,same]
  have hrank : k.rank p=h.rank p := by
    unfold rank
    rw [total_eq_clamp,total_eq_clamp,count]
  rw [estimate_eq_getElem hs hfit hp hlow hi,
    estimate_eq_getElem ks (by omega) hp (by rwa [hrank]) (by rwa [hrank,same])]
  simp only [hrank,same]

/-- Bucket-floor estimates are order statistics: a rank of at least one asks for the observation in
that place, and rank zero for the smallest slot. -/
theorem estimate_orderStatistic (hs : h.Sorted) (hpos : 0<observations h.buckets)
    (hfit : observations h.buckets<2^64) (hp : accepts p) :
    h.values.Pairwise (·≤·) ∧ h.values.length=observations h.buckets ∧
    (h.rank p=0 → ∃ v∈h.slots,(∀ w∈h.slots,v≤w) ∧ h.estimate .bucketFloor p=.ok (.slot v)) ∧
    (1≤(h.rank p).toNat → (h.rank p).toNat≤observations h.buckets →
      ∃ v,h.values[(h.rank p).toNat-1]?=some v ∧ h.estimate .bucketFloor p=.ok (.slot v) ∧
        ∀ k : Histogram,k.Sorted → k.values.Perm h.values →
          k.estimate .bucketFloor p=.ok (.slot v)) := by
  refine ⟨values_ascending hs,length_values h,?_,?_⟩
  · intro hzero
    obtain ⟨v,hestimate,hv⟩ := estimate_bucketFloor hs (total_ne_zero hpos hfit) hp
    rw [hzero] at hv
    exact ⟨v,hv.mem,hv.least_of_zero,hestimate⟩
  · intro hlow hhigh
    have hi : (h.rank p).toNat-1<h.values.length := by
      rw [length_values]
      omega
    have answer := estimate_eq_getElem hs hfit hp hlow hi
    refine ⟨_,List.getElem?_eq_getElem hi,answer,?_⟩
    intro k ks perm
    rw [estimate_eq_of_perm hs ks perm hfit hp hlow hi,answer]

/-- The median of six observations, three of them in one slot of two buckets, between buckets that
count nothing. -/
theorem estimate_orderStatistic_median :
    let h : Histogram := ⟨[⟨1,0⟩,⟨1,2⟩,⟨3,1⟩,⟨3,2⟩,⟨7,1⟩,⟨9,0⟩]⟩
    (h.Sorted ∧ 0<observations h.buckets ∧ observations h.buckets<2^64 ∧ accepts 50) ∧
      h.rank 50=3 ∧ h.estimate .bucketFloor 50=.ok (.slot 3) := by
  intro h
  have hs : h.Sorted := by
    unfold Sorted
    decide
  have hrank : h.rank 50=3 := by decide +kernel
  have hp : accepts 50 := by rfl
  obtain ⟨-,-,-,answer⟩ := estimate_orderStatistic (h := h) hs (by decide) (by decide) hp
  rw [hrank] at answer
  obtain ⟨v,hv,hestimate,-⟩ := answer (by decide) (by decide)
  obtain rfl : 3=v := Option.some.inj hv
  exact ⟨⟨hs,by decide,by decide,hp⟩,hrank,hestimate⟩

/-- A greater percentile is never answered by a lesser slot, saturated totals included. -/
theorem estimate_mono (hs : h.Sorted) (ht : h.total≠0) (hp : accepts p) (hq : accepts q)
    (hpq : p≤q) : ∃ a b,h.estimate .bucketFloor p=.ok (.slot a) ∧
      h.estimate .bucketFloor q=.ok (.slot b) ∧ a≤b := by
  obtain ⟨a,ha,hfloor⟩ := estimate_bucketFloor hs ht hp
  obtain ⟨b,hb,hfloor'⟩ := estimate_bucketFloor hs ht hq
  exact ⟨a,b,ha,hb,hfloor.mono hfloor' (h.rank_mono hp hq hpq)⟩

/-- Two percentiles of a histogram with more observations than its total can tell. -/
theorem estimate_mono_saturated :
    let h : Histogram := ⟨[⟨1,9223372036854775808⟩,⟨1,5⟩,⟨4,18446744073709551615⟩]⟩
    (h.Sorted ∧ h.total≠0 ∧ accepts 20 ∧ accepts 70 ∧ (20 : Float)≤70) ∧
      ∃ a b,h.estimate .bucketFloor 20=.ok (.slot a) ∧
        h.estimate .bucketFloor 70=.ok (.slot b) ∧ a≤b := by
  intro h
  have hs : h.Sorted := by
    unfold Sorted
    decide
  have ht : h.total≠0 := by decide
  have hp : accepts 20 := by rfl
  have hq : accepts 70 := by rfl
  have hpq : (20 : Float)≤70 := by decide +kernel
  exact ⟨⟨hs,ht,hp,hq,hpq⟩,estimate_mono hs ht hp hq hpq⟩

end Histogram
end SchedLatency
