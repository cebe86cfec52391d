import SchedLatency.Proofs.OrderStatistic

namespace SchedLatency.Histogram

open Bucket (observations)
open Double

variable {h : Histogram}

def lastSlot (h : Histogram) : UInt64 := h.slotAt (h.buckets.length-1)

def belowLast (h : Histogram) : ℕ := observations (h.buckets.filter (·.slot<h.lastSlot))

theorem lastSlot_mem (hne : h.buckets≠[]) : h.lastSlot∈h.slots := by
  have hpos : 0<h.buckets.length := List.length_pos_iff.mpr hne
  exact mem_slots_iff.mpr ⟨_,by omega,rfl⟩

theorem le_lastSlot (hs : h.Sorted) : ∀ w∈h.slots,w≤h.lastSlot := by
  intro w hw
  obtain ⟨i,hi,rfl⟩ := mem_slots_iff.mp hw
  exact slotAt_mono hs (Nat.le_sub_one_of_lt hi) (by omega)

theorem belowLast_le (h : Histogram) : h.belowLast≤observations h.buckets :=
  observations_filter_le _ _

theorem IsFloor.eq_lastSlot_iff (hs : h.Sorted) (hne : h.buckets≠[])
    (hfit : observations h.buckets<2^64) {rank : Counter} {v : UInt64} (hv : h.IsFloor rank v)
    (hpos : 1≤rank.toNat) : v=h.lastSlot ↔ h.belowLast<rank.toNat := by
  rcases le_or_gt rank.toNat (observations h.buckets) with hle | hgt
  · have hi : rank.toNat-1<h.values.length := by
      rw [length_values]
      omega
    have down (a b : UInt64) (hab : a≤b) (hb : decide (b<h.lastSlot)) : decide (a<h.lastSlot) :=
      decide_eq_true (UInt64.lt_of_le_of_lt hab (of_decide_eq_true hb))
    have below := lt_length_filter_iff (values_ascending hs) down hi
    rw [length_filter_values,decide_eq_true_iff,←hv.eq_getElem hs hfit hpos hi] at below
    have hmax := le_lastSlot hs v hv.mem
    have hdef : h.belowLast=observations (h.buckets.filter (·.slot<h.lastSlot)) := rfl
    rw [←hdef] at below
    constructor
    · rintro rfl
      have := mt below.mp (UInt64.lt_irrefl _)
      omega
    · intro hbelow
      apply UInt64.le_antisymm hmax
      exact UInt64.not_lt.mp (mt below.mpr (by omega))
  · have hmax : ∀ w∈h.slots,w≤v := by
      rcases hv.reached with hr | hlast
      · rw [UInt64.le_iff_toNat_le,clamp_upTo hfit] at hr
        have : h.upTo v≤observations h.buckets := observations_filter_le _ _
        omega
      · exact hlast
    apply iff_of_true
    · exact UInt64.le_antisymm (le_lastSlot hs v hv.mem) (hmax _ (lastSlot_mem hne))
    · exact h.belowLast_le.trans_lt hgt

theorem accepts_zero : accepts 0 := by rfl

theorem accepts_hundred : accepts 100 := by rfl

theorem estimate_zero (ht : h.total≠0) :
    h.estimate .bucketFloor 0=.ok (.slot (h.slotAt 0)) :=
  estimate_of_rank_zero ht accepts_zero h.rank_zero

theorem one_le_share_hundred {n : ℕ} (hn : 1≤n) : 1 ≤ share n 100 := by
  rcases hn.eq_or_lt with rfl | hlt
  · rw [share_hundred_exact (by norm_num),Nat.cast_one]
  · have : (2 : ℚ)≤n := by exact_mod_cast hlt
    linarith [le_share_hundred n]

theorem rank_hundred_toNat (hfit : observations h.buckets<2^64) :
    (h.rank 100).toNat=min Counter.limit ⌊share (observations h.buckets) 100⌋₊ := by
  rw [rank_hundred,total_toNat hfit,Counter.toNat_clamp]

theorem count_pos {b : Bucket} (hcount : b.count≠0) : 0<b.count.toNat :=
  Nat.pos_of_ne_zero fun hzero => hcount (UInt64.toNat_inj.mp hzero)

section Last

variable {b : Bucket} (hb : h.buckets.getLast?=some b)

include hb

theorem lastSlot_eq : h.lastSlot=b.slot := by
  rw [List.getLast?_eq_getElem?] at hb
  rw [lastSlot,slotAt,hb]
  rfl

theorem belowLast_add_le : h.belowLast+b.count.toNat≤observations h.buckets := by
  obtain ⟨front,hfront⟩ := List.getLast?_eq_some_iff.mp hb
  have hself : ¬b.slot<h.lastSlot := by
    rw [lastSlot_eq hb]
    exact UInt64.lt_irrefl _
  have := observations_filter_le (·.slot<h.lastSlot) front
  rw [belowLast,hfront,List.filter_append,Bucket.observations_append,Bucket.observations_append]
  simp [hself,observations]
  exact this

/-- At 100 the answer is the largest slot exactly if the rounded total is beyond all lesser ones. -/
theorem estimate_hundred_iff (hs : h.Sorted) (hcount : b.count≠0)
    (hfit : observations h.buckets<2^64) :
    h.estimate .bucketFloor 100=.ok (.slot b.slot) ↔
      h.belowLast<⌊share (observations h.buckets) 100⌋₊ := by
  have hcount : 0<b.count.toNat := count_pos hcount
  have hbelow := belowLast_add_le hb
  have hpos : 0<observations h.buckets := by omega
  have ht := total_ne_zero hpos hfit
  have hrank := rank_hundred_toNat hfit
  have hshare : 1≤⌊share (observations h.buckets) 100⌋₊ :=
    Nat.le_floor (by exact_mod_cast one_le_share_hundred hpos)
  rw [Counter.limit,UInt64.size] at hrank
  obtain ⟨v,hestimate,hv⟩ := estimate_bucketFloor hs ht accepts_hundred
  have heq := hv.eq_lastSlot_iff hs (buckets_ne_nil ht) hfit (by omega)
  rw [hestimate,←lastSlot_eq hb]
  simp only [Except.ok.injEq,Estimate.slot.injEq]
  rw [heq,hrank]
  omega

/-- Below a total of `2^53/25` the answer at 100 is the largest slot. -/
theorem estimate_hundred_of_small (hs : h.Sorted) (hcount : b.count≠0)
    (hsmall : 25*observations h.buckets<2^53) :
    h.estimate .bucketFloor 100=.ok (.slot b.slot) := by
  have hbelow := belowLast_add_le hb
  have hcount' := count_pos hcount
  rw [estimate_hundred_iff hb hs hcount (by omega),share_hundred_exact hsmall,Nat.floor_natCast]
  omega

/-- So it is when the last bucket counts more than the three roundings can lose. -/
theorem estimate_hundred_of_full (hs : h.Sorted) (hcount : b.count≠0)
    (hfit : observations h.buckets<2^64)
    (hfull : 3*observations h.buckets≤(b.count.toNat-1)*2^53) :
    h.estimate .bucketFloor 100=.ok (.slot b.slot) := by
  have hbelow := belowLast_add_le hb
  have hcount' := count_pos hcount
  rw [estimate_hundred_iff hb hs hcount hfit,Nat.lt_iff_add_one_le]
  apply Nat.le_floor
  have hshare := le_share_hundred (observations h.buckets)
  have hbelow : (h.belowLast : ℚ)+b.count.toNat≤observations h.buckets := by exact_mod_cast hbelow
  have hfull : (3 : ℚ)*observations h.buckets≤(b.count.toNat-1)*2^53 := by
    rw [←Nat.cast_one (R := ℚ),←Nat.cast_sub hcount']
    exact_mod_cast hfull
  push_cast
  linarith

end Last

/-- The ends of the scale: 0 asks for the smallest slot, and 100 for the largest one as long as the
rounded total is beyond the observations in lesser slots. -/
theorem estimate_ends (hs : h.Sorted) (ht : h.total≠0) :
    (h.estimate .bucketFloor 0=.ok (.slot (h.slotAt 0)) ∧ ∀ w∈h.slots,h.slotAt 0≤w) ∧
    ∀ b,h.buckets.getLast?=some b → b.count≠0 → observations h.buckets<2^64 →
      (∀ w∈h.slots,w≤b.slot) ∧ (h.estimate .bucketFloor 100=.ok (.slot b.slot) ↔
        h.belowLast<⌊share (observations h.buckets) 100⌋₊) := by
  refine ⟨⟨estimate_zero ht,?_⟩,?_⟩
  · exact (isFloor_first hs (buckets_ne_nil ht)).least_of_zero
  · intro b hb hcount hfit
    refine ⟨?_,estimate_hundred_iff hb hs hcount hfit⟩
    rw [←lastSlot_eq hb]
    exact le_lastSlot hs

theorem estimate_ends_of_three :
    let h : Histogram := ⟨[⟨1,0⟩,⟨2,2⟩,⟨5,1⟩]⟩
    (h.Sorted ∧ h.total≠0) ∧ h.estimate .bucketFloor 0=.ok (.slot 1) ∧
      h.estimate .bucketFloor 100=.ok (.slot 5) := by
  intro h
  have hs : h.Sorted := by
    unfold Sorted
    decide
  have ht : h.total≠0 := by decide
  obtain ⟨⟨hzero,-⟩,hlast⟩ := estimate_ends hs ht
  refine ⟨⟨hs,ht⟩,hzero,?_⟩
  obtain ⟨-,hundred⟩ := hlast ⟨5,1⟩ rfl (by decide) (by decide)
  have hshare : share (observations h.buckets) 100=(3 : ℕ) := share_hundred_exact (by decide)
  rw [hundred,hshare,Nat.floor_natCast]
  decide

/-- One observation beyond 360287970189640 others is lost: the product with 100 is rounded down and
the quotient falls below the total. -/
theorem estimate_hundred_short :
    let h : Histogram := ⟨[⟨1,360287970189640⟩,⟨2,1⟩]⟩
    h.Sorted ∧ h.total≠0 ∧ h.buckets.getLast?=some ⟨2,1⟩ ∧ observations h.buckets<2^64 ∧
      h.estimate .bucketFloor 100=.ok (.slot 1) := by
  intro h
  have ht : h.total≠0 := by decide
  have hfloor : h.slotAt (h.floorIndex 100)=1 := by decide +kernel
  refine ⟨?_,ht,rfl,by decide,?_⟩
  · unfold Sorted
    decide
  · rw [estimate_eq_slotAt ht accepts_hundred,hfloor]

end SchedLatency.Histogram
