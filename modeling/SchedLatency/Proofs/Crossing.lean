import SchedLatency.Proofs.Walk
import SchedLatency.Proofs.Rank
import SchedLatency.Proofs.Double.Sum

namespace SchedLatency.Histogram

open Bucket (observations)
open Double

/-- A percentage of a total, as doubles compute it when the percentage is divided first. -/
def portion (n : ℕ) (percentage : ℚ) : ℚ := nearest (nearest n*nearest (percentage/100))

theorem portion_mono (n : ℕ) {a b : ℚ} (ha : 0≤a) (h : a≤b) : portion n a≤portion n b := by
  have hn := nearest_natCast_nonneg n
  have hquotient : nearest (a/100)≤nearest (b/100) :=
    nearest_mono (by positivity) (div_le_div_of_nonneg_right h (by norm_num))
  apply nearest_mono (mul_nonneg hn (nearest_nonneg (by positivity)))
  exact mul_le_mul_of_nonneg_left hquotient hn

theorem portion_zero (n : ℕ) : portion n 0=0 := by
  rw [portion,zero_div,nearest_zero,mul_zero,nearest_zero]

theorem portion_hundred (n : ℕ) : portion n 100=nearest n := by
  rw [portion,div_self (by norm_num),nearest_one,mul_one,nearest_nearest n.cast_nonneg]

theorem portion_le (n : ℕ) {a : ℚ} (hpos : 0≤a) (ha : a≤100) : portion n a≤nearest n := by
  rw [←portion_hundred]
  exact portion_mono n hpos ha

variable {h : Histogram} {p t : Float} {a θ : ℚ} {i : Nat}

theorem denotes_threshold (h : Histogram) (hp : Denotes p a) (ha : a≤100) :
    Denotes (h.threshold p) (portion h.total.toNat a) := by
  have hquotient : nearest (a/100)<2^1024 := by
    apply lt_of_le_of_lt _ (two_pow_lt_max (n := 0) (by norm_num))
    exact nearest_le_two_pow (div_nonneg hp.nonneg (by norm_num)) (by linarith)
  have hportion := (portion_le h.total.toNat hp.nonneg ha).trans (nearest_word_le h.total)
  have hdivided := hp.div denotes_hundred (by norm_num) hquotient
  exact (denotes_toFloat h.total).mul hdivided (hportion.trans_lt (two_pow_lt_max (by norm_num)))

/-- The first bucket whose running total, as a double, reaches a threshold. -/
structure CrossedAt (h : Histogram) (threshold : Float) (i : Nat) : Prop where
  lt : i<h.buckets.length
  reached : threshold≤(h.running (i+1)).toFloat
  short : ∀ j,j < i → ¬threshold≤(h.running (j+1)).toFloat

theorem threshold_le_total (h : Histogram) (hp : Denotes p a) (ha : a≤100) :
    h.threshold p≤h.total.toFloat := by
  rw [(denotes_threshold h hp ha).le_iff (denotes_toFloat _)]
  exact portion_le _ hp.nonneg ha

/-- The walk for a threshold stops where it is crossed, never for want of buckets. -/
theorem crossing_eq (hne : h.buckets≠[]) (hp : Denotes p a) (ha : a≤100) :
    ∃ i,h.CrossedAt (h.threshold p) i ∧ h.crossing p=⟨i,h.running i,h.running (i+1)⟩ := by
  rcases h.stop_cases (h.threshold p≤·.toFloat) with ⟨i,hi,hstop,hreached,hshort⟩ | ⟨-,hshort⟩
  · have hbefore (j : Nat) (hj : j < i) := of_decide_eq_false (hshort j hj)
    exact ⟨i,⟨hi,of_decide_eq_true hreached,hbefore⟩,hstop⟩
  · -- The last bucket reaches the total, and rounding does not lift a part of it beyond the whole.
    have htotal := not_reached_total hne (h.threshold p≤·.toFloat) hshort
    exact absurd (h.threshold_le_total hp ha) (of_decide_eq_false htotal)

namespace CrossedAt

theorem reached_value (hc : h.CrossedAt t i) (ht : Denotes t θ) :
    θ≤nearest (h.running (i+1)).toNat :=
  (ht.le_iff (denotes_toFloat _)).mp hc.reached

theorem short_value (hc : h.CrossedAt t i) (ht : Denotes t θ) {j : Nat} (hj : j < i) :
    nearest (h.running (j+1)).toNat<θ := by
  have hshort := hc.short j hj
  rw [ht.le_iff (denotes_toFloat _)] at hshort
  exact not_le.mp hshort

theorem before_le (hc : h.CrossedAt t i) (ht : Denotes t θ) : nearest (h.running i).toNat≤θ := by
  cases i with
  | zero =>
    rw [running_first,UInt64.toNat_zero,Nat.cast_zero,nearest_zero]
    exact ht.nonneg
  | succ i => exact (hc.short_value ht (Nat.lt_succ_self i)).le

theorem mono (hc : h.CrossedAt t i) (ht : Denotes t θ) {u : Float} {η : ℚ} {j : Nat}
    (hd : h.CrossedAt u j) (hu : Denotes u η) (hle : θ≤η) : i≤j := by
  by_contra hlt
  have hshort := hc.short_value ht (not_le.mp hlt)
  have hreached := hd.reached_value hu
  linarith

end CrossedAt

def gain (h : Histogram) (i : Nat) : Counter := h.running (i+1)-h.running i

theorem gain_toNat (h : Histogram) (i : Nat) :
    (h.gain i).toNat=(h.running (i+1)).toNat-(h.running i).toNat :=
  UInt64.toNat_sub_of_le _ _ (h.running_le_next i)

theorem gain_cast (h : Histogram) (i : Nat) :
    ((h.gain i).toNat : ℚ)=(h.running (i+1)).toNat-(h.running i).toNat := by
  rw [gain_toNat,Nat.cast_sub (UInt64.le_iff_toNat_le.mp (h.running_le_next i))]

/-- How far into the bucket at a position a threshold lies. -/
def depth (h : Histogram) (i : Nat) (θ : ℚ) : ℚ :=
  if h.running (i+1)=h.running i then 0
  else nearest (nearest (θ-nearest (h.running i).toNat)/nearest (h.gain i).toNat)

theorem one_le_nearest_gain (hne : h.running (i+1)≠h.running i) :
    1≤nearest (h.gain i).toNat := by
  have hle := UInt64.le_iff_toNat_le.mp (h.running_le_next i)
  have hdiff : (h.running (i+1)).toNat≠(h.running i).toNat := fun heq =>
    hne (UInt64.toNat_inj.mp heq)
  have hgain : 1≤(h.gain i).toNat := by
    rw [gain_toNat]
    omega
  rw [←nearest_one]
  exact nearest_mono (by norm_num) (by exact_mod_cast hgain)

theorem depth_mono {θ η : ℚ} (hlow : nearest (h.running i).toNat≤θ) (hle : θ≤η) :
    h.depth i θ≤h.depth i η := by
  unfold depth
  split_ifs with hsame
  · exact le_rfl
  · have hgain := one_le_nearest_gain hsame
    have hfirst : nearest (θ-nearest (h.running i).toNat)≤
        nearest (η-nearest (h.running i).toNat) := nearest_mono (by linarith) (by linarith)
    apply nearest_mono (div_nonneg (nearest_nonneg (by linarith)) (by linarith))
    exact div_le_div_of_nonneg_right hfirst (by linarith)

theorem depth_nonneg (hlow : nearest (h.running i).toNat≤θ) : 0≤h.depth i θ := by
  unfold depth
  split_ifs with hsame
  · exact le_rfl
  · have hgain := one_le_nearest_gain hsame
    exact nearest_nonneg (div_nonneg (nearest_nonneg (by linarith)) (by linarith))

theorem difference_le (hc : h.CrossedAt t i) (ht : Denotes t θ) :
    nearest (θ-nearest (h.running i).toNat)≤2^64 := by
  have hlow := hc.before_le ht
  have hhigh := (hc.reached_value ht).trans (nearest_word_le _)
  have hnonneg := nearest_natCast_nonneg (h.running i).toNat
  exact nearest_le_two_pow (by linarith) (by linarith)

theorem depth_le (hc : h.CrossedAt t i) (ht : Denotes t θ) : h.depth i θ≤2^64 := by
  have hlow := hc.before_le ht
  have hfirst := difference_le hc ht
  unfold depth
  split_ifs with hsame
  · positivity
  · have hgain := one_le_nearest_gain hsame
    have hpos : 0≤nearest (θ-nearest (h.running i).toNat) := nearest_nonneg (by linarith)
    apply nearest_le_two_pow (div_nonneg hpos (by linarith))
    exact (div_le_self hpos hgain).trans hfirst

theorem denotes_fractionInto (hc : h.CrossedAt t i) (ht : Denotes t θ) :
    Denotes (fractionInto ⟨i,h.running i,h.running (i+1)⟩ t) (h.depth i θ) := by
  have hmax := (depth_le hc ht).trans_lt (two_pow_lt_max (by norm_num))
  have hfirst := (difference_le hc ht).trans_lt (two_pow_lt_max (by norm_num))
  unfold depth at hmax ⊢
  unfold fractionInto
  simp only
  split_ifs at hmax ⊢ with hsame
  · exact denotes_zero
  · have hgain := one_le_nearest_gain hsame
    have hdifference := ht.sub (denotes_toFloat (h.running i)) (hc.before_le ht) hfirst
    exact hdifference.div (denotes_toFloat (h.gain i)) (by linarith) hmax

end SchedLatency.Histogram
