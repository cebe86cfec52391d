import SchedLatency.Proofs.Crossing
import SchedLatency.Proofs.Double.Unsigned
import SchedLatency.Proofs.OrderStatistic

namespace SchedLatency.Histogram

open Bucket (observations)
open Double

def pointAt (start finish depth : ℚ) : ℚ := nearest (start+nearest (depth*nearest (finish-start)))

theorem pointAt_mono {start finish d e : ℚ} (hstart : 0 ≤ start) (hle : start≤finish) (hd : 0≤d)
    (hde : d≤e) : pointAt start finish d≤pointAt start finish e := by
  have hwidth : 0≤nearest (finish-start) := nearest_nonneg (by linarith)
  have hproduct : nearest (d*nearest (finish-start))≤nearest (e*nearest (finish-start)) :=
    nearest_mono (mul_nonneg hd hwidth) (mul_le_mul_of_nonneg_right hde hwidth)
  have hnonneg := nearest_nonneg (mul_nonneg hd hwidth)
  exact nearest_mono (by linarith) (by linarith)

theorem pointAt_zero {start : ℚ} (hdouble : nearest start=start) (finish : ℚ) :
    pointAt start finish 0=start := by
  rw [pointAt,zero_mul,nearest_zero,add_zero,hdouble]

theorem pointAt_one {m n : ℕ} (hmn : m ≤ n) (hn : n≤2^53) : pointAt m n 1=n := by
  have hwidth : nearest ((n : ℚ)-m)=(n : ℚ)-m := by
    rw [←Nat.cast_sub hmn]
    exact nearest_natCast (by omega)
  rw [pointAt,hwidth,one_mul,hwidth,add_sub_cancel,nearest_natCast hn]

/-- Between ends that words can have nothing overflows on the way to the point. -/
theorem unsigned_pointAt {x y z : Float} {start finish depth : ℚ} (hx : Unsigned x start)
    (hy : Denotes y finish) (hz : Denotes z depth) (hle : start≤finish) (hfinish : finish≤2^65)
    (hdepth : depth≤2^64) : Unsigned (x+z*(y-x)) (pointAt start finish depth) := by
  have hstart := hx.denotes.nonneg
  have hwidth : nearest (finish-start)≤2^65 := nearest_le_two_pow (by linarith) (by linarith)
  have hnonneg : 0≤nearest (finish-start) := nearest_nonneg (by linarith)
  have hproduct : nearest (depth*nearest (finish-start))≤2^129 := by
    apply nearest_le_two_pow (mul_nonneg hz.nonneg hnonneg)
    calc
      depth*nearest (finish-start)≤2^64*2^65 :=
        mul_le_mul hdepth hwidth hnonneg (by positivity)
      _=2^129 := by norm_num
  have hsum : pointAt start finish depth≤2^130 := by
    have hpositive := nearest_nonneg (mul_nonneg hz.nonneg hnonneg)
    exact nearest_le_two_pow (by linarith) (by linarith)
  have width := hy.sub hx.denotes hle (hwidth.trans_lt (two_pow_lt_max (by norm_num)))
  have product := hz.mul width (hproduct.trans_lt (two_pow_lt_max (by norm_num)))
  exact hx.add product (hsum.trans_lt (two_pow_lt_max (by norm_num)))

variable {h : Histogram} {p t : Float} {θ η : ℚ} {i j : Nat}

def endValue (h : Histogram) (i : Nat) : ℚ :=
  match h.buckets[i+1]? with
  | some b => nearest b.slot.toNat
  | none => nearest (nearest (h.slotAt i).toNat*2)

theorem double_slot_le (v : UInt64) : nearest (nearest v.toNat*2)≤2^65 := by
  have hv := nearest_word_le v
  have hnonneg := nearest_natCast_nonneg v.toNat
  exact nearest_le_two_pow (by linarith) (by linarith)

theorem endValue_le (h : Histogram) (i : Nat) : h.endValue i≤2^65 := by
  unfold endValue
  split
  · rename_i b _
    have hb := nearest_word_le b.slot
    linarith
  · exact double_slot_le _

theorem denotes_endOf (h : Histogram) (i : Nat) : Denotes (h.endOf i) (h.endValue i) := by
  unfold endOf endValue
  cases h.buckets[i+1]? with
  | some b => exact denotes_toFloat _
  | none =>
    apply (denotes_toFloat _).mul denotes_two
    exact (double_slot_le _).trans_lt (two_pow_lt_max (by norm_num))

theorem slotAt_of_getElem? {b : Bucket} (hb : h.buckets[i]?=some b) : h.slotAt i=b.slot := by
  simp [slotAt,hb]

theorem slotAt_le_next {b : Bucket} (hs : h.Sorted) (hb : h.buckets[i+1]?=some b) :
    (h.slotAt i).toNat≤b.slot.toNat := by
  have hlt : i+1<h.buckets.length := (List.getElem?_eq_some_iff.mp hb).1
  have hle := slotAt_mono hs (Nat.le_succ i) hlt
  rwa [slotAt_of_getElem? hb,UInt64.le_iff_toNat_le] at hle

theorem slot_le_endValue (hs : h.Sorted) (i : Nat) : nearest (h.slotAt i).toNat≤h.endValue i := by
  have hnonneg := nearest_natCast_nonneg (h.slotAt i).toNat
  unfold endValue
  split
  · rename_i b hb
    exact nearest_mono (by positivity) (by exact_mod_cast slotAt_le_next hs hb)
  · have hself := nearest_nearest (x := (h.slotAt i).toNat) (by positivity)
    have hle := nearest_mono hnonneg (y := nearest (h.slotAt i).toNat*2) (by linarith)
    rwa [hself] at hle

def positionIn (h : Histogram) (i : Nat) (θ : ℚ) : ℚ :=
  pointAt (nearest (h.slotAt i).toNat) (h.endValue i) (h.depth i θ)

theorem slot_le_positionIn (hs : h.Sorted) (hlow : nearest (h.running i).toNat≤θ) :
    nearest (h.slotAt i).toNat≤h.positionIn i θ := by
  have hself := nearest_nearest (x := (h.slotAt i).toNat) (by positivity)
  have hle := pointAt_mono (nearest_natCast_nonneg _) (slot_le_endValue hs i) le_rfl
    (depth_nonneg hlow)
  rwa [pointAt_zero hself] at hle

theorem positionIn_mono (hs : h.Sorted) (hlow : nearest (h.running i).toNat≤θ) (hle : θ≤η) :
    h.positionIn i θ≤h.positionIn i η :=
  pointAt_mono (nearest_natCast_nonneg _) (slot_le_endValue hs i) (depth_nonneg hlow)
    (depth_mono hlow hle)

theorem unsigned_interpolate (hs : h.Sorted) (hc : h.CrossedAt (h.threshold p) i)
    (hstop : h.crossing p=⟨i,h.running i,h.running (i+1)⟩) (hθ : Denotes (h.threshold p) θ) :
    Unsigned (h.interpolate p) (h.positionIn i θ) := by
  have hfraction := denotes_fractionInto hc hθ
  unfold interpolate
  rw [hstop]
  exact unsigned_pointAt (unsigned_toFloat _) (denotes_endOf h i) hfraction (slot_le_endValue hs i)
    (h.endValue_le i) (depth_le hc hθ)

/-- Counts and slots that doubles hold exactly, their sums and the doubled slots included. -/
structure Exact (h : Histogram) : Prop where
  counts : observations h.buckets≤2^53
  slots : ∀ v∈h.slots,v.toNat≤2^52

def upperEnd (h : Histogram) (i : Nat) : ℕ :=
  match h.buckets[i+1]? with
  | some b => b.slot.toNat
  | none => 2*(h.slotAt i).toNat

theorem slotAt_le_upperEnd (hs : h.Sorted) (i : Nat) : (h.slotAt i).toNat≤h.upperEnd i := by
  unfold upperEnd
  split
  · rename_i b hb
    exact slotAt_le_next hs hb
  · omega

theorem upperEnd_le_slotAt (hs : h.Sorted) (hij : i < j) (hj : j<h.buckets.length) :
    h.upperEnd i≤(h.slotAt j).toNat := by
  have hnext : h.buckets[i+1]?=some h.buckets[i+1] := List.getElem?_eq_getElem (by omega)
  have hle := slotAt_mono hs (Nat.succ_le_of_lt hij) hj
  rw [slotAt_of_getElem? hnext,UInt64.le_iff_toNat_le] at hle
  unfold upperEnd
  rw [hnext]
  exact hle

namespace Exact

theorem slotAt_le (hx : h.Exact) (i : Nat) : (h.slotAt i).toNat≤2^52 := by
  rcases Nat.lt_or_ge i h.buckets.length with hlt | hge
  · exact hx.slots _ (mem_slots_iff.mpr ⟨i,hlt,rfl⟩)
  · simp [slotAt,hge]

theorem upperEnd_le (hx : h.Exact) (i : Nat) : h.upperEnd i≤2^53 := by
  have hi := hx.slotAt_le i
  unfold upperEnd
  split
  · rename_i b hb
    have hnext := hx.slotAt_le (i+1)
    rw [slotAt_of_getElem? hb] at hnext
    omega
  · omega

theorem nearest_slotAt (hx : h.Exact) (i : Nat) :
    nearest (h.slotAt i).toNat=(h.slotAt i).toNat := by
  have hi := hx.slotAt_le i
  exact nearest_natCast (by omega)

theorem endValue_eq (hx : h.Exact) (i : Nat) : h.endValue i=h.upperEnd i := by
  have hle := hx.upperEnd_le i
  unfold upperEnd at hle
  unfold endValue upperEnd
  cases hb : h.buckets[i+1]? with
  | some b =>
    rw [hb] at hle
    exact nearest_natCast hle
  | none =>
    rw [hb] at hle
    simp only at hle ⊢
    have hdouble : ((h.slotAt i).toNat : ℚ)*2=(2*(h.slotAt i).toNat : ℕ) := by
      push_cast
      ring
    rw [hx.nearest_slotAt,hdouble,nearest_natCast hle]

theorem running_toNat (hx : h.Exact) (k : Nat) :
    (h.running k).toNat=observations (h.buckets.take k) := by
  have hcounts := hx.counts
  have split := Bucket.observations_take_add_drop h.buckets k
  have hfit : observations (h.buckets.take k)<2^64 := by omega
  rw [running_eq]
  exact Counter.toNat_clamp_of_lt hfit

theorem nearest_running (hx : h.Exact) (k : Nat) :
    nearest (h.running k).toNat=(h.running k).toNat := by
  have hcounts := hx.counts
  have split := Bucket.observations_take_add_drop h.buckets k
  rw [hx.running_toNat]
  exact nearest_natCast (by omega)

theorem nearest_gain (hx : h.Exact) (i : Nat) : nearest (h.gain i).toNat=(h.gain i).toNat := by
  have hcounts := hx.counts
  have split := Bucket.observations_take_add_drop h.buckets (i+1)
  rw [gain_toNat,hx.running_toNat,hx.running_toNat]
  exact nearest_natCast (by omega)

theorem depth_reached (hx : h.Exact) (hne : h.running (i+1)≠h.running i) :
    h.depth i (h.running (i+1)).toNat=1 := by
  have hgain := one_le_nearest_gain hne
  have hself := hx.nearest_gain i
  rw [depth,if_neg hne,hx.nearest_running,←gain_cast,hself,
    div_self (by linarith),nearest_one]

theorem depth_le_one (hx : h.Exact) (hlow : nearest (h.running i).toNat≤θ)
    (hhigh : θ≤(h.running (i+1)).toNat) : h.depth i θ≤1 := by
  by_cases hsame : h.running (i+1)=h.running i
  · rw [depth,if_pos hsame]
    norm_num
  · rw [←hx.depth_reached hsame]
    exact depth_mono hlow hhigh

theorem positionIn_eq (hx : h.Exact) (i : Nat) (θ : ℚ) :
    h.positionIn i θ=pointAt (h.slotAt i).toNat (h.upperEnd i) (h.depth i θ) := by
  rw [positionIn,hx.nearest_slotAt,hx.endValue_eq]

theorem positionIn_le (hx : h.Exact) (hs : h.Sorted) (hlow : nearest (h.running i).toNat≤θ)
    (hhigh : θ≤(h.running (i+1)).toNat) : h.positionIn i θ≤h.upperEnd i := by
  have hends := slotAt_le_upperEnd hs i
  rw [hx.positionIn_eq]
  calc
    pointAt (h.slotAt i).toNat (h.upperEnd i) (h.depth i θ)≤
        pointAt (h.slotAt i).toNat (h.upperEnd i) 1 :=
      pointAt_mono (by positivity) (by exact_mod_cast hends) (depth_nonneg hlow)
        (hx.depth_le_one hlow hhigh)
    _=h.upperEnd i := pointAt_one hends (hx.upperEnd_le i)

theorem reached_value (hx : h.Exact) (hc : h.CrossedAt t i) (ht : Denotes t θ) :
    θ≤(h.running (i+1)).toNat := by
  rw [←hx.nearest_running]
  exact hc.reached_value ht

theorem nearest_total (hx : h.Exact) : nearest h.total.toNat=h.total.toNat := by
  rw [←running_length]
  exact hx.nearest_running _

theorem total_toNat (hx : h.Exact) : h.total.toNat=observations h.buckets :=
  Histogram.total_toNat (hx.counts.trans_lt (by norm_num))

/-- A greater threshold is never answered by a lesser position, in the same bucket or a later one. -/
theorem positionIn_le_of_le (hx : h.Exact) (hs : h.Sorted) {u : Float} (hc : h.CrossedAt t i)
    (ht : Denotes t θ) (hd : h.CrossedAt u j) (hu : Denotes u η) (hle : θ≤η) :
    h.positionIn i θ≤h.positionIn j η := by
  rcases (hc.mono ht hd hu hle).eq_or_lt with rfl | hlt
  · exact positionIn_mono hs (hc.before_le ht) hle
  · have hends : (h.upperEnd i : ℚ)≤(h.slotAt j).toNat := by
      exact_mod_cast upperEnd_le_slotAt hs hlt hd.lt
    calc
      h.positionIn i θ≤h.upperEnd i :=
        hx.positionIn_le hs (hc.before_le ht) (hx.reached_value hc ht)
      _≤nearest (h.slotAt j).toNat := by rwa [hx.nearest_slotAt]
      _≤h.positionIn j η := slot_le_positionIn hs (hd.before_le hu)

end Exact
end SchedLatency.Histogram
