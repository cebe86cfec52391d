import SchedLatency.Counter
import SchedLatency.Proofs.Double.Packing

namespace SchedLatency.Double

open Float.Model Float.Model.UnpackedFloat

/-- A mantissa that fills its bits is in units no coarser than its grid. -/
theorem le_gridExponent_of_full {m : ℕ} {e : ℤ} (full : 2^52 ≤ m) : e≤gridExponent (m*2^e) := by
  have hx : (0 : ℚ) < m*2^e := by positivity
  have := (Int.zpow_le_iff_le_log (by norm_num : 1<2) hx).mp (two_zpow_le_of_full full e)
  unfold gridExponent
  omega

theorem Reads.nonneg {u : UnpackedFloat} {v : ℚ} (h : Reads u v) : 0≤v := by
  cases h <;> positivity

theorem reads_mul {u w : UnpackedFloat} {a b : ℚ} (hu : Reads u a) (hw : Reads w b) :
    Reads (UnpackedFloat.mul .binary64 u w) (nearest (a*b)) := by
  rcases hu with s | @⟨m,e,hm,bits,low,full⟩
  · rw [zero_mul,nearest_zero]
    rcases hw with s | hm
    · exact .zero _
    · exact .zero _
  · rcases hw with s | @⟨k,f,hk,bits',low',full'⟩
    · rw [mul_zero,nearest_zero]
      exact .zero _
    · have value : (m*2^e*(k*2^f) : ℚ)=(m*k : ℕ)*2^(e+f) := by
        rw [two_zpow_add]
        push_cast
        ring
      have hpos : 0 < m*k := Nat.mul_pos hm hk
      rw [value]
      apply reads_roundWithAccuracy (by positivity)
      · rw [mul_div_cancel_right₀ _ (by positivity)]
        exact tells_exact _
      · -- Below the common grid of the least doubles nothing is to be shown, and above it at least
        -- one of the mantissas fills its bits.
        rcases le_or_gt (e+f) (-1074) with hlow | hhigh
        · exact hlow.trans (le_gridExponent _)
        · apply le_gridExponent_of_full
          rcases full with he | hfull
          · have hfull' := full'.resolve_left (by omega)
            exact hfull'.trans (Nat.le_mul_of_pos_left k hm)
          · exact hfull.trans (Nat.le_mul_of_pos_right m hk)

/-- A quotient is at most one bit shorter than the sizes of its operands say. -/
theorem two_zpow_le_div {m k : ℕ} (hm : 0 < m) (hk : 0<k) :
    (2 : ℚ)^((m.log2 : ℤ)-k.log2-1) ≤ m/k := by
  have low : ((2^m.log2 : ℕ) : ℚ) ≤ m := by exact_mod_cast Nat.log2_self_le hm.ne'
  have high : (k : ℚ)≤(2^(k.log2+1) : ℕ) := by exact_mod_cast Nat.lt_log2_self.le
  push_cast at low high
  have hsplit : (2 : ℚ)^((m.log2 : ℤ)-k.log2-1)=2^m.log2/2^(k.log2+1) := by
    rw [sub_sub,zpow_sub₀ two_ne_zero,zpow_natCast]
    exact_mod_cast rfl
  rw [hsplit]
  exact div_le_div₀ (by positivity) low (by exact_mod_cast hk) high

theorem reads_div {u w : UnpackedFloat} {a b : ℚ} (hu : Reads u a) (hw : Reads w b) (hb : 0<b) :
    Reads (UnpackedFloat.div .binary64 u w) (nearest (a/b)) := by
  rcases hw with s | @⟨k,f,hk,bits',low',full'⟩
  · exact absurd hb (lt_irrefl 0)
  · rcases hu with s | @⟨m,e,hm,bits,low,full⟩
    · rw [zero_div,nearest_zero]
      exact .zero _
    · let target := min (e-f) (Format.binary64.targetExponent (totalExponent m e-totalExponent k f))
      let n := (e-f-target).toNat
      have hn : e-f=target+n := by omega
      change Reads (roundWithAccuracy .binary64 .positive (m<<<n/k) target
        (accuracyOfFraction (m<<<n%k) k)) _
      have hk' : (0 : ℚ)<k := by exact_mod_cast hk
      have hm' : (0 : ℚ) < m := by exact_mod_cast hm
      have value : (m*2^e/(k*2^f) : ℚ)=m/k*2^(e-f) := by
        rw [zpow_sub₀ two_ne_zero]
        field_simp
      rw [value]
      apply reads_roundWithAccuracy (by positivity)
      · have steps : (m/k*2^(e-f)/2^target : ℚ)=(m<<<n : ℕ)/k := by
          rw [hn,two_zpow_add,zpow_natCast,Nat.shiftLeft_eq]
          push_cast
          field_simp
        rw [steps]
        exact tells_fraction _ hk
      · have hx : (0 : ℚ) < m/k*2^(e-f) := by positivity
        have hlog : (m.log2 : ℤ)-k.log2-1+(e-f)≤Int.log 2 (m/k*2^(e-f) : ℚ) := by
          apply (Int.zpow_le_iff_le_log (by norm_num : 1<2) hx).mp
          rw [Nat.cast_ofNat,two_zpow_add]
          exact mul_le_mul_of_nonneg_right (two_zpow_le_div hm hk) (by positivity)
        have htarget : target ≤ max (totalExponent m e-totalExponent k f-53) (-1074) :=
          min_le_right _ _
        unfold totalExponent at htarget
        unfold gridExponent
        omega

theorem reads_round {m : ℕ} (hm : 0 < m) (e : ℤ) :
    Reads (UnpackedFloat.round .binary64 .positive m e) (nearest (m*2^e)) := by
  let target := Format.binary64.targetExponent (totalExponent m e)
  let k := (e-target).toNat
  change Reads (roundWithAccuracy .binary64 .positive (m<<<k) (e-k) .exact) _
  apply reads_roundWithAccuracy (by positivity)
  · have steps : (m*2^e/2^(e-k) : ℚ)=(m<<<k : ℕ) := by
      rw [zpow_sub₀ two_ne_zero,zpow_natCast,Nat.shiftLeft_eq]
      push_cast
      field_simp
    rw [steps]
    exact tells_exact _
  · have hfloor : ⌊(m*2^e/2^e : ℚ)⌋=m := by
      rw [mul_div_cancel_right₀ _ (by positivity),Int.floor_natCast]
    have hlog := log_eq hm hfloor
    have htarget : target=max ((m.log2 : ℤ)+e-52) (-1074) := targetExponent_eq _ _
    unfold gridExponent
    omega

theorem reads_normalize (m : ℕ) (e : ℤ) (s : Sign) :
    Reads (UnpackedFloat.normalize .binary64 m e s) (nearest (m*2^e)) := by
  rcases Nat.eq_zero_or_pos m with rfl | hm
  · rw [Nat.cast_zero (R := ℚ),zero_mul,nearest_zero]
    exact .zero _
  · have hcompare : compare (m : ℤ) 0=.gt := Int.compare_eq_gt.mpr (by omega)
    unfold UnpackedFloat.normalize
    rw [hcompare]
    exact reads_round hm e

theorem reads_ofUInt64 (n : UInt64) : Reads (.ofUInt64 .binary64 n) (nearest n.toNat) := by
  have h := reads_normalize n.toNat 0 .positive
  rw [zpow_zero,mul_one] at h
  exact h

/-- A number in greater units is the greater one, however large the other mantissa. -/
theorem lt_of_exponent_lt {m k : ℕ} {e f : ℤ} (bits : m<2^53) (low : -1074≤e)
    (full : f=-1074 ∨ 2^52≤k) (h : e<f) : (m*2^e : ℚ)<k*2^f := by
  have hfull : 2^52≤k := full.resolve_left (by omega)
  calc
    (m*2^e : ℚ)<(2^53 : ℕ)*2^e := by
      apply mul_lt_mul_of_pos_right _ (by positivity)
      exact_mod_cast bits
    _=2^(53+e) := by
      rw [two_zpow_add]
      push_cast
      rfl
    _≤2^(52+f) := zpow_le_zpow_right₀ one_le_two (by omega)
    _≤k*2^f := two_zpow_le_of_full hfull f

theorem Reads.le_iff {u w : UnpackedFloat} {a b : ℚ} (hu : Reads u a) (hw : Reads w b) :
    u.le w ↔ a≤b := by
  rcases hu with s | @⟨m,e,hm,bits,low,full⟩ <;> rcases hw with s' | @⟨k,f,hk,bits',low',full'⟩
  · exact iff_of_true rfl le_rfl
  · exact iff_of_true rfl (by positivity)
  · have hpos : (0 : ℚ) < m*2^e := by positivity
    exact iff_of_false Bool.false_ne_true (not_le.mpr hpos)
  · change ((compare e f).then (compare m k)).isLE=true ↔ _
    rcases lt_trichotomy e f with hlt | rfl | hgt
    · rw [compare_lt_iff_lt.mpr hlt]
      exact iff_of_true rfl (lt_of_exponent_lt bits low full' hlt).le
    · have hunit : (0 : ℚ)<2^e := by positivity
      rw [compare_eq_iff_eq.mpr rfl,mul_le_mul_iff_left₀ hunit,Nat.cast_le]
      exact Nat.isLE_compare
    · rw [compare_gt_iff_gt.mpr hgt]
      exact iff_of_false Bool.false_ne_true (not_le.mpr (lt_of_exponent_lt bits' low' full hgt))

theorem Reads.toUInt64_eq {u : UnpackedFloat} {v : ℚ} (hu : Reads u v) :
    u.toUInt64=Counter.clamp ⌊v⌋₊ := by
  rcases hu with s | @⟨m,e,hm,bits,low,full⟩
  · rw [Nat.floor_zero]
    rfl
  · let n := (e-0).toNat
    let k := (0-(e-n)).toNat
    change Counter.clamp (ExtendedMantissa.ofMantissaAndAccuracy (m<<<n) .exact>>>k).mantissa=_
    have he : e+k=n := by omega
    have value : (m*2^e : ℚ)=(m<<<n : ℕ)/2^k := by
      rw [eq_div_iff (by positivity),mul_assoc,←zpow_natCast 2 k,←two_zpow_add,he,zpow_natCast,
        Nat.shiftLeft_eq]
      push_cast
      rfl
    have hfloor := ((tells_exact (m<<<n)).shift k).floor
    rw [value,←Int.floor_toNat,hfloor,Int.toNat_natCast]

theorem le_iff_unpack {x y : Float} : x≤y ↔ x.toModel.unpack.le y.toModel.unpack := by
  change decide (x.toModel≤y.toModel)=true ↔ _
  rw [decide_eq_true_iff]
  rfl

/-- A double that is finite and not negative, with its value. -/
def Denotes (x : Float) (v : ℚ) : Prop := Reads x.toModel.unpack v

theorem denotes_pack {u : UnpackedFloat} {v : ℚ} (h : Reads u v) (hv : v<2^1024) :
    Denotes (.ofModel (.pack u)) v := by
  change Reads (UnpackedFloat.unpack .binary64 (UnpackedFloat.pack .binary64 u)) v
  rw [unpack_pack h.abs hv]
  exact h

theorem nearest_le_two_pow {x : ℚ} {n : ℕ} (hx : 0≤x) (h : x≤2^n) : nearest x≤2^n := by
  rw [←nearest_two_pow n]
  exact nearest_mono hx h

theorem nearest_word_le (n : UInt64) : nearest n.toNat≤2^64 :=
  nearest_le_two_pow n.toNat.cast_nonneg (by exact_mod_cast n.toNat_lt.le)

theorem two_pow_lt_max {n : ℕ} (hn : n<1024) : (2 : ℚ)^n<2^1024 :=
  pow_lt_pow_right₀ one_lt_two hn

theorem denotes_toFloat (n : UInt64) : Denotes n.toFloat (nearest n.toNat) :=
  denotes_pack (reads_ofUInt64 n) ((nearest_word_le n).trans_lt (two_pow_lt_max (by norm_num)))

theorem denotes_zero : Denotes 0 0 := Reads.zero .positive

theorem denotes_two : Denotes 2 2 := by
  have h : Reads (.finite .positive (2*2^51) (-51) (by norm_num)) ((2*2^51 : ℕ)*2^(-51 : ℤ)) :=
    .finite _ (by norm_num) (by norm_num) (.inr (by norm_num))
  have value : ((2*2^51 : ℕ)*2^(-51 : ℤ) : ℚ)=2 := by norm_num
  rw [value] at h
  exact h

theorem denotes_hundred : Denotes 100 100 := by
  have h : Reads (.finite .positive (100*2^46) (-46) (by norm_num)) ((100*2^46 : ℕ)*2^(-46 : ℤ)) :=
    .finite _ (by norm_num) (by norm_num) (.inr (by norm_num))
  have value : ((100*2^46 : ℕ)*2^(-46 : ℤ) : ℚ)=100 := by norm_num
  rw [value] at h
  exact h

namespace Denotes

variable {x y : Float} {a b : ℚ}

theorem nonneg (h : Denotes x a) : 0≤a := Reads.nonneg h

theorem mul (hx : Denotes x a) (hy : Denotes y b) (hmax : nearest (a*b)<2^1024) :
    Denotes (x*y) (nearest (a*b)) :=
  denotes_pack (reads_mul hx hy) hmax

theorem div (hx : Denotes x a) (hy : Denotes y b) (hb : 0<b) (hmax : nearest (a/b)<2^1024) :
    Denotes (x/y) (nearest (a/b)) :=
  denotes_pack (reads_div hx hy hb) hmax

theorem le_iff (hx : Denotes x a) (hy : Denotes y b) : x≤y ↔ a≤b := by
  rw [le_iff_unpack,Reads.le_iff hx hy]

theorem toUInt64_eq (h : Denotes x a) : x.toUInt64=Counter.clamp ⌊a⌋₊ := Reads.toUInt64_eq h

theorem exists_of_le (hy : Denotes y b) (hpos : 0≤x) (hle : x≤y) : ∃ a,Denotes x a := by
  rw [le_iff_unpack] at hpos hle
  have hzero : (0 : Float).toModel.unpack=.zero .positive := rfl
  rw [hzero] at hpos
  unfold Denotes at hy ⊢
  cases hu : x.toModel.unpack with
  | notANumber =>
    rw [hu] at hpos
    nomatch hpos
  | zero s => exact ⟨0,.zero s⟩
  | infinity s =>
    rw [hu] at hpos hle
    cases s with
    | negative => nomatch hpos
    | positive =>
      generalize y.toModel.unpack=w at hy hle
      cases hy <;> nomatch hle
  | finite s m e hm =>
    rw [hu] at hpos
    cases s with
    | negative => nomatch hpos
    | positive => exact ⟨_,reads_of_unpack hu⟩

end Denotes

end SchedLatency.Double
