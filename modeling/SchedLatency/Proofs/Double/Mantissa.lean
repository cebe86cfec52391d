import SchedLatency.Proofs.Double.Nearest

namespace SchedLatency.Double

open Float.Model Float.Model.UnpackedFloat

/-- What a mantissa and its residual bits tell about a number in units of its last place. -/
def Tells (em : ExtendedMantissa) (x : ℚ) : Prop :=
  match em.roundBit,em.stickyBit with
  | false,false => x=em.mantissa
  | false,true => em.mantissa<x ∧ x<em.mantissa+1/2
  | true,false => x=em.mantissa+1/2
  | true,true => em.mantissa+1/2<x ∧ x<em.mantissa+1

theorem tells_exact (m : ℕ) : Tells (ExtendedMantissa.ofMantissaAndAccuracy m .exact) m := rfl

theorem tells_fraction (num : ℕ) {den : ℕ} (hden : 0<den) :
    Tells (.ofMantissaAndAccuracy (num/den) (accuracyOfFraction (num%den) den)) (num/den : ℚ) := by
  have hd : (0 : ℚ)<den := by exact_mod_cast hden
  have split : (num : ℚ)=den*(num/den : ℕ)+(num%den : ℕ) := by
    exact_mod_cast (Nat.div_add_mod num den).symm
  have small : ((num%den : ℕ) : ℚ)<den := by exact_mod_cast Nat.mod_lt num hden
  have value : (num/den : ℚ)=(num/den : ℕ)+(num%den : ℕ)/den := by
    rw [div_eq_iff hd.ne',add_mul,div_mul_cancel₀ _ hd.ne',split]
    ring
  unfold accuracyOfFraction
  rw [value]
  split
  · rename_i hzero
    rw [hzero]
    simp [Tells,ExtendedMantissa.ofMantissaAndAccuracy]
  · rename_i hpos
    have hr : (0 : ℚ)<(num%den : ℕ) := by exact_mod_cast Nat.pos_of_ne_zero hpos
    have positive := div_pos hr hd
    have below : ((num%den : ℕ) : ℚ)/den<1 := (div_lt_one hd).mpr small
    rcases hc : compare (2*(num%den)) den with _ | _ | _
    · have h : (2 : ℚ)*(num%den : ℕ)<den := by exact_mod_cast Nat.compare_eq_lt.mp hc
      have : ((num%den : ℕ) : ℚ)/den<1/2 := by rw [div_lt_iff₀ hd]; linarith
      simp only [Tells,ExtendedMantissa.ofMantissaAndAccuracy]
      constructor <;> linarith
    · have h : (2 : ℚ)*(num%den : ℕ)=den := by exact_mod_cast Nat.compare_eq_eq.mp hc
      have : ((num%den : ℕ) : ℚ)/den=1/2 := by rw [div_eq_iff hd.ne']; linarith
      simp only [Tells,ExtendedMantissa.ofMantissaAndAccuracy]
      linarith
    · have h : (den : ℚ)<2*(num%den : ℕ) := by exact_mod_cast Nat.compare_eq_gt.mp hc
      have : 1/2<((num%den : ℕ) : ℚ)/den := by rw [lt_div_iff₀ hd]; linarith
      simp only [Tells,ExtendedMantissa.ofMantissaAndAccuracy]
      constructor <;> linarith

namespace Tells

variable {em : ExtendedMantissa} {x : ℚ}

theorem floor (h : Tells em x) : ⌊x⌋=em.mantissa := by
  obtain ⟨m,r,s⟩ := em
  apply Int.floor_eq_iff.mpr
  cases r <;> cases s <;> simp only [Tells] at h <;> push_cast <;> constructor <;> linarith

theorem half (h : Tells em x) : Tells em.shiftRightOne (x/2) := by
  obtain ⟨m,r,s⟩ := em
  have split : (m : ℚ)=2*(m/2 : ℕ)+(m%2 : ℕ) := by exact_mod_cast (Nat.div_add_mod m 2).symm
  rcases Nat.mod_two_eq_zero_or_one m with hm | hm <;> rw [hm] at split <;> push_cast at split <;>
    cases r <;> cases s <;> simp only [Tells,ExtendedMantissa.shiftRightOne,hm] at h ⊢ <;>
    simp <;> (try constructor) <;> linarith

theorem shift (h : Tells em x) (n : ℕ) : Tells (em>>>n) (x/2^n) := by
  change Tells (n.repeat ExtendedMantissa.shiftRightOne em) _
  induction n with
  | zero => simpa [Nat.repeat] using h
  | succ n ih =>
    rw [pow_succ,←div_div]
    exact ih.half

theorem rounded (h : Tells em x) : (em.roundedMantissa : ℤ)=toEven x := by
  have hfloor := h.floor
  obtain ⟨m,r,s⟩ := em
  unfold toEven
  rw [hfloor]
  cases r <;> cases s <;> simp only [Tells] at h <;>
    simp only [ExtendedMantissa.roundedMantissa,ExtendedMantissa.accuracy,
      Accuracy.roundToNearestEven] <;> push_cast <;> split_ifs <;> first | rfl | linarith

end Tells

/-- An unpacked double that is not negative, with its value, in the one form that packing keeps. -/
inductive Reads : UnpackedFloat → ℚ → Prop
  | zero (s : Sign) : Reads (.zero s) 0
  | finite {m : ℕ} {e : ℤ} (h : 0 < m) (bits : m<2^53) (low : -1074≤e) (full : e=-1074 ∨ 2^52 ≤ m) :
      Reads (.finite .positive m e h) (m*2^e)

theorem targetExponent_eq (m : ℕ) (e : ℤ) :
    Format.binary64.targetExponent (totalExponent m e)=max (m.log2+e-52) (-1074) := by
  change max ((m.log2 : ℤ)+1+e-53) (-1074)=_
  congr 1
  ring

theorem log_eq {x : ℚ} {m : ℕ} {e : ℤ} (hm : 0 < m) (hfloor : ⌊x/2^e⌋=m) :
    Int.log 2 x=m.log2+e := by
  have hunit : (0 : ℚ)<2^e := by positivity
  obtain ⟨low,high⟩ := Int.floor_eq_iff.mp hfloor
  rw [le_div_iff₀ hunit] at low
  rw [div_lt_iff₀ hunit] at high
  have hx : 0<x := lt_of_lt_of_le (by positivity) low
  have mlow : ((2^m.log2 : ℕ) : ℚ) ≤ m := by exact_mod_cast Nat.log2_self_le hm.ne'
  have mhigh : (m : ℚ)+1≤(2^(m.log2+1) : ℕ) := by exact_mod_cast Nat.lt_log2_self
  push_cast at low high mlow mhigh
  apply le_antisymm
  · apply Int.lt_add_one_iff.mp
    apply (Int.lt_zpow_iff_log_lt (by norm_num : 1<2) hx).mp
    rw [show (m.log2 : ℤ)+e+1=((m.log2+1 : ℕ) : ℤ)+e by push_cast; ring,Nat.cast_ofNat,
      two_zpow_add,zpow_natCast]
    exact high.trans_le (mul_le_mul_of_nonneg_right mhigh hunit.le)
  · apply (Int.zpow_le_iff_le_log (by norm_num : 1<2) hx).mp
    rw [Nat.cast_ofNat,two_zpow_add,zpow_natCast]
    exact (mul_le_mul_of_nonneg_right mlow hunit.le).trans low

/-- The exponent that rounding aims at is that of the number's grid. -/
theorem targetExponent_floor {x : ℚ} {m : ℕ} {e : ℤ} (hx : 0<x) (hfloor : ⌊x/2^e⌋=m)
    (he : e≤gridExponent x) :
    Format.binary64.targetExponent (totalExponent m e)=gridExponent x := by
  rw [targetExponent_eq]
  rcases Nat.eq_zero_or_pos m with rfl | hm
  · -- A number below one unit is so small that it is on the common grid of the least doubles.
    have hunit : (0 : ℚ)<2^e := by positivity
    have hlt : x<2^e := by
      have := (Int.floor_eq_iff.mp hfloor).2
      rw [div_lt_iff₀ hunit] at this
      push_cast at this
      linarith
    have hlog := (Int.lt_zpow_iff_log_lt (by norm_num : 1<2) hx).mp hlt
    unfold gridExponent at he ⊢
    rw [Nat.log2_zero]
    omega
  · rw [gridExponent,log_eq hm hfloor]

theorem shift_to_same {m : ℕ} {e : ℤ} (hm : m<2^53) (he : -1074≤e) :
    shiftToTargetExponent .binary64 m e .exact=(.ofMantissaAndAccuracy m .exact,e) := by
  have hlog : m.log2≤52 := by
    rcases Nat.eq_zero_or_pos m with rfl | hpos
    · simp
    · exact Nat.le_of_lt_succ ((Nat.log2_lt hpos.ne').mpr hm)
  have hshift : (Format.binary64.targetExponent (totalExponent m e)-e).toNat=0 := by
    rw [targetExponent_eq]
    omega
  simp only [shiftToTargetExponent,shiftToExponent,hshift,Nat.cast_zero,add_zero]
  rfl

theorem shift_to_next {e : ℤ} (he : -1074≤e) :
    shiftToTargetExponent .binary64 (2^53) e .exact=
      (.ofMantissaAndAccuracy (2^52) .exact,e+1) := by
  have hshift : (Format.binary64.targetExponent (totalExponent (2^53) e)-e).toNat=1 := by
    rw [targetExponent_eq,Nat.log2_two_pow]
    push_cast
    omega
  simp only [shiftToTargetExponent,shiftToExponent,hshift,Nat.cast_one]
  rfl

/-- A number of which the mantissa, its accuracy and the exponent tell is rounded to the nearest
double, provided that its unit is no coarser than its grid. -/
theorem reads_roundWithAccuracy {x : ℚ} {m : ℕ} {e : ℤ} {accuracy : Accuracy} (hx : 0<x)
    (tells : Tells (.ofMantissaAndAccuracy m accuracy) (x/2^e)) (he : e≤gridExponent x) :
    Reads (roundWithAccuracy .binary64 .positive m e accuracy) (nearest x) := by
  have hmantissa : (ExtendedMantissa.ofMantissaAndAccuracy m accuracy).mantissa=m := by
    rcases accuracy with _ | _ | _ | _ <;> rfl
  have hfloor : ⌊x/2^e⌋=m := by rw [tells.floor,hmantissa]
  let n := (gridExponent x-e).toNat
  have hn : e+(n : ℤ)=gridExponent x := by omega
  let first := ExtendedMantissa.ofMantissaAndAccuracy m accuracy>>>n
  have hfirst : shiftToTargetExponent .binary64 m e accuracy=(first,gridExponent x) := by
    unfold shiftToTargetExponent
    rw [targetExponent_floor hx hfloor he]
    exact congrArg (Prod.mk first) hn
  have hgrid : (0 : ℚ)<2^gridExponent x := by positivity
  have shifted : Tells first (x/2^gridExponent x) := by
    rw [←hn,two_zpow_add,zpow_natCast,←div_div]
    exact tells.shift n
  have hr : (first.roundedMantissa : ℤ)=toEven (x/2^gridExponent x) := shifted.rounded
  have value : nearest x=first.roundedMantissa*2^gridExponent x := by
    rw [nearest,←hr,Int.cast_natCast]
  have upper : first.roundedMantissa≤2^53 := by
    have := toEven_grid_le hx.le
    rw [←hr] at this
    exact_mod_cast this
  have full : gridExponent x=-1074 ∨ 2^52≤first.roundedMantissa := by
    rcases (le_gridExponent x).eq_or_lt with heq | hlt
    · exact .inl heq.symm
    · have := le_toEven_grid hx hlt
      rw [←hr] at this
      exact .inr (by exact_mod_cast this)
  rw [value]
  unfold roundWithAccuracy
  rw [hfirst]
  dsimp only
  rcases upper.eq_or_lt with heq | hlt
  · -- Rounding has added a bit: the mantissa is a power of two on the next grid.
    rw [heq,shift_to_next (le_gridExponent x),two_pow_53_mul]
    have := le_gridExponent x
    exact Reads.finite (m := 2^52) (by norm_num) (by norm_num) (by omega) (.inr le_rfl)
  · rw [shift_to_same hlt (le_gridExponent x)]
    change Reads (if h : first.roundedMantissa=0 then .zero .positive else
      .finite .positive first.roundedMantissa (gridExponent x) (Nat.pos_of_ne_zero h)) _
    by_cases hzero : first.roundedMantissa=0
    · rw [dif_pos hzero,hzero,Nat.cast_zero,zero_mul]
      exact .zero _
    · rw [dif_neg hzero]
      exact .finite _ hlt (le_gridExponent x) full

end SchedLatency.Double
