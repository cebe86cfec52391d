import Mathlib
import SchedLatency.Proofs.Double.Mantissa

namespace SchedLatency.Double

open Float.Model Float.Model.UnpackedFloat

theorem toNat_leading_append (m : BitVec 52) : (1#1 ++ m).toNat=2^52+m.toNat := by
  rw [BitVec.toNat_append,←Nat.shiftLeft_add_eq_or_of_lt m.isLt]
  rfl

theorem unpack_subnormal (s : Sign) {m : ℕ} (hm : 0 < m) (bits : m<2^52) :
    UnpackedFloat.unpack .binary64 (packComponents .binary64 s 0#11 (.ofNat 52 m))=
      .finite s m (-1074) hm := by
  have hstored : (BitVec.ofNat 52 m).toNat=m := Nat.mod_eq_of_lt bits
  have hne : BitVec.ofNat 52 m≠0#52 := by
    intro h
    rw [h,BitVec.toNat_zero] at hstored
    omega
  unfold UnpackedFloat.unpack
  simp only [unpackMantissa_packComponents,unpackExponent_packComponents,
    unpackSign_packComponents,Sign.ofBitVec_toBitVec]
  rw [if_neg (by decide),if_pos trivial,dif_neg hne]
  simp only [hstored]
  rfl

theorem unpack_normal (s : Sign) {m biased : ℕ} (low : 2^52 ≤ m) (bits : m<2^53)
    (hpos : 0<biased) (hmax : biased<2047) :
    UnpackedFloat.unpack .binary64
      (packComponents .binary64 s (.ofNat 11 biased) (.ofNat 52 m))=
      .finite s m (biased-1075) (Nat.lt_of_lt_of_le (by norm_num) low) := by
  have hbiased : (BitVec.ofNat 11 biased).toNat=biased := Nat.mod_eq_of_lt (by omega)
  have hnz : BitVec.ofNat 11 biased≠0#11 := by
    intro h
    rw [h,BitVec.toNat_zero] at hbiased
    omega
  have hfinite : BitVec.ofNat 11 biased≠-1#11 := by
    intro h
    rw [h] at hbiased
    change 2047=biased at hbiased
    omega
  have hstored : (1#1 ++ BitVec.ofNat 52 m).toNat=m := by
    rw [toNat_leading_append,BitVec.toNat_ofNat]
    omega
  unfold UnpackedFloat.unpack
  simp only [unpackMantissa_packComponents,unpackExponent_packComponents,
    unpackSign_packComponents,Sign.ofBitVec_toBitVec]
  rw [if_neg hfinite,if_neg hnz]
  simp only [hbiased]
  congr 1

theorem two_zpow_le_of_full {m : ℕ} (full : 2^52 ≤ m) (e : ℤ) : (2 : ℚ)^(52+e) ≤ m*2^e := by
  rw [two_zpow_add]
  apply mul_le_mul_of_nonneg_right _ (by positivity)
  exact_mod_cast full

theorem Reads.abs {u : UnpackedFloat} {v : ℚ} (h : Reads u v) : Reads u.abs v := by
  cases h with
  | zero s => exact .zero _
  | finite hm bits low full => exact .finite hm bits low full

/-- Packing keeps the sign and only asks for a size that a double can have. -/
theorem unpack_pack {u : UnpackedFloat} {v : ℚ} (h : Reads u.abs v) (hv : v<2^1024) :
    UnpackedFloat.unpack .binary64 (UnpackedFloat.pack .binary64 u)=u := by
  cases u with
  | notANumber => nomatch h
  | infinity s => nomatch h
  | zero s => exact unpack_packedZero
  | finite s m e hm =>
    obtain ⟨bits,low,full,rfl⟩ : m<2^53 ∧ -1074≤e ∧ (e=-1074 ∨ 2^52 ≤ m) ∧ v=m*2^e := by
      cases h with
      | finite hm bits low full => exact ⟨bits,low,full,rfl⟩
    have high : 2^52 ≤ m → e<972 := by
      intro hfull
      have hlt : (2 : ℚ)^(52+e)<2^(1024 : ℤ) :=
        (two_zpow_le_of_full hfull e).trans_lt (by exact_mod_cast hv)
      have := (zpow_lt_zpow_iff_right₀ one_lt_two).mp hlt
      omega
    unfold UnpackedFloat.pack
    by_cases hfull : 2^52 ≤ m
    · have hlog : m.log2=52 := by
        apply Nat.le_antisymm
        · exact Nat.le_of_lt_succ ((Nat.log2_lt hm.ne').mpr bits)
        · exact (Nat.le_log2 hm.ne').mpr hfull
      have := high hfull
      obtain ⟨biased,hbiased⟩ : ∃ n : ℕ,e+1023+52=n := ⟨_,(Int.toNat_of_nonneg (by omega)).symm⟩
      have hb : (e+1023+52).toNat=biased := by omega
      change UnpackedFloat.unpack .binary64 (if 2048≤(e+1023+52).toNat+1 then _ else
        if m.log2+1=53 then packComponents .binary64 s (.ofNat 11 (e+1023+52).toNat)
          (.ofNat 52 m) else _)=_
      rw [hb,if_neg (by omega),if_pos (by omega)]
      refine (unpack_normal s hfull bits (by omega) (by omega)).trans ?_
      congr 1
      omega
    · obtain rfl : e=-1074 := full.resolve_right hfull
      have hlog : m.log2<52 := (Nat.log2_lt hm.ne').mpr (by omega)
      change UnpackedFloat.unpack .binary64 (if 2048≤(-1074+1023+52 : ℤ).toNat+1 then _ else
        if m.log2+1=53 then _ else _)=_
      rw [if_neg (by decide),if_neg (by omega)]
      exact unpack_subnormal s hm (by omega)

theorem reads_of_unpack {b : BitVec 64} {m : ℕ} {e : ℤ} {h : 0 < m}
    (hb : UnpackedFloat.unpack .binary64 b=.finite .positive m e h) :
    Reads (.finite .positive m e h) (m*2^e) := by
  unfold UnpackedFloat.unpack at hb
  simp only at hb
  have hstored : (@unpackMantissa .binary64 b).toNat<2^52 := BitVec.isLt _
  have hbiased : (@unpackExponent .binary64 b).toNat<2^11 := BitVec.isLt _
  split_ifs at hb with hall hm hzero hm
  · injection hb with _ hmant hexp
    subst hmant
    rw [hzero] at hexp
    change -1075+1=e at hexp
    exact .finite h (by omega) (by omega) (.inl (by omega))
  · injection hb with _ hmant hexp
    rw [toNat_leading_append] at hmant
    have hpos : 0<(@unpackExponent .binary64 b).toNat := by
      rw [Nat.pos_iff_ne_zero]
      intro hz
      exact hzero (BitVec.eq_of_toNat_eq hz)
    change ((@unpackExponent .binary64 b).toNat : ℤ)-(1023+52)=e at hexp
    exact .finite h (by omega) (by omega) (.inr (by omega))

end SchedLatency.Double
