import SchedLatency.Proofs.Double.Arithmetic

namespace SchedLatency.Double

open Float.Model Float.Model.UnpackedFloat

theorem aligned_value (m : ℕ) {e t : ℤ} (h : t≤e) :
    ((decreaseExponent m e t).1*2^t : ℚ)=m*2^e := by
  have he : e=((e-t).toNat : ℤ)+t := by omega
  change ((m<<<(e-t).toNat : ℕ)*2^t : ℚ)=m*2^e
  have units : (2 : ℚ)^e=2^(e-t).toNat*2^t := by
    rw [←zpow_natCast,←two_zpow_add,←he]
  rw [units,Nat.shiftLeft_eq]
  push_cast
  ring

theorem Reads.nearest_eq {u : UnpackedFloat} {v : ℚ} (h : Reads u v) : nearest v=v := by
  cases h with
  | zero s => exact nearest_zero
  | finite hm bits low full => exact nearest_of_grid bits low

section Nonnegative

variable {u w : UnpackedFloat} {a b : ℚ}

theorem reads_add (hu : Reads u a) (hw : Reads w b) :
    Reads (UnpackedFloat.add .binary64 u w) (nearest (a+b)) := by
  cases hu with
  | zero s =>
    rw [zero_add]
    cases hw with
    | zero s' =>
      rw [nearest_zero]
      cases s <;> cases s' <;> exact .zero _
    | finite hk bits low full =>
      have hw := Reads.finite hk bits low full
      rw [hw.nearest_eq]
      exact hw
  | @finite m e hm bits low full =>
    cases hw with
    | zero s' =>
      have hu := Reads.finite hm bits low full
      rw [add_zero,hu.nearest_eq]
      exact hu
    | @finite k f hk bits' low' full' =>
      let p := (decreaseExponent m e (min e f)).1
      let q := (decreaseExponent k f (min e f)).1
      have value : (m*2^e+k*2^f : ℚ)=(p+q : ℕ)*2^min e f := by
        rw [←aligned_value m (min_le_left e f),←aligned_value k (min_le_right e f)]
        push_cast
        ring
      rw [value]
      exact reads_normalize (p+q) (min e f) .positive

theorem reads_sub (hu : Reads u a) (hw : Reads w b) (hba : b≤a) :
    Reads (UnpackedFloat.sub .binary64 u w) (nearest (a-b)) := by
  cases hw with
  | zero s =>
    rw [sub_zero,hu.nearest_eq]
    cases hu with
    | zero s' => cases s <;> cases s' <;> exact .zero _
    | finite hm bits low full => exact .finite hm bits low full
  | @finite k f hk bits' low' full' =>
    have hpos : (0 : ℚ)<k*2^f := by positivity
    cases hu with
    | zero s' => linarith
    | @finite m e hm bits low full =>
      let p := (decreaseExponent m e (min e f)).1
      let q := (decreaseExponent k f (min e f)).1
      have hunit : (0 : ℚ)<2^min e f := by positivity
      rw [←aligned_value m (min_le_left e f),←aligned_value k (min_le_right e f)] at hba ⊢
      have hle : q≤p := by exact_mod_cast le_of_mul_le_mul_right hba hunit
      have value : (p*2^min e f-q*2^min e f : ℚ)=(p-q : ℕ)*2^min e f := by
        rw [Nat.cast_sub hle]
        ring
      have hnat : (p : ℤ)-q=(p-q : ℕ) := (Int.ofNat_sub hle).symm
      change Reads (UnpackedFloat.normalize .binary64 ((p : ℤ)-q) (min e f) .positive)
        (nearest (p*2^min e f-q*2^min e f))
      rw [value,hnat]
      exact reads_normalize (p-q) (min e f) .positive

end Nonnegative

theorem abs_roundWithAccuracy (s : Sign) (m : ℕ) (e : ℤ) (accuracy : Accuracy) :
    (roundWithAccuracy .binary64 s m e accuracy).abs=
      roundWithAccuracy .binary64 .positive m e accuracy := by
  unfold roundWithAccuracy
  dsimp only
  split <;> rfl

theorem abs_mul_unpacked (u w : UnpackedFloat) :
    (UnpackedFloat.mul .binary64 u w).abs=UnpackedFloat.mul .binary64 u.abs w.abs := by
  cases u <;> cases w <;> first | rfl | exact abs_roundWithAccuracy _ _ _ _

theorem abs_neg_unpacked (u : UnpackedFloat) : u.neg.abs=u.abs := by
  cases u <;> rfl

theorem sub_unpacked (u w : UnpackedFloat) :
    UnpackedFloat.sub .binary64 u w=UnpackedFloat.add .binary64 u w.neg := by
  cases u <;> cases w <;> try rfl
  rename_i s m e hm s' k f hk
  cases s' with
  | negative =>
    simp only [UnpackedFloat.sub,UnpackedFloat.add,UnpackedFloat.neg]
    rw [show -Sign.negative=Sign.positive from rfl]
    simp only [Sign.apply,Int.sub_neg]
  | positive => rfl

theorem reads_abs_normalize (k e : ℤ) (s : Sign) :
    Reads (UnpackedFloat.normalize .binary64 k e s).abs (nearest (k.natAbs*2^e)) := by
  obtain ⟨n,rfl | rfl⟩ := Int.eq_nat_or_neg k
  · rw [Int.natAbs_natCast]
    exact (reads_normalize n e s).abs
  · rw [Int.natAbs_neg,Int.natAbs_natCast]
    rcases Nat.eq_zero_or_pos n with rfl | hn
    · exact (reads_normalize 0 e s).abs
    · have hcompare : compare (-(n : ℤ)) 0=.lt := Int.compare_eq_lt.mpr (by omega)
      unfold UnpackedFloat.normalize
      rw [hcompare]
      simp only [Int.neg_neg,Int.toNat_natCast]
      unfold UnpackedFloat.round
      rw [abs_roundWithAccuracy]
      exact reads_round hn e

/-- A sum is no larger than that of the sizes, rounded. -/
theorem reads_abs_add {u w : UnpackedFloat} {a b : ℚ} (hu : Reads u.abs a) (hw : Reads w.abs b) :
    ∃ v≤nearest (a+b),Reads (UnpackedFloat.add .binary64 u w).abs v := by
  cases u with
  | notANumber => nomatch hu
  | infinity s => nomatch hu
  | zero s =>
    have ha : a=0 := by cases hu; rfl
    rw [ha,zero_add,hw.nearest_eq]
    cases w with
    | notANumber => nomatch hw
    | infinity s' => nomatch hw
    | zero s' =>
      refine ⟨b,le_rfl,?_⟩
      cases s <;> cases s' <;> exact hw
    | finite s' k f hk => exact ⟨b,le_rfl,hw⟩
  | finite s m e hm =>
    cases w with
    | notANumber => nomatch hw
    | infinity s' => nomatch hw
    | zero s' =>
      have hb : b=0 := by cases hw; rfl
      rw [hb,add_zero,hu.nearest_eq]
      exact ⟨a,le_rfl,hu⟩
    | finite s' k f hk =>
      have ha : a=m*2^e := by cases hu; rfl
      have hb : b=k*2^f := by cases hw; rfl
      let p := (decreaseExponent m e (min e f)).1
      let q := (decreaseExponent k f (min e f)).1
      -- Opposite signs cancel, so the mantissa of the sum is at most that of the sizes.
      have hsize : (s.apply p+s'.apply q).natAbs≤p+q := by
        cases s <;> cases s' <;> simp only [Sign.apply] <;> omega
      have value : a+b=(p+q : ℕ)*2^min e f := by
        rw [ha,hb,←aligned_value m (min_le_left e f),←aligned_value k (min_le_right e f)]
        push_cast
        ring
      refine ⟨_,?_,reads_abs_normalize (s.apply p+s'.apply q) (min e f) .positive⟩
      rw [value]
      apply nearest_mono (by positivity)
      apply mul_le_mul_of_nonneg_right _ (by positivity)
      exact_mod_cast hsize

namespace Denotes

variable {x y : Float} {a b : ℚ}

theorem nearest_eq (h : Denotes x a) : nearest a=a := Reads.nearest_eq h

theorem add (hx : Denotes x a) (hy : Denotes y b) (hmax : nearest (a+b)<2^1024) :
    Denotes (x+y) (nearest (a+b)) :=
  denotes_pack (reads_add hx hy) hmax

theorem sub (hx : Denotes x a) (hy : Denotes y b) (hba : b≤a) (hmax : nearest (a-b)<2^1024) :
    Denotes (x-y) (nearest (a-b)) :=
  denotes_pack (reads_sub hx hy hba) hmax

end Denotes

/-- A double that is finite and of a size up to `2^n`, whatever its sign. -/
def Within (x : Float) (n : ℕ) : Prop := ∃ v≤2^n,Reads x.toModel.unpack.abs v

theorem Denotes.within {x : Float} {v : ℚ} {n : ℕ} (h : Denotes x v) (hv : v≤2^n) : Within x n :=
  ⟨v,hv,h.abs⟩

theorem within_pack {u : UnpackedFloat} {v : ℚ} {n : ℕ} (h : Reads u.abs v) (hv : v≤2^n)
    (hn : n<1024) : Within (.ofModel (.pack u)) n := by
  refine ⟨v,hv,?_⟩
  change Reads (UnpackedFloat.unpack .binary64 (UnpackedFloat.pack .binary64 u)).abs v
  rw [unpack_pack h (hv.trans_lt (pow_lt_pow_right₀ one_lt_two hn))]
  exact h

namespace Within

variable {x y : Float} {m n : ℕ}

theorem mono (h : Within x m) (hmn : m≤n) : Within x n := by
  obtain ⟨v,hv,hx⟩ := h
  exact ⟨v,hv.trans (pow_le_pow_right₀ one_le_two hmn),hx⟩

theorem mul (hx : Within x m) (hy : Within y n) (hmn : m+n<1024) : Within (x*y) (m+n) := by
  obtain ⟨a,ha,hx⟩ := hx
  obtain ⟨b,hb,hy⟩ := hy
  have product : Reads (UnpackedFloat.mul .binary64 x.toModel.unpack y.toModel.unpack).abs
      (nearest (a*b)) := by
    rw [abs_mul_unpacked]
    exact reads_mul hx hy
  apply within_pack product _ hmn
  apply nearest_le_two_pow (mul_nonneg hx.nonneg hy.nonneg)
  rw [pow_add]
  exact mul_le_mul ha hb hy.nonneg (by positivity)

theorem add (hx : Within x n) (hy : Within y n) (hn : n+1<1024) : Within (x+y) (n+1) := by
  obtain ⟨a,ha,hx⟩ := hx
  obtain ⟨b,hb,hy⟩ := hy
  obtain ⟨v,hv,hsum⟩ := reads_abs_add hx hy
  apply within_pack hsum (hv.trans _) hn
  apply nearest_le_two_pow (add_nonneg hx.nonneg hy.nonneg)
  rw [pow_succ]
  linarith

theorem sub (hx : Within x n) (hy : Within y n) (hn : n+1<1024) : Within (x-y) (n+1) := by
  obtain ⟨a,ha,hx⟩ := hx
  obtain ⟨b,hb,hy⟩ := hy
  rw [←abs_neg_unpacked] at hy
  obtain ⟨v,hv,hsum⟩ := reads_abs_add hx hy
  rw [←sub_unpacked] at hsum
  apply within_pack hsum (hv.trans _) hn
  apply nearest_le_two_pow (add_nonneg hx.nonneg hy.nonneg)
  rw [pow_succ]
  linarith

theorem isFinite (h : Within x n) : x.isFinite=true := by
  obtain ⟨v,-,hx⟩ := h
  change x.toModel.unpack.isFinite=true
  generalize x.toModel.unpack=u at hx
  cases u with
  | notANumber => nomatch hx
  | infinity s => nomatch hx
  | zero s => rfl
  | finite s m e hm => rfl

end Within
end SchedLatency.Double
