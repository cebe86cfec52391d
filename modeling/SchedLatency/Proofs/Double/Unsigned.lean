import SchedLatency.Decimal.Plain
import SchedLatency.Proofs.Double.Sum

namespace SchedLatency.Double

open Float.Model Float.Model.UnpackedFloat

/-- A double with its value that carries no sign. -/
structure Unsigned (x : Float) (v : ℚ) : Prop where
  denotes : Denotes x v
  plus : x.toModel.unpack≠.zero .negative

theorem Reads.fields {b : BitVec 64} {v : ℚ} (h : Reads (UnpackedFloat.unpack .binary64 b) v)
    (plus : UnpackedFloat.unpack .binary64 b≠.zero .negative) :
    @unpackSign .binary64 b=0#1 ∧ @unpackExponent .binary64 b≠-1#11 := by
  unfold UnpackedFloat.unpack at h plus
  simp only at h plus
  constructor
  · rw [←Sign.toBitVec_ofBitVec (@unpackSign .binary64 b)]
    cases hs : Sign.ofBitVec (@unpackSign .binary64 b) with
    | positive => rfl
    | negative =>
      rw [hs] at h plus
      split_ifs at h plus
      · nomatch h
      · nomatch h
      · exact absurd rfl plus
      · nomatch h
      · nomatch h
  · intro hall
    rw [if_pos hall] at h
    split_ifs at h
    · nomatch h
    · nomatch h

theorem toNat_unpackSign (b : BitVec 64) :
    (@unpackSign .binary64 b).toNat=b.toNat/2^63 := by
  have hlt := b.isLt
  rw [unpackSign_def,BitVec.extractLsb'_toNat,Nat.shiftRight_eq_div_pow]
  change b.toNat/2^63%2^1=b.toNat/2^63
  omega

theorem toNat_unpackExponent (b : BitVec 64) :
    (@unpackExponent .binary64 b).toNat=b.toNat/2^52%2^11 := by
  rw [unpackExponent_def,BitVec.extractLsb'_toNat,Nat.shiftRight_eq_div_pow]

namespace Unsigned

variable {x : Float} {v : ℚ}

theorem ofFloat_eq (h : Unsigned x v) :
    ∃ m e,Decimal.Binary64.ofFloat x=.finite false m e := by
  let b := x.toModel.toBits.toBitVec
  obtain ⟨hsign,hexponent⟩ := Reads.fields (b := b) h.denotes h.plus
  have hnegative : x.toBits.toNat/Nat.pow 2 63=0 := by
    have hzero := congrArg BitVec.toNat hsign
    rwa [toNat_unpackSign] at hzero
  have hfield : x.toBits.toNat/Nat.pow 2 52%Nat.pow 2 11≠Nat.pow 2 11-1 := by
    intro hall
    apply hexponent
    apply BitVec.eq_of_toNat_eq
    rw [toNat_unpackExponent]
    exact hall
  unfold Decimal.Binary64.ofFloat
  simp only [Decimal.Binary64.storedBits,hnegative,if_neg hfield]
  split
  · exact ⟨_,_,rfl⟩
  · exact ⟨_,_,rfl⟩

theorem fixed_zero (h : Unsigned x v) : ∃ n,Decimal.fixed 0 x=Decimal.digits n := by
  obtain ⟨m,e,hx⟩ := h.ofFloat_eq
  unfold Decimal.fixed
  rw [hx]
  exact ⟨_,String.empty_append⟩

end Unsigned

theorem unsigned_of_pos {x : Float} {v : ℚ} (h : Denotes x v) (hpos : 0<v) : Unsigned x v := by
  refine ⟨h,?_⟩
  intro hzero
  unfold Denotes at h
  rw [hzero] at h
  cases h
  exact lt_irrefl 0 hpos

theorem unsigned_toFloat (n : UInt64) : Unsigned n.toFloat (nearest n.toNat) := by
  by_cases hzero : n=0
  · refine ⟨denotes_toFloat n,?_⟩
    rw [hzero]
    nofun
  · have hone : (1 : ℚ)≤n.toNat := by
      have hne : n.toNat≠0 := fun h => hzero (UInt64.toNat_inj.mp h)
      exact_mod_cast Nat.pos_of_ne_zero hne
    have hle := nearest_mono zero_le_one hone
    rw [nearest_one] at hle
    exact unsigned_of_pos (denotes_toFloat n) (by linarith)

theorem Unsigned.unpack_zero {x : Float} (h : Unsigned x 0) :
    x.toModel.unpack=.zero .positive := by
  obtain ⟨hreads,plus⟩ := h
  unfold Denotes at hreads
  generalize x.toModel.unpack=u at hreads plus
  generalize hv : (0 : ℚ)=v at hreads
  rcases hreads with s | @⟨m,e,hm,bits,low,full⟩
  · cases s with
    | positive => rfl
    | negative => exact absurd rfl plus
  · have hpos : (0 : ℚ) < m*2^e := by positivity
    exact absurd hv hpos.ne

theorem Unsigned.add {x y : Float} {a b : ℚ} (hx : Unsigned x a) (hy : Denotes y b)
    (hmax : nearest (a+b)<2^1024) : Unsigned (x+y) (nearest (a+b)) := by
  have hsum := hx.denotes.add hy hmax
  rcases hx.denotes.nonneg.eq_or_lt with rfl | hpos
  · refine ⟨hsum,?_⟩
    have hunpack : (x+y).toModel.unpack=
        UnpackedFloat.add .binary64 x.toModel.unpack y.toModel.unpack :=
      unpack_pack (reads_add hx.denotes hy).abs hmax
    -- Positive zero prevails over any zero and leaves any other summand as it is.
    rw [hunpack,hx.unpack_zero]
    unfold Denotes at hy
    generalize y.toModel.unpack=w at hy
    rcases hy with s | hk
    · cases s <;> nofun
    · nofun
  · have hle := nearest_mono hpos.le (le_add_of_nonneg_right hy.nonneg)
    rw [hx.denotes.nearest_eq] at hle
    exact unsigned_of_pos hsum (hpos.trans_le hle)

end SchedLatency.Double
