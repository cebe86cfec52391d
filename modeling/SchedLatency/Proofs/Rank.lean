import SchedLatency.Percentile
import SchedLatency.Proofs.Double.Arithmetic

namespace SchedLatency.Histogram

open Double

/-- A total of observations times a percentage, as doubles compute it. -/
def share (n : ℕ) (percentage : ℚ) : ℚ := nearest (nearest (nearest n*percentage)/100)

theorem share_mono (n : ℕ) {a b : ℚ} (ha : 0≤a) (h : a≤b) : share n a ≤ share n b := by
  have hn := nearest_natCast_nonneg n
  have product : nearest (nearest n*a)≤nearest (nearest n*b) :=
    nearest_mono (mul_nonneg hn ha) (mul_le_mul_of_nonneg_left h hn)
  apply nearest_mono (div_nonneg (nearest_nonneg (mul_nonneg hn ha)) (by norm_num))
  exact div_le_div_of_nonneg_right product (by norm_num)

theorem share_zero (n : ℕ) : share n 0=0 := by
  rw [share,mul_zero,nearest_zero,zero_div,nearest_zero]

theorem share_nonneg (n : ℕ) {a : ℚ} (ha : 0≤a) : 0 ≤ share n a := by
  rw [←share_zero n]
  exact share_mono n le_rfl ha

theorem floor_share_le_of_lt {n k : ℕ} {a : ℚ} (ha : 0≤a) (hlt : share n a<k+1) :
    ⌊share n a⌋₊≤k := by
  apply Nat.lt_succ_iff.mp
  rw [Nat.floor_lt (share_nonneg n ha),Nat.cast_succ]
  exact hlt

variable {h : Histogram} {p q : Float}

theorem denotes_of_accepts (hp : accepts p) : ∃ a,Denotes p a ∧ a≤100 := by
  unfold accepts at hp
  rw [Bool.and_eq_true,decide_eq_true_iff,decide_eq_true_iff] at hp
  obtain ⟨a,ha⟩ := denotes_hundred.exists_of_le hp.1 hp.2
  exact ⟨a,ha,(ha.le_iff denotes_hundred).mp hp.2⟩

theorem accepts_of_denotes {a : ℚ} (hp : Denotes p a) (ha : a≤100) : accepts p := by
  unfold accepts
  rw [Bool.and_eq_true,decide_eq_true_iff,decide_eq_true_iff]
  exact ⟨(denotes_zero.le_iff hp).mpr hp.nonneg,(hp.le_iff denotes_hundred).mpr ha⟩

theorem rank_eq (h : Histogram) {a : ℚ} (hp : Denotes p a) (ha : a≤100) :
    h.rank p=Counter.clamp ⌊share h.total.toNat a⌋₊ := by
  have hn := nearest_natCast_nonneg h.total.toNat
  have hpos : 0≤nearest h.total.toNat*a := mul_nonneg hn hp.nonneg
  have product : nearest (nearest h.total.toNat*a)≤2^71 := by
    apply nearest_le_two_pow hpos
    calc
      nearest h.total.toNat*a≤2^64*100 :=
        mul_le_mul (nearest_word_le h.total) ha hp.nonneg (by positivity)
      _≤2^71 := by norm_num
  have quotient : nearest (nearest (nearest h.total.toNat*a)/100)≤2^71 := by
    apply nearest_le_two_pow (div_nonneg (nearest_nonneg hpos) (by norm_num))
    linarith [nearest_nonneg hpos]
  have below : (2 : ℚ)^71<2^1024 := two_pow_lt_max (by norm_num)
  have hproduct := (denotes_toFloat h.total).mul hp (product.trans_lt below)
  exact (hproduct.div denotes_hundred (by norm_num) (quotient.trans_lt below)).toUInt64_eq

theorem rank_mono (h : Histogram) (hp : accepts p) (hq : accepts q) (hpq : p≤q) :
    h.rank p≤h.rank q := by
  obtain ⟨a,ha,halt⟩ := denotes_of_accepts hp
  obtain ⟨b,hb,hblt⟩ := denotes_of_accepts hq
  rw [h.rank_eq ha halt,h.rank_eq hb hblt]
  apply Counter.clamp_le_clamp
  exact Nat.floor_le_floor (share_mono _ ha.nonneg ((ha.le_iff hb).mp hpq))

theorem rank_zero (h : Histogram) : h.rank 0=0 := by
  rw [h.rank_eq denotes_zero (by norm_num),share_zero,Nat.floor_zero]
  rfl

theorem rank_hundred (h : Histogram) : h.rank 100=Counter.clamp ⌊share h.total.toNat 100⌋₊ :=
  h.rank_eq denotes_hundred le_rfl

theorem share_hundred_exact {n : ℕ} (hn : 25*n<2^53) : share n 100=n := by
  have product : (n*100 : ℚ)=(25*n : ℕ)*2^(2 : ℤ) := by
    push_cast
    ring
  rw [share,nearest_natCast (by omega),product,nearest_of_grid hn (by norm_num),←product,
    mul_div_cancel_right₀ _ (by norm_num),nearest_natCast (by omega)]

theorem two_zpow_normal_le {x : ℚ} (hx : 1/2^60≤x) : (2 : ℚ)^(-1022 : ℤ)≤x := by
  apply le_trans _ hx
  rw [one_div,←zpow_natCast,←zpow_neg]
  exact zpow_le_zpow_right₀ one_le_two (by norm_num)

theorem mul_le_nearest {x : ℚ} (hx : 1/2^60≤x) : x*(1-1/2^53)≤nearest x := by
  have herror := (abs_le.mp (abs_nearest_sub_le (two_zpow_normal_le hx))).1
  linarith

theorem nearest_le_mul {x : ℚ} (hx : 1/2^60≤x) : nearest x≤x*(1+1/2^53) := by
  have herror := (abs_le.mp (abs_nearest_sub_le (two_zpow_normal_le hx))).2
  linarith

/-- Three roundings lose at most three parts in `2^53` of a total. -/
theorem le_share_hundred (n : ℕ) : n*(1-3/2^53) ≤ share n 100 := by
  rcases Nat.eq_zero_or_pos n with rfl | hpos
  · simp [share,nearest_zero]
  have hn : (1 : ℚ)≤n := by exact_mod_cast hpos
  have first := mul_le_nearest (x := n) (by linarith)
  have second := mul_le_nearest (x := nearest n*100) (by linarith)
  have third := mul_le_nearest (x := nearest (nearest n*100)/100) (by linarith)
  rw [share]
  linarith

end SchedLatency.Histogram
