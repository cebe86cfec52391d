import Mathlib.Algebra.Order.Field.Power
import Mathlib.Data.Int.Log
import Mathlib.Data.Rat.Floor
import Mathlib.Tactic.Linarith
import Mathlib.Tactic.Positivity
import Mathlib.Tactic.Ring

namespace SchedLatency.Double

/-- The integer nearest to a number, of two the even one. -/
def toEven (x : ℚ) : ℤ :=
  if x-⌊x⌋<1/2 then ⌊x⌋ else if 1/2<x-⌊x⌋ then ⌊x⌋+1 else ⌊x⌋+⌊x⌋%2

theorem toEven_bounds (x : ℚ) : ⌊x⌋≤toEven x ∧ toEven x≤⌊x⌋+1 := by
  unfold toEven
  split_ifs <;> omega

theorem toEven_intCast (n : ℤ) : toEven n=n := by
  simp [toEven]

theorem abs_toEven_sub_le (x : ℚ) : |(toEven x : ℚ)-x|≤1/2 := by
  have low := Int.floor_le x
  have high := Int.lt_floor_add_one x
  have parity : ⌊x⌋%2=0 ∨ ⌊x⌋%2=1 := by omega
  unfold toEven
  rw [abs_le]
  split_ifs
  · constructor <;> linarith
  · push_cast
    constructor <;> linarith
  · rcases parity with h | h <;> rw [h] <;> push_cast <;> constructor <;> linarith

theorem toEven_mono {x y : ℚ} (h : x≤y) : toEven x≤toEven y := by
  have floors : ⌊x⌋≤⌊y⌋ := Int.floor_le_floor h
  rcases Int.lt_or_eq_of_le floors with hlt | heq
  · exact (toEven_bounds x).2.trans (hlt.trans_le (toEven_bounds y).1)
  · -- With one integer part the number that is further on has the larger rest.
    have hrest : x-⌊x⌋≤y-⌊y⌋ := by rw [heq]; linarith
    unfold toEven
    rw [heq] at hrest ⊢
    split_ifs <;> first | omega | linarith

/-- Exponent of the grid on which a number is rounded. Below the least normal double all numbers
share one. -/
def gridExponent (x : ℚ) : ℤ := max (Int.log 2 x-52) (-1074)

/-- The double nearest to a number, as if there were no largest one. -/
def nearest (x : ℚ) : ℚ := toEven (x/2^gridExponent x)*2^gridExponent x

theorem two_zpow_add (m n : ℤ) : (2 : ℚ)^(m+n)=2^m*2^n := zpow_add₀ two_ne_zero m n

theorem le_gridExponent (x : ℚ) : -1074≤gridExponent x := le_max_right _ _

theorem lt_two_zpow_grid {x : ℚ} (hx : 0≤x) : x<2^(gridExponent x+53) := by
  rcases hx.eq_or_lt with rfl | hpos
  · positivity
  · apply (Int.lt_zpow_succ_log_self (by norm_num : 1<2) x).trans_le
    apply zpow_le_zpow_right₀ one_le_two
    unfold gridExponent
    omega

theorem two_zpow_grid_le {x : ℚ} (hx : 0<x) (hg : -1074<gridExponent x) :
    2^(gridExponent x+52)≤x := by
  apply le_trans _ (Int.zpow_log_le_self (by norm_num : 1<2) hx)
  apply zpow_le_zpow_right₀ one_le_two
  unfold gridExponent at hg ⊢
  omega

theorem gridExponent_mono {x y : ℚ} (hx : 0<x) (h : x≤y) : gridExponent x≤gridExponent y :=
  max_le_max_right _ (sub_le_sub_right (Int.log_mono_right hx h) _)

/-- A number of 53 bits on some grid is rounded on that grid or a finer one. -/
theorem gridExponent_le {x : ℚ} {e : ℤ} (hx : 0<x) (he : -1074≤e) (hlt : x<2^(e+53)) :
    gridExponent x≤e := by
  have hlog := (Int.lt_zpow_iff_log_lt (by norm_num : 1<2) hx).mp hlt
  unfold gridExponent
  omega

theorem nearest_zero : nearest 0=0 := by
  simp [nearest,toEven]

theorem toEven_grid_le {x : ℚ} (hx : 0≤x) : toEven (x/2^gridExponent x)≤2^53 := by
  have hgrid : (0 : ℚ)<2^gridExponent x := by positivity
  have hle : x/2^gridExponent x≤((2^53 : ℤ) : ℚ) := by
    rw [div_le_iff₀ hgrid]
    have := (lt_two_zpow_grid hx).le
    rw [two_zpow_add] at this
    push_cast
    linarith
  have := toEven_mono hle
  rwa [toEven_intCast] at this

theorem le_toEven_grid {x : ℚ} (hx : 0<x) (hg : -1074<gridExponent x) :
    2^52≤toEven (x/2^gridExponent x) := by
  have hgrid : (0 : ℚ)<2^gridExponent x := by positivity
  have hle : ((2^52 : ℤ) : ℚ)≤x/2^gridExponent x := by
    rw [le_div_iff₀ hgrid]
    have := two_zpow_grid_le hx hg
    rw [two_zpow_add] at this
    push_cast
    linarith
  have := toEven_mono hle
  rwa [toEven_intCast] at this

theorem toEven_grid_nonneg {x : ℚ} (hx : 0≤x) : 0≤toEven (x/2^gridExponent x) := by
  have hgrid : (0 : ℚ)<2^gridExponent x := by positivity
  have steps := toEven_mono (div_nonneg hx hgrid.le)
  have hzero : toEven 0=0 := by exact_mod_cast toEven_intCast 0
  rwa [hzero] at steps

theorem nearest_nonneg {x : ℚ} (hx : 0≤x) : 0≤nearest x := by
  apply mul_nonneg _ (by positivity)
  exact_mod_cast toEven_grid_nonneg hx

theorem nearest_natCast_nonneg (n : ℕ) : 0≤nearest n := nearest_nonneg n.cast_nonneg

theorem nearest_mono {x y : ℚ} (hx : 0≤x) (h : x≤y) : nearest x≤nearest y := by
  rcases hx.eq_or_lt with rfl | hpos
  · rw [nearest_zero]
    exact nearest_nonneg h
  rcases (gridExponent_mono hpos h).eq_or_lt with heq | hlt
  · unfold nearest
    rw [heq]
    have hgrid : (0 : ℚ)<2^gridExponent y := by positivity
    apply mul_le_mul_of_nonneg_right _ hgrid.le
    exact_mod_cast toEven_mono (div_le_div_of_nonneg_right h hgrid.le)
  · -- On different grids a power of two lies between the two numbers, and both grids have it.
    have hx' : nearest x≤2^53*2^gridExponent x := by
      apply mul_le_mul_of_nonneg_right _ (by positivity)
      exact_mod_cast toEven_grid_le hx
    have hy' : 2^52*2^gridExponent y≤nearest y := by
      apply mul_le_mul_of_nonneg_right _ (by positivity)
      exact_mod_cast le_toEven_grid (hpos.trans_le h) (lt_of_le_of_lt (le_gridExponent x) hlt)
    have step : (2 : ℚ)*2^gridExponent x≤2^gridExponent y := by
      calc
        (2 : ℚ)*2^gridExponent x=2^(1+gridExponent x) := by rw [two_zpow_add,zpow_one]
        _≤2^gridExponent y := zpow_le_zpow_right₀ one_le_two (by omega)
    linarith

theorem nearest_of_steps {x : ℚ} {n : ℤ} (h : x=n*2^gridExponent x) : nearest x=x := by
  have hgrid : (2 : ℚ)^gridExponent x≠0 := by positivity
  have steps : x/2^gridExponent x=n := (div_eq_iff hgrid).mpr h
  rw [nearest,steps,toEven_intCast,←h]

theorem nearest_of_grid {k : ℕ} {e : ℤ} (hk : k<2^53) (he : -1074≤e) :
    nearest (k*2^e)=k*2^e := by
  rcases Nat.eq_zero_or_pos k with rfl | hpos
  · simp [nearest_zero]
  have hx : (0 : ℚ)<k*2^e := by positivity
  have hg : gridExponent (k*2^e)≤e := by
    apply gridExponent_le hx he
    rw [add_comm,two_zpow_add]
    apply mul_lt_mul_of_pos_right _ (by positivity)
    exact_mod_cast hk
  have split : (2 : ℚ)^e=2^(e-gridExponent (k*2^e)).toNat*2^gridExponent (k*2^e) := by
    rw [←zpow_natCast,←two_zpow_add]
    congr 1
    omega
  apply nearest_of_steps (n := k*2^(e-gridExponent (k*2^e)).toNat)
  push_cast
  rw [mul_assoc,←split]

theorem nearest_two_pow (n : ℕ) : nearest (2^n)=2^n := by
  have h := nearest_of_grid (k := 1) (e := n) (by norm_num) (by omega)
  simpa using h

theorem nearest_natCast {n : ℕ} (hn : n≤2^53) : nearest n=n := by
  rcases hn.eq_or_lt with rfl | hlt
  · exact_mod_cast nearest_two_pow 53
  · have h := nearest_of_grid (e := 0) hlt (by norm_num)
    simpa using h

theorem nearest_one : nearest 1=1 := by
  exact_mod_cast nearest_natCast (n := 1) (by norm_num)

theorem two_pow_53_mul (g : ℤ) : ((2^53 : ℕ) : ℚ)*2^g=(2^52 : ℕ)*2^(g+1) := by
  rw [two_zpow_add,zpow_one]
  push_cast
  ring

theorem nearest_nearest {x : ℚ} (hx : 0≤x) : nearest (nearest x)=nearest x := by
  obtain ⟨k,hk⟩ := Int.eq_ofNat_of_zero_le (toEven_grid_nonneg hx)
  have value : nearest x=k*2^gridExponent x := by
    rw [nearest,hk,Int.cast_natCast]
  have hle : k≤2^53 := by
    have := toEven_grid_le hx
    rw [hk] at this
    exact_mod_cast this
  rw [value]
  rcases hle.eq_or_lt with rfl | hlt
  · have := le_gridExponent x
    rw [two_pow_53_mul]
    exact nearest_of_grid (by norm_num) (by omega)
  · exact nearest_of_grid hlt (le_gridExponent x)

/-- Rounding a number in the normal range changes it by at most one part in `2^53`. -/
theorem abs_nearest_sub_le {x : ℚ} (hx : 2^(-1022 : ℤ)≤x) : |nearest x-x|≤x/2^53 := by
  have hpos : 0<x := lt_of_lt_of_le (by positivity) hx
  have hgrid : (0 : ℚ)<2^gridExponent x := by positivity
  have hlog : -1022≤Int.log 2 x := (Int.zpow_le_iff_le_log (by norm_num : 1<2) hpos).mp hx
  have hstep : (2 : ℚ)^gridExponent x*2^52≤x := by
    apply le_trans _ (Int.zpow_log_le_self (by norm_num : 1<2) hpos)
    rw [←zpow_natCast,←two_zpow_add]
    apply zpow_le_zpow_right₀ one_le_two
    unfold gridExponent
    push_cast
    omega
  have herror : |nearest x-x|=
      2^gridExponent x*|(toEven (x/2^gridExponent x) : ℚ)-x/2^gridExponent x| := by
    rw [←abs_of_pos hgrid,←abs_mul,abs_of_pos hgrid,mul_sub,mul_div_cancel₀ _ hgrid.ne',mul_comm]
    rfl
  rw [herror]
  have := mul_le_mul_of_nonneg_left (abs_toEven_sub_le (x/2^gridExponent x)) hgrid.le
  linarith

end SchedLatency.Double
