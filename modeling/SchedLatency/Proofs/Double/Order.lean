import SchedLatency.Proofs.Double.Arithmetic

namespace SchedLatency.Double

open Float.Model Float.Model.UnpackedFloat

theorem compare_swap (u w : UnpackedFloat) : w.compare u=(u.compare w).map Ordering.swap := by
  have mantissas (m k : ℕ) (e f : ℤ) : (compare f e).then (compare k m)=
      ((compare e f).then (compare m k)).swap := by
    rw [Ordering.swap_then,Int.compare_swap,Nat.compare_swap]
  cases u with
  | notANumber => cases w <;> rfl
  | infinity s =>
    cases w with
    | infinity s' => cases s <;> cases s' <;> rfl
    | _ => cases s <;> rfl
  | zero s =>
    cases w with
    | infinity s' => cases s' <;> rfl
    | finite s' k f hk => cases s' <;> rfl
    | _ => rfl
  | finite s m e hm =>
    cases w with
    | notANumber => cases s <;> rfl
    | infinity s' => cases s <;> cases s' <;> rfl
    | zero s' => cases s <;> rfl
    | finite s' k f hk =>
      cases s with
      | negative =>
        cases s' with
        | negative => exact congrArg (some ·.swap) (mantissas m k e f)
        | positive => rfl
      | positive =>
        cases s' with
        | negative => rfl
        | positive => exact congrArg some (mantissas m k e f)

theorem compare_eq_none_iff (u w : UnpackedFloat) :
    u.compare w=none ↔ u.isNaN=true ∨ w.isNaN=true := by
  fun_cases UnpackedFloat.compare u w <;> simp_all [UnpackedFloat.isNaN]

theorem not_le_iff {x y : Float} : ¬x≤y ↔ x.isNaN=true ∨ y.isNaN=true ∨ y<x := by
  have hlt : y<x ↔ y.toModel.unpack.lt x.toModel.unpack=true := by
    change decide (y.toModel<x.toModel)=true ↔ _
    rw [decide_eq_true_iff]
    rfl
  have hnone := compare_eq_none_iff x.toModel.unpack y.toModel.unpack
  have hswap := compare_swap x.toModel.unpack y.toModel.unpack
  rw [le_iff_unpack,hlt,←or_assoc]
  change _ ↔ (x.toModel.unpack.isNaN=true ∨ y.toModel.unpack.isNaN=true) ∨ _
  rw [←hnone,UnpackedFloat.le,UnpackedFloat.lt,hswap]
  cases x.toModel.unpack.compare y.toModel.unpack with
  | none => simp
  | some o => cases o <;> decide

end SchedLatency.Double
