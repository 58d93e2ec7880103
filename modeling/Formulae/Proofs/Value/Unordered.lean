import Formulae.Value.Order

/-!
# Floats without an order

Two floats have an order unless one of them is no number (`isNaN_of_unordered`).
-/

namespace Formulae.Value

open Float.Model

/-- The value is a number that as a float is no number. -/
def isNaN (v : Value) : Bool :=
  v.asFloat?.any Float.isNaN

theorem compare_unpacked_swap (x y : UnpackedFloat) :
    y.compare x = (x.compare y).map Ordering.swap := by
  have parts (e₁ e₂ : Int) (m₁ m₂ : Nat) :
      (compare e₂ e₁).then (compare m₂ m₁) = ((compare e₁ e₂).then (compare m₁ m₂)).swap := by
    rw [Ordering.swap_then, Int.compare_swap, Nat.compare_swap]
  cases x with
  | notANumber => cases y <;> rfl
  | infinity s => cases s <;> cases y <;> first | rfl | (next t => cases t <;> rfl)
  | zero s =>
      cases y with
      | infinity t | finite t => cases t <;> rfl
      | _ => rfl
  | finite s m e =>
      cases y with
      | notANumber => cases s <;> rfl
      | infinity t => cases s <;> cases t <;> rfl
      | zero t => cases s <;> rfl
      | finite t n f =>
          cases s <;> cases t <;> first
            | rfl
            | exact congrArg some (parts e f m n)
            | exact congrArg (some ∘ Ordering.swap) (parts e f m n)

theorem isNaN_of_compare {x y : UnpackedFloat} (unordered : x.compare y = none) :
    x.isNaN ∨ y.isNaN := by
  cases y with
  | notANumber => exact .inr rfl
  | infinity t =>
      cases x with
      | notANumber => exact .inl rfl
      | infinity s | zero s | finite s => cases s <;> cases t <;> cases unordered
  | zero t =>
      cases x with
      | notANumber => exact .inl rfl
      | infinity s | zero s | finite s => cases s <;> cases unordered
  | finite t =>
      cases x with
      | notANumber => exact .inl rfl
      | infinity s | zero s | finite s => cases s <;> cases t <;> cases unordered

theorem compareFloats_eq (a b : Float) :
    compareFloats a b = a.toModel.unpack.compare b.toModel.unpack := by
  have less (x y : Float) : x < y ↔ x.toModel.unpack.compare y.toModel.unpack = some .lt := by
    change decide (x.toModel < y.toModel) = true ↔ _
    rw [decide_eq_true_eq]
    exact beq_iff_eq
  have equal (x y : Float) :
      (x == y) ↔ x.toModel.unpack.compare y.toModel.unpack = some .eq := by
    change (x.toModel.unpack.compare y.toModel.unpack == some .eq) = true ↔ _
    exact beq_iff_eq
  simp only [compareFloats, less, equal, compare_unpacked_swap a.toModel.unpack]
  cases order : a.toModel.unpack.compare b.toModel.unpack with
  | none => simp
  | some order' => cases order' <;> simp

/-- Two floats have an order unless one of them is no number. -/
theorem isNaN_of_unordered {a b : Float} (unordered : compareFloats a b = none) :
    a.isNaN ∨ b.isNaN := by
  rw [compareFloats_eq] at unordered
  exact isNaN_of_compare unordered

end Formulae.Value
