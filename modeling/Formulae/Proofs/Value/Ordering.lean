import Formulae.Proofs.Calendar.DurationGrammar
import Formulae.Proofs.Number.Doubles
import Formulae.Proofs.Value.Operators

/-!
# Comparisons of values

Values whose types can be put in order have an order, unless one of them is a float that is no
number.  It turns around with the operands, and it is the one of equal values exactly where `==`
holds (`equals_of_compare?`), so the comparisons fit together (`compares_of_isOrdered`).
-/

namespace Formulae.Value

variable {v w : Value} {op : Operator} {order : Ordering}

/-! ## The order -/

theorem compareFloats_swap (x y : Float) :
    compareFloats y x = (compareFloats x y).map Ordering.swap := by
  rw [compareFloats_eq, compareFloats_eq, compare_unpacked_swap]

theorem compareBools_swap (a b : Bool) : compareBools b a = (compareBools a b).swap :=
  (Nat.compare_swap _ _).symm

theorem date_compare_swap (a b : Date) : b.compare a = (a.compare b).swap := by
  rw [Date.compare, Date.compare, Ordering.swap_then, Int.compare_swap, Nat.compare_swap]

theorem duration_compare_swap (a b : Duration) : b.compare a = (a.compare b).swap := by
  rw [Duration.compare, Duration.compare, Ordering.swap_then, Int.compare_swap, Int.compare_swap]

/-- The order of two values turns around when they are exchanged. -/
theorem compare?_swap (v w : Value) : w.compare? v = (v.compare? w).map Ordering.swap := by
  cases v with
  | int m =>
      cases w with
      | int n => exact congrArg some (Int.compare_swap _ _).symm
      | float y => exact compareFloats_swap _ _
      | _ => rfl
  | float x =>
      cases w with
      | int n => exact compareFloats_swap _ _
      | float y => exact compareFloats_swap _ _
      | _ => rfl
  | bool a =>
      cases w with
      | bool b => exact congrArg some (compareBools_swap a b)
      | _ => rfl
  | string a =>
      cases w with
      | string b => exact congrArg some Std.OrientedCmp.eq_swap
      | _ => rfl
  | date a =>
      cases w with
      | date b => exact congrArg some (date_compare_swap a b)
      | _ => rfl
  | duration a =>
      cases w with
      | duration b => exact congrArg some (duration_compare_swap a b)
      | _ => rfl
  | _ => cases w <;> rfl

/-- Values that have an order are equal where it says so. -/
theorem equals_of_compare? (found : v.compare? w = some order) :
    v.equals w = decide (order = .eq) := by
  have numeric (isNumeric : v.isNumeric && w.isNumeric) :
      plainEquals v w = decide (order = .eq) := by
    rw [plainEquals, if_pos isNumeric, found]
    simp
  unfold compare? at found
  split at found
  case h_1 | h_2 | h_3 | h_4 => exact numeric rfl
  case h_5 a b =>
    cases found
    exact decide_eq_decide.mpr Std.LawfulEqCmp.compare_eq_iff_eq.symm
  case h_6 a b =>
    cases found
    cases a <;> cases b <;> rfl
  case h_7 a b =>
    cases found
    rfl
  case h_8 a b =>
    cases found
    apply decide_eq_decide.mpr
    rw [Duration.compare, Ordering.then_eq_eq, compare_eq_iff_eq, compare_eq_iff_eq,
      Duration.eq_iff]
  case h_9 => cases found

/-! ## Floats that are no numbers -/

/-- Of all values only floats can be no numbers. -/
theorem isNaN_iff : v.isNaN ↔ ∃ x, v = .float x ∧ x.isNaN := by
  cases v with
  | int n =>
      have isNumber : (Value.int n).isNaN = false := Number.isNaN_toFloat n
      simp [isNumber]
  | _ => simp [isNaN, asFloat?]

theorem compareFloats_of_isNaN {x y : Float} (isNaN : x.isNaN ∨ y.isNaN) :
    compareFloats x y = none := by
  have none_of_left {x : Float} (isNaN : x.isNaN) (y : Float) : compareFloats x y = none := by
    rw [compareFloats_eq]
    change x.toModel.unpack.isNaN at isNaN
    cases unpacked : x.toModel.unpack <;> rw [unpacked] at isNaN <;> first | rfl | cases isNaN
  rcases isNaN with isNaN | isNaN
  · exact none_of_left isNaN y
  · rw [compareFloats_swap, none_of_left isNaN x]
    rfl

/-- What is no number has no order with anything. -/
theorem compare?_of_isNaN (isNaN : v.isNaN ∨ w.isNaN) : v.compare? w = none := by
  have none_of_left {v : Value} (isNaN : v.isNaN) (w : Value) : v.compare? w = none := by
    rcases isNaN_iff.mp isNaN with ⟨x, rfl, isNaN⟩
    cases w with
    | int | float => exact compareFloats_of_isNaN (.inl isNaN)
    | _ => rfl
  rcases isNaN with isNaN | isNaN
  · exact none_of_left isNaN w
  · rw [compare?_swap, none_of_left isNaN v]
    rfl

/-! ## The comparisons -/

theorem binary_eq_compared (isOrdering : op.isOrdering) : binary op v w = compared op v w := by
  cases op <;> first | rfl | cases isOrdering

theorem binary_of_compare? (isOrdering : op.isOrdering) (found : v.compare? w = some order) :
    binary op v w = .ok (.bool (ordered op order)) := by
  rw [binary_eq_compared isOrdering, compared, found]

/-- The outcomes of the comparisons of two values.  They tell whether the left one is less,
whether they are equal, and whether it is greater. -/
structure Compares (v w : Value) (less equal greater : Bool) : Prop where
  lt : binary .lt v w = .ok (.bool less)
  eq : binary .eq v w = .ok (.bool equal)
  gt : binary .gt v w = .ok (.bool greater)
  ltEq : binary .ltEq v w = .ok (.bool (less || equal))
  gtEq : binary .gtEq v w = .ok (.bool (greater || equal))
  exchanged : binary .gt w v = .ok (.bool less)
  one : [less, equal, greater].count true = 1

/-- Values that have an order are compared by it. -/
theorem compares_of_compare? (found : v.compare? w = some order) :
    Compares v w (order = .lt) (order = .eq) (order = .gt) where
  lt := binary_of_compare? rfl found
  eq := congrArg (Except.ok ∘ Value.bool) (equals_of_compare? found)
  gt := binary_of_compare? rfl found
  ltEq := by
    rw [binary_of_compare? rfl found]
    cases order <;> rfl
  gtEq := by
    rw [binary_of_compare? rfl found]
    cases order <;> rfl
  exchanged := by
    rw [binary_of_compare? rfl ((compare?_swap v w).trans (by rw [found]; rfl))]
    cases order <;> rfl
  one := by cases order <;> rfl

/-- Values of types in order are compared as the elements of a total order are, and each of the
four comparisons gives a value.  With a float that is no number none of them does. -/
theorem compares_of_isOrdered {a b : Ty} (isOrdered : a.isOrdered b)
    (notMixed : a.isMixed = false) (notMixed' : b.isMixed = false) (left : a.admits v)
    (right : b.admits w) :
    (¬(v.isNaN ∨ w.isNaN) → ∃ less equal greater, Compares v w less equal greater) ∧
      (v.isNaN ∨ w.isNaN → ∀ op : Operator, op.isOrdering → binary op v w = mismatch op v w) := by
  constructor
  · intro areNumbers
    cases found : v.compare? w with
    | some order => exact ⟨_, _, _, compares_of_compare? found⟩
    | none =>
        rcases mixed_or_isNaN_of_compare isOrdered left right found with mixed | isNaN
        · rw [mentionsMixed_of_isOrdered isOrdered notMixed notMixed'] at mixed
          cases mixed
        · exact absurd isNaN areNumbers
  · intro isNaN op isOrdering
    rw [binary_eq_compared isOrdering, compared, compare?_of_isNaN isNaN]

theorem compares_of_isOrdered_intFloat :
    Ty.int.isOrdered Ty.float ∧ Ty.int.admits (.int 2) ∧ Ty.float.admits (.float 2.5) ∧
      ¬((Value.int 2).isNaN ∨ (Value.float 2.5).isNaN) ∧
      ∃ less equal greater, Compares (.int 2) (.float 2.5) less equal greater := by
  have areNumbers : ¬((Value.int 2).isNaN ∨ (Value.float 2.5).isNaN) := by
    have left : (Value.int 2).isNaN = false := Number.isNaN_toFloat 2
    have right : (Value.float 2.5).isNaN = false := rfl
    simp [left, right]
  exact ⟨rfl, rfl, rfl, areNumbers,
    (compares_of_isOrdered (a := Ty.int) (b := Ty.float) rfl rfl rfl rfl rfl).1 areNumbers⟩

/-- A float that is no number has a type in order, but is compared to nothing. -/
theorem uncompared_of_isOrdered :
    Ty.float.isOrdered Ty.float ∧ Ty.float.admits (.float (0 / 0)) ∧ Ty.float.admits (.float 1) ∧
      binary .lt (.float (0 / 0)) (.float 1) = .error (.binaryMismatch .lt .float .float) :=
  ⟨rfl, rfl, rfl, rfl⟩

end Formulae.Value
