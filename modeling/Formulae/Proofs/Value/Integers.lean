import Formulae.Value.Builtin
import Formulae.Proofs.Value.Parts

/-!
# Integers calculated exactly

What operators give for integers is the exact integer where it has 64 bits and an overflow where
it has more (`Value.IsExact`).  The remainder is the exception: a remainder never has more than 64
bits, but that of the least integer by minus one is an overflow, since the quotient has more
(`Value.remainder_of_least`).  On arrays of integers nested alike, these are the results for the
parts in order, or the fault of the first one that fails (`Value.InOrder`).
-/

namespace Formulae

namespace Number

variable {a b : Int64}

/-- The exact value of the dividend is the least integer and that of the divisor minus one. -/
def LeastByMinusOne (a b : Int64) : Prop :=
  a = Int64.minValue ∧ b = -1

theorem exists_checked_of_fits {n : Int} (fits : Fits n) :
    ∃ c, checked n = some c ∧ c.toInt = n :=
  ⟨Int64.ofInt n, checked_eq_some_iff.mpr (toInt_ofInt_of_fits fits), toInt_ofInt_of_fits fits⟩

theorem fits_tmod (nonzero : b ≠ 0) : Fits (a.toInt.tmod b.toInt) := by
  have isRemainder := Int.natAbs_tmod a.toInt b.toInt
  have small := Nat.mod_le a.toInt.natAbs b.toInt.natAbs
  have below : a.toInt.natAbs % b.toInt.natAbs < b.toInt.natAbs := by
    apply Nat.mod_lt
    have : b.toInt ≠ 0 := fun zero => nonzero (Int64.toInt_inj.mp zero)
    omega
  have left := fits_toInt a
  have right := fits_toInt b
  unfold Fits at *
  omega

/-- Only the quotient of the least integer by minus one has more than 64 bits. -/
theorem fits_tdiv_iff (nonzero : b ≠ 0) :
    Fits (a.toInt.tdiv b.toInt) ↔ ¬LeastByMinusOne a b := by
  constructor
  · rintro fits ⟨rfl, rfl⟩
    exact absurd fits (by decide)
  · intro proper
    have divisor : b.toInt ≠ 0 := fun zero => nonzero (Int64.toInt_inj.mp zero)
    have proper : ¬(a.toInt = -0x8000000000000000 ∧ b.toInt = -1) := by
      rintro ⟨least, minusOne⟩
      exact proper ⟨Int64.toInt_inj.mp least, Int64.toInt_inj.mp minusOne⟩
    have division := Int.mul_tdiv_add_tmod a.toInt b.toInt
    have quotient := Int.natAbs_tdiv_le_natAbs a.toInt b.toInt
    have remainder : (a.toInt.tmod b.toInt).natAbs < b.toInt.natAbs := by
      rw [Int.natAbs_tmod]
      exact Nat.mod_lt _ (by omega)
    have bounds := fits_toInt a
    generalize a.toInt.tdiv b.toInt = q at division quotient ⊢
    generalize a.toInt.tmod b.toInt = r at division remainder
    unfold Fits at *
    -- No quotient is larger than its dividend, so only 2 ^ 63 is left, and that takes minus one.
    by_cases large : q = 0x8000000000000000
    · rw [large] at division
      omega
    · omega

theorem exists_rem? (nonzero : b ≠ 0) (proper : ¬LeastByMinusOne a b) :
    ∃ c, rem? a b = some c ∧ c.toInt = a.toInt.tmod b.toInt := by
  rcases exists_checked_of_fits ((fits_tdiv_iff nonzero).mpr proper) with ⟨quotient, found, -⟩
  rcases exists_checked_of_fits (fits_tmod (a := a) nonzero) with ⟨c, isRemainder, same⟩
  refine ⟨c, ?_, same⟩
  rw [rem?, found, Option.bind_some, isRemainder]

theorem rem?_of_leastByMinusOne (least : LeastByMinusOne a b) : rem? a b = none := by
  rcases least with ⟨rfl, rfl⟩
  decide

end Number

namespace Value

open Number

/-! ## Single integers -/

/-- The outcome is the integer if it has 64 bits, and an overflow otherwise. -/
structure IsExact (n : Int) (arithmetic : Checked) (outcome : Result) : Prop where
  value : Fits n → ∃ c, outcome = .ok (.int c) ∧ c.toInt = n
  overflow : ¬Fits n → outcome = .error (.overflow arithmetic)

theorem isExact_checked (n : Int) (arithmetic : Checked) :
    IsExact n arithmetic (exact arithmetic .int (checked n)) := by
  constructor
  · intro fits
    rcases exists_checked_of_fits fits with ⟨c, found, same⟩
    exact ⟨c, by rw [found, exact], same⟩
  · intro overflow
    rw [checked_eq_none_iff.mpr overflow, exact]

theorem absolute_isExact (a : Int64) :
    IsExact a.toInt.natAbs .absolute (Builtin.abs.call [.int a]) := by
  -- The function is kept from view, as finding a magnitude would count up to its bound.
  have hidden : ∀ (magnitude? : Int64 → Option Int64) (args : List Value), magnitude? = abs? →
      args = [.int a] → Builtin.abs.call args = exact .absolute .int (magnitude? a) := by
    intro magnitude? args same single
    unfold Builtin.call Builtin.absolute
    rw [← same, single]
    dsimp only
    cases magnitude? a <;> rfl
  rw [hidden abs? _ rfl rfl]
  exact isExact_checked _ _

/-! ## Nested arrays -/

/-- How arrays are nested. -/
inductive Shape
  | part
  | array (items : List Shape)

mutual

/-- How arrays are nested in a value. -/
def shape : Value → Shape
  | .array items => .array (shapeAll items)
  | _ => .part

/-- How arrays are nested in several values. -/
def shapeAll : List Value → List Shape
  | [] => []
  | v :: rest => v.shape :: shapeAll rest

end

/-- The value is an integer. -/
def IsInt (v : Value) : Prop :=
  ∃ n, v = .int n

/-- Outcomes taken together in order: if there is a result for each, these are the parts of one
result of the given shape, and if not, the first fault is the outcome. -/
def InOrder (shape : Shape) (outcomes : List Result) : Result → Prop :=
  Ends (fun r => r.shape = shape ∧ outcomes = r.parts.map .ok)
    fun fault => ∃ (before : List Value) (after : List Result),
      outcomes = before.map .ok ++ .error fault :: after

/-- The same for several results. -/
def InOrderAll (shapes : List Shape) (outcomes : List Result) :
    Except EvalFault (List Value) → Prop :=
  Ends (fun rs => shapeAll rs = shapes ∧ outcomes = (partsAll rs).map .ok)
    fun fault => ∃ (before : List Value) (after : List Result),
      outcomes = before.map .ok ++ .error fault :: after

section

variable {v w : Value} {shape : Shape} {shapes : List Shape} {outcomes others : List Result}

theorem parts_of_shape (h : v.shape = .part) : v.parts = [v] := by
  cases v <;> first | rfl | cases h

theorem inOrder_part {outcome : Result}
    (isPart : Ends (fun r => r.shape = .part) (fun _ => True) outcome) :
    InOrder .part [outcome] outcome := by
  cases outcome with
  | ok r => exact ⟨isPart, by rw [parts_of_shape isPart, List.map_singleton]⟩
  | error fault => exact ⟨[], [], rfl⟩

theorem InOrderAll.array {outcome : Except EvalFault (List Value)}
    (all : InOrderAll shapes outcomes outcome) :
    InOrder (.array shapes) outcomes (outcome.map .array) :=
  all.map fun rs each => ⟨by rw [Value.shape, each.1], by rw [parts, each.2]⟩

theorem InOrder.cons {first : Result} {rest : Except EvalFault (List Value)}
    (one : InOrder shape outcomes first) (more : InOrderAll shapes others rest) :
    InOrderAll (shape :: shapes) (outcomes ++ others)
      (do let v ← first
          let vs ← rest
          return v :: vs) := by
  cases first with
  | error fault =>
      rcases one with ⟨before, after, rfl⟩
      exact ⟨before, after ++ others, List.append_assoc ..⟩
  | ok v =>
      rcases one with ⟨shaped, rfl⟩
      cases rest with
      | error fault =>
          rcases more with ⟨before, after, rfl⟩
          refine ⟨v.parts ++ before, after, ?_⟩
          rw [List.map_append, List.append_assoc]
      | ok vs =>
          rcases more with ⟨shapedAll, rfl⟩
          constructor
          · rw [shapeAll, shaped, shapedAll]
          · rw [partsAll, List.map_append]

mutual

/-- Values of one shape have equally many parts. -/
theorem length_parts : ∀ v w : Value, v.shape = w.shape → v.parts.length = w.parts.length
  | .array vs, w, same => by
      cases w with
      | array ws =>
          simp only [Value.shape, Shape.array.injEq] at same
          exact length_partsAll vs ws same
      | _ => cases same
  | .int _, w, same | .float _, w, same | .bool _, w, same | .string _, w, same
  | .date _, w, same | .duration _, w, same | .function _, w, same | .enumeration _ _, w, same
  | .null, w, same | .void, w, same => by
      rw [parts_of_shape (v := w) same.symm]
      rfl

theorem length_partsAll : ∀ vs ws : List Value, shapeAll vs = shapeAll ws →
    (partsAll vs).length = (partsAll ws).length
  | [], [], _ => rfl
  | v :: vs, w :: ws, same => by
      simp only [shapeAll, List.cons.injEq] at same
      rw [partsAll, partsAll, List.length_append, List.length_append, length_parts v w same.1,
        length_partsAll vs ws same.2]
  | [], _ :: _, same | _ :: _, [], same => nomatch same

end

theorem length_of_shapeAll : ∀ {vs ws : List Value}, shapeAll vs = shapeAll ws →
    vs.length = ws.length
  | [], [], _ => rfl
  | _ :: _, _ :: _, same => congrArg Nat.succ (length_of_shapeAll (List.cons.inj same).2)
  | [], _ :: _, same | _ :: _, [], same => nomatch same

end

/-! ## Element by element -/

theorem integerArithmetic_part (op : Operator) (a b : Int64) :
    Ends (fun r => r.shape = .part) (fun _ => True) (integerArithmetic op a b) := by
  have ofExact (arithmetic : Checked) (result : Option Int64) :
      Ends (fun r => r.shape = .part) (fun _ => True) (exact arithmetic .int result) := by
    cases result <;> trivial
  unfold integerArithmetic
  split
  · exact ofExact _ _
  · exact ofExact _ _
  · exact ofExact _ _
  · split <;> trivial
  · split
    · trivial
    · exact ofExact _ _
  · trivial

mutual

theorem arithmetic_inOrder (op : Operator) : ∀ v w : Value, v.shape = w.shape →
    v.Every IsInt → w.Every IsInt →
      InOrder v.shape (List.zipWith (arithmetic op) v.parts w.parts) (arithmetic op v w)
  | .array vs, w, same, left, right => by
      cases w with
      | array ws =>
          simp only [shape, Shape.array.injEq] at same
          rw [arithmetic, if_pos (length_of_shapeAll same)]
          exact (arithmeticAll_inOrder op vs ws same left right).array
      | _ => cases same
  | .int a, w, same, _, right => by
      have single := parts_of_shape (v := w) same.symm
      rcases right w (by rw [single]; exact List.mem_singleton_self w) with ⟨b, rfl⟩
      exact inOrder_part (integerArithmetic_part op a b)
  | .float _, _, _, left, _ | .bool _, _, _, left, _ | .string _, _, _, left, _
  | .date _, _, _, left, _ | .duration _, _, _, left, _ | .function _, _, _, left, _
  | .enumeration _ _, _, _, left, _ | .null, _, _, left, _ | .void, _, _, left, _ =>
      nomatch left _ (List.mem_singleton_self _)

theorem arithmeticAll_inOrder (op : Operator) : ∀ vs ws : List Value, shapeAll vs = shapeAll ws →
    (∀ part ∈ partsAll vs, part.IsInt) → (∀ part ∈ partsAll ws, part.IsInt) →
      InOrderAll (shapeAll vs) (List.zipWith (arithmetic op) (partsAll vs) (partsAll ws))
        (arithmeticAll op vs ws)
  | [], [], _, _, _ => ⟨rfl, rfl⟩
  | v :: vs, w :: ws, same, left, right => by
      simp only [shapeAll, List.cons.injEq] at same
      simp only [partsAll, List.forall_mem_append] at left right
      rw [arithmeticAll, partsAll, partsAll, List.zipWith_append (length_parts v w same.1)]
      exact (arithmetic_inOrder op v w same.1 left.1 right.1).cons
        (arithmeticAll_inOrder op vs ws same.2 left.2 right.2)
  | [], _ :: _, same, _, _ | _ :: _, [], same, _, _ => nomatch same

end

mutual

theorem negated_inOrder : ∀ v : Value, v.Every IsInt →
    InOrder v.shape (v.parts.map negated) v.negated
  | .array vs, ints => by
      rw [negated]
      exact (negatedAll_inOrder vs ints).array
  | .int a, _ => by
      apply inOrder_part
      rw [negated]
      cases neg? a <;> trivial
  | .float _, ints | .bool _, ints | .string _, ints | .date _, ints | .duration _, ints
  | .function _, ints | .enumeration _ _, ints | .null, ints | .void, ints =>
      nomatch ints _ (List.mem_singleton_self _)

theorem negatedAll_inOrder : ∀ vs : List Value, (∀ part ∈ partsAll vs, part.IsInt) →
    InOrderAll (shapeAll vs) ((partsAll vs).map negated) (negatedAll vs)
  | [], _ => ⟨rfl, rfl⟩
  | v :: vs, ints => by
      simp only [partsAll, List.forall_mem_append] at ints
      rw [negatedAll, partsAll, List.map_append]
      exact (negated_inOrder v ints.1).cons (negatedAll_inOrder vs ints.2)

end

theorem binary_eq_arithmetic {op : Operator} (isArithmetic : op.isArithmetic) :
    binary op = arithmetic op := by
  cases op <;> first | rfl | cases isArithmetic

/-! ## All integers -/

/-- What operators and the absolute value give for integers. -/
structure CalculatesExactly (a b : Int64) : Prop where
  sum : IsExact (a.toInt + b.toInt) .addition (binary .add (.int a) (.int b))
  difference : IsExact (a.toInt - b.toInt) .subtraction (binary .sub (.int a) (.int b))
  product : IsExact (a.toInt * b.toInt) .multiplication (binary .mul (.int a) (.int b))
  byZero : ∀ op ∈ [Operator.div, .mod],
    binary op (.int a) (.int b) = .error .divisionByZero ↔ b = 0
  quotient : b ≠ 0 → binary .div (.int a) (.int b) = .ok (.float (toFloat a / toFloat b))
  remainder : b ≠ 0 → ¬LeastByMinusOne a b →
    ∃ c, binary .mod (.int a) (.int b) = .ok (.int c) ∧ c.toInt = a.toInt.tmod b.toInt
  leastByMinusOne : LeastByMinusOne a b →
    binary .mod (.int a) (.int b) = .error (.overflow .remainder)
  opposite : IsExact (-a.toInt) .negation (unary .neg (.int a))
  magnitude : IsExact a.toInt.natAbs .absolute (Builtin.abs.call [.int a])

section

variable {a b : Int64}

theorem binary_mod (nonzero : b ≠ 0) :
    binary .mod (.int a) (.int b) = exact .remainder .int (rem? a b) :=
  if_neg nonzero

theorem divisionByZero_iff {op : Operator} (divides : op ∈ [Operator.div, .mod]) :
    binary op (.int a) (.int b) = .error .divisionByZero ↔ b = 0 := by
  simp only [List.mem_cons, List.not_mem_nil, or_false] at divides
  constructor
  · intro fails
    by_cases nonzero : b = 0
    · exact nonzero
    rcases divides with rfl | rfl
    · have isQuotient : binary .div (.int a) (.int b) = .ok (.float (toFloat a / toFloat b)) :=
        if_neg nonzero
      rw [isQuotient] at fails
      cases fails
    · rw [binary_mod nonzero] at fails
      cases result : rem? a b <;> rw [result, exact] at fails <;> cases fails
  · rintro rfl
    rcases divides with rfl | rfl <;> rfl

theorem calculatesExactly (a b : Int64) : CalculatesExactly a b where
  sum := isExact_checked _ _
  difference := isExact_checked _ _
  product := isExact_checked _ _
  byZero _ := divisionByZero_iff
  quotient nonzero := if_neg nonzero
  remainder := by
    intro nonzero proper
    rcases exists_rem? nonzero proper with ⟨c, found, same⟩
    exact ⟨c, by rw [binary_mod nonzero, found, exact], same⟩
  leastByMinusOne := by
    intro least
    have nonzero : b ≠ 0 := by
      rw [least.2]
      decide
    rw [binary_mod nonzero, rem?_of_leastByMinusOne least, exact]
  opposite := isExact_checked _ _
  magnitude := absolute_isExact a

end

/-- Operators are exact on integers, and element by element on arrays of integers nested alike. -/
theorem integers_exact :
    (∀ a b : Int64, CalculatesExactly a b) ∧
    (∀ (op : Operator) (v w : Value), op.isArithmetic → v.shape = w.shape →
      v.Every IsInt → w.Every IsInt →
        InOrder v.shape (List.zipWith (binary op) v.parts w.parts) (binary op v w)) ∧
    ∀ v : Value, v.Every IsInt → InOrder v.shape (v.parts.map (unary .neg)) (unary .neg v) := by
  refine ⟨calculatesExactly, ?_, negated_inOrder⟩
  intro op v w isArithmetic same left right
  rw [binary_eq_arithmetic isArithmetic]
  exact arithmetic_inOrder op v w same left right

/-- Rows whose second remainder is an overflow. -/
theorem integers_exact_row :
    let row := array [.int 7, .int Int64.minValue]
    let divisors := array [.int (-2), .int (-1)]
    CalculatesExactly 7 (-2) ∧ row.shape = divisors.shape ∧ row.Every IsInt ∧ divisors.Every IsInt ∧
    InOrder row.shape (List.zipWith (binary .mod) row.parts divisors.parts)
      (binary .mod row divisors) ∧
    InOrder row.shape (row.parts.map (unary .neg)) (unary .neg row) := by
  intro row divisors
  have ints (m n : Int64) : (array [.int m, .int n]).Every IsInt := by
    rw [every_array, List.forall_mem_cons, List.forall_mem_singleton]
    exact ⟨every_of_part rfl ⟨m, rfl⟩, every_of_part rfl ⟨n, rfl⟩⟩
  exact ⟨integers_exact.1 7 (-2), rfl, ints _ _, ints _ _,
    integers_exact.2.1 .mod row divisors rfl rfl (ints _ _) (ints _ _),
    integers_exact.2.2 row (ints _ _)⟩

/-- The remainder of the least integer by minus one has 64 bits, but there is an overflow. -/
theorem remainder_of_least :
    ¬IsExact (Int64.minValue.toInt.tmod (-1 : Int64).toInt) .remainder
      (binary .mod (.int Int64.minValue) (.int (-1))) := by
  intro isExact
  rcases isExact.value (by decide) with ⟨c, outcome, -⟩
  rw [(calculatesExactly _ _).leastByMinusOne ⟨rfl, rfl⟩] at outcome
  cases outcome

end Value

end Formulae
