import Formulae.Proofs.Tree.Readable
import Formulae.Proofs.Ty.Conversions
import Formulae.Ty.Operator
import Formulae.Ty.Signature

/-!
# Results are final

Operators and calls give values and no places: the types of their results are final.  An
element is a place only if the array is one.
-/

namespace Formulae

namespace Ty

theorem withFinal_of_isFinal {t : Ty} (final : t.isFinal) : t.withFinal true = t := by
  cases t <;> cases final <;> rfl

variable {op : Operator} {a b result : Ty}

theorem isFinal_plainArithmetic? (rule : plainArithmetic? op a b = some result) :
    result.isFinal := by
  unfold plainArithmetic? at rule
  split at rule <;> (try split at rule) <;> cases rule <;> rfl

theorem isFinal_scalarArithmetic? (rule : scalarArithmetic? op a b = some result) :
    result.isFinal := by
  rcases Option.or_eq_some_iff.mp rule with forward | ⟨-, backward⟩
  · exact isFinal_plainArithmetic? forward
  · split at backward
    · exact isFinal_plainArithmetic? backward
    · cases backward

theorem isFinal_arithmetic? (rule : arithmetic? op a b = some result) : result.isFinal := by
  have ofMap {inner : Option Ty} {length : Option Nat}
      (mapped : inner.map (arrayOf · length) = some result) : result.isFinal := by
    rcases Option.map_eq_some_iff.mp mapped with ⟨_, _, rfl⟩
    rfl
  unfold arithmetic? at rule
  split at rule
  · split at rule
    · exact ofMap rule
    · cases rule
  · split at rule
    · cases rule
      rfl
    · exact ofMap rule
  · split at rule
    · cases rule
      rfl
    · split at rule
      · exact ofMap rule
      · cases rule
  · exact isFinal_scalarArithmetic? rule

theorem isFinal_negResult? (rule : a.negResult? = some result) : result.isFinal := by
  unfold negResult? at rule
  split at rule
  case h_5 =>
    rcases Option.map_eq_some_iff.mp rule with ⟨_, _, rfl⟩
    rfl
  all_goals cases rule
  all_goals rfl

theorem isFinal_unaryResult? (rule : unaryResult? op a = some result) : result.isFinal := by
  unfold unaryResult? at rule
  split at rule
  · cases rule
  · cases op with
    | not => cases rule; rfl
    | neg => exact isFinal_negResult? rule
    | _ => cases rule

theorem isFinal_binaryResult? (isInfix : op.IsInfix) (noCast : op ≠ .typeCast)
    (noAssignment : op.isAssignment = false) (rule : binaryResult? op a b = some result) :
    result.isFinal := by
  unfold binaryResult? at rule
  split at rule
  · cases rule
  · cases op with
    | add | sub | mul | div | mod => exact isFinal_arithmetic? rule
    | and | or | xor => cases rule; rfl
    | eq | notEq | lt | gt | ltEq | gtEq => dsimp only at rule; split at rule <;> cases rule; rfl
    | assign | addAssign | subAssign | mulAssign | divAssign => cases noAssignment
    | typeCast => exact absurd rfl noCast
    | not | neg | call => cases rule
    | index => exact absurd isInfix.2 (by decide)

theorem isFinal_element? (final : a.isFinal) (rule : a.element? b = some result) :
    result.isFinal := by
  unfold element? at rule
  split at rule
  case h_5 => cases rule
  case h_1 | h_2 =>
    cases rule
    rw [isFinal_withFinal]
    exact final
  all_goals
    cases rule
    exact final

theorem isFinal_widestNumeric? {types : List Ty} (widest : widestNumeric? types = some result) :
    result.isFinal := by
  unfold widestNumeric? at widest
  split at widest
  · cases widest
  · split at widest
    · cases widest; rfl
    · split at widest <;> cases widest <;> rfl

end Ty

theorem Signature.isFinal_result? {signature : Signature} {types : List Ty} {result : Ty}
    (resolved : signature.result? types = some result) : result.isFinal := by
  unfold Signature.result? at resolved
  split at resolved
  · unfold Resolver.resolve? at resolved
    split at resolved
    · exact Ty.isFinal_widestNumeric? resolved
    · cases resolved; rfl
    · split at resolved
      · split at resolved
        · cases resolved
          exact Ty.isFinal_withFinal _ _
        · exact Ty.isFinal_widestNumeric? resolved
      · exact Ty.isFinal_widestNumeric? resolved
  · cases resolved
    exact Ty.isFinal_withFinal _ _

end Formulae
