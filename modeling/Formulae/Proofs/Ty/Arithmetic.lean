import Formulae.Proofs.Ty.Conversions
import Formulae.Proofs.Value.Exact
import Formulae.Proofs.Value.Operators
import Formulae.Proofs.Value.Rules
import Formulae.Typing.Expr

/-!
# What arithmetic gives

The type of an arithmetic operation depends on no finality, is mixed only where an operand is,
and never needs a conversion on its way into a place of the type of the left operand.  Where an
operand may be read as a string or as a date or a duration, the operation is defined for one of
the readings only, unless the other operand is mixed at its leaves
(`arithmetic?_eq_none_or`).
-/

namespace Formulae.Ty

variable {op : Operator} {a b result : Ty}

/-! ## Finality -/

theorem plainArithmetic?_withFinal_left (a b : Ty) (f : Bool) :
    plainArithmetic? op (a.withFinal f) b = plainArithmetic? op a b := by
  cases a with
  | basic type g =>
      cases b with
      | basic type' g' => cases type <;> cases type' <;> rfl
      | _ => cases type <;> rfl
  | _ =>
      cases b with
      | basic type g => cases type <;> rfl
      | _ => rfl

theorem plainArithmetic?_withFinal_right (a b : Ty) (f : Bool) :
    plainArithmetic? op a (b.withFinal f) = plainArithmetic? op a b := by
  cases b with
  | basic type g =>
      cases a with
      | basic type' g' => cases type <;> cases type' <;> rfl
      | _ => cases type <;> rfl
  | _ =>
      cases a with
      | basic type g => cases type <;> rfl
      | _ => rfl

theorem spread?_withFinal (right : Ty) (f : Bool) : ∀ left : Ty,
    spread? op (right.withFinal f) left = spread? op right left
  | .array element length g => by rw [spread?, spread?, spread?_withFinal right f element]
  | .basic .. | .null .. | .function .. | .enumeration .. | .typeLiteral .. => by
      rw [spread?_of_not_array rfl, spread?_of_not_array rfl, scalarArithmetic?, scalarArithmetic?,
        plainArithmetic?_withFinal_left, plainArithmetic?_withFinal_right]

theorem isArray_withFinal (a : Ty) (f : Bool) : (a.withFinal f).isArray = a.isArray := by
  cases a <;> rfl

theorem arithmetic?_withFinal_left (a b : Ty) (f : Bool) :
    arithmetic? op (a.withFinal f) b = arithmetic? op a b := by
  have left : (a.withFinal f).isArray = a.isArray := isArray_withFinal a f
  cases a with
  | array => cases b <;> rfl
  | _ =>
      cases b with
      | array =>
          rw [arithmetic?_array_right left, arithmetic?_array_right rfl, isMixed_withFinal,
            spread?_withFinal]
      | _ =>
          rw [arithmetic?_of_not_array left rfl, arithmetic?_of_not_array rfl rfl,
            scalarArithmetic?, scalarArithmetic?, plainArithmetic?_withFinal_left,
            plainArithmetic?_withFinal_right]

theorem convertsFrom_withFinal_left (a b : Ty) (f : Bool) :
    (a.withFinal f).convertsFrom b = a.convertsFrom b := by
  cases a with
  | basic type g =>
      cases b with
      | basic type' => cases type <;> cases type' <;> rfl
      | _ => cases type <;> rfl
  | _ => cases b <;> rfl

/-! ## Results -/

/-- Arithmetic gives a value, and a mixed one where an operand is mixed and nowhere else.
Storing it in the place of the left operand needs no conversion. -/
structure Combines (a b result : Ty) : Prop where
  hasValue : result.isVoid = false
  isMixed : result.isMixed ↔ a.isMixed ∨ b.isMixed
  unconverted : a.convertsFrom result = false

theorem not_convertsFrom_mixed (a : Ty) : a.convertsFrom mixed = false := by
  cases a with
  | basic type => cases type <;> rfl
  | _ => rfl

theorem ArithmeticRule.combines (rule : ArithmeticRule op a b result) :
    Combines a b result ∧ Combines b a result := by
  have hasValue : result.isVoid = false := by
    cases rule <;> first | rfl | (split <;> rfl)
  have isMixed : result.isMixed ↔ a.isMixed ∨ b.isMixed := by
    cases rule with
    | ints => split <;> simp [Ty.isMixed, float, int]
    | _ => simp [Ty.isMixed, mixed, float, string, date, duration]
  have unconverted : a.convertsFrom result = false ∧ b.convertsFrom result = false := by
    cases rule with
    | mixedLeft f b => exact ⟨rfl, not_convertsFrom_mixed b⟩
    | mixedRight a f => exact ⟨not_convertsFrom_mixed a, rfl⟩
    | ints => split <;> exact ⟨rfl, rfl⟩
    | _ => exact ⟨rfl, rfl⟩
  exact ⟨⟨hasValue, isMixed, unconverted.1⟩, ⟨hasValue, isMixed.trans or_comm, unconverted.2⟩⟩

theorem combines_of_scalarArithmetic? (defined : scalarArithmetic? op a b = some result) :
    Combines a b result := by
  rcases Option.or_eq_some_iff.mp defined with forward | ⟨-, backward⟩
  · exact (arithmeticRule_of_eq_some forward).combines.1
  · split at backward
    · exact (arithmeticRule_of_eq_some backward).combines.2
    · cases backward

theorem unconverted_of_spread? : ∀ (a : Ty) {result : Ty}, spread? op b a = some result →
    a.convertsFrom result = false
  | .array element length f, _, defined => by
      rcases Option.map_eq_some_iff.mp defined with ⟨inner, elementwise, rfl⟩
      exact unconverted_of_spread? element elementwise
  | .basic .., _, defined | .null .., _, defined | .function .., _, defined
  | .enumeration .., _, defined | .typeLiteral .., _, defined =>
      (combines_of_scalarArithmetic? defined).unconverted

theorem combines_arrayOf {element inner : Ty} {length length' : Option Nat} {f : Bool}
    (notMixed : b.isMixed = false) (unconverted : element.convertsFrom inner = false) :
    Combines (.array element length f) b (arrayOf inner length') where
  hasValue := rfl
  isMixed := by
    rw [notMixed]
    exact ⟨nofun, nofun⟩
  unconverted := unconverted

theorem combines_of_array_left {element : Ty} {length : Option Nat} {f : Bool}
    (right : b.isArray = false)
    (defined : arithmetic? op (.array element length f) b = some result) :
    Combines (.array element length f) b result := by
  rw [arithmetic?_array_left right] at defined
  split at defined
  · next isMixed =>
      cases defined
      exact ⟨rfl, iff_of_true rfl (.inr isMixed), rfl⟩
  · next notMixed =>
      rcases Option.map_eq_some_iff.mp defined with ⟨inner, elementwise, rfl⟩
      exact combines_arrayOf (eq_false_of_ne_true notMixed) (unconverted_of_spread? _ elementwise)

theorem combines_of_array_right {element : Ty} {length : Option Nat} {f : Bool}
    (left : a.isArray = false)
    (defined : arithmetic? op a (.array element length f) = some result) :
    Combines a (.array element length f) result := by
  rw [arithmetic?_array_right left] at defined
  split at defined
  · next isMixed =>
      cases defined
      exact ⟨rfl, iff_of_true rfl (.inl isMixed), not_convertsFrom_mixed a⟩
  · next notMixed =>
      split at defined
      · rcases Option.map_eq_some_iff.mp defined with ⟨inner, -, rfl⟩
        refine ⟨rfl, ?_, ?_⟩
        · rw [eq_false_of_ne_true notMixed]
          exact ⟨nofun, nofun⟩
        · cases a with
          | array => cases left
          | basic type => cases type <;> rfl
          | _ => rfl
      · cases defined

/-- Arithmetic combines its operands wherever it is defined. -/
theorem combines_of_arithmetic? : ∀ (a b : Ty) {result : Ty}, arithmetic? op a b = some result →
    Combines a b result
  | .array element length f, .array element' length' g, _, defined => by
      rw [arithmetic?] at defined
      split at defined
      · rcases Option.map_eq_some_iff.mp defined with ⟨inner, elementwise, rfl⟩
        exact combines_arrayOf rfl
          (combines_of_arithmetic? element element' elementwise).unconverted
      · cases defined
  | .array .., .basic .., _, defined | .array .., .null .., _, defined
  | .array .., .function .., _, defined | .array .., .enumeration .., _, defined
  | .array .., .typeLiteral .., _, defined => combines_of_array_left rfl defined
  | .basic .., b, _, defined | .null .., b, _, defined | .function .., b, _, defined
  | .enumeration .., b, _, defined | .typeLiteral .., b, _, defined => by
      cases b with
      | array => exact combines_of_array_right rfl defined
      | _ => exact combines_of_scalarArithmetic? defined

/-- Mixed values go into mixed places only. -/
theorem isMixed_of_accepts (accepts : a.accepts b) (isMixed : b.isMixed) : a.isMixed := by
  cases b with
  | basic type =>
      cases type with
      | mixed =>
          cases a with
          | basic type' => cases type' <;> first | rfl | cases accepts
          | _ => cases accepts
      | _ => cases isMixed
  | _ => cases isMixed

/-! ## Two readings of an operand -/

/-- An operand that is neither an array nor mixed is combined with all leaves. -/
theorem arithmetic?_eq_spread? (notArray : b.isArray = false) (notMixed : b.isMixed = false) :
    arithmetic? op a b = spread? op b a := by
  cases a with
  | array element length f =>
      rw [arithmetic?_array_left notArray, notMixed]
      rfl
  | _ => exact arithmetic?_of_not_array rfl notArray

section

variable {c : Ty} (calendar : Typing.isCalendar c)
include calendar

theorem eq_of_isCalendar : ∃ f, c = .basic .date f ∨ c = .basic .duration f := by
  cases c with
  | basic type f =>
      cases type with
      | date => exact ⟨f, .inl rfl⟩
      | duration => exact ⟨f, .inr rfl⟩
      | _ => cases calendar
  | _ => cases calendar

theorem spread?_of_mixed_leaf : ∀ a : Ty, a.leaf.isMixed → spread? op c a = spread? op string a
  | .array element _ _, mixed => by
      rw [spread?, spread?, spread?_of_mixed_leaf element mixed]
  | .basic type f, mixed => by
      rcases eq_of_isCalendar calendar with ⟨g, rfl | rfl⟩ <;> cases type <;> first
        | rfl
        | cases mixed

/-- Where the other operand is not mixed, one of the readings fails, and only operators for which
literals are tried as dates and durations may take the second one. -/
theorem scalarArithmetic?_of_not_mixed (notMixed : a.isMixed = false) :
    (scalarArithmetic? op a string = none ∨ scalarArithmetic? op a c = none) ∧
      (Typing.readsCalendar op = false → scalarArithmetic? op a c = none) := by
  have notSum (reads : Typing.readsCalendar op = false) : op ≠ .add ∧ op ≠ .sub ∧ op ≠ .mul := by
    refine ⟨?_, ?_, ?_⟩ <;> rintro rfl <;> cases reads
  rcases eq_of_isCalendar calendar with ⟨g, rfl | rfl⟩
  all_goals
    cases a with
    | basic type f =>
        cases type with
        | mixed => cases notMixed
        | _ => simp +contextual [scalarArithmetic?, plainArithmetic?, string, notSum]
    | _ => simp [scalarArithmetic?, plainArithmetic?, string]

variable (op) in
theorem spread?_of_not_mixed : ∀ a : Ty, a.leaf.isMixed = false →
    (spread? op string a = none ∨ spread? op c a = none) ∧
      (Typing.readsCalendar op = false → spread? op c a = none)
  | .array element _ _, notMixed => by
      simpa only [spread?, Option.map_eq_none_iff] using spread?_of_not_mixed element notMixed
  | .basic .., notMixed | .null _, notMixed | .function .., notMixed | .enumeration .., notMixed
  | .typeLiteral .., notMixed => scalarArithmetic?_of_not_mixed calendar notMixed

theorem arithmetic?_eq_spread?_of_isCalendar : arithmetic? op a c = spread? op c a := by
  rcases eq_of_isCalendar calendar with ⟨g, rfl | rfl⟩ <;> exact arithmetic?_eq_spread? rfl rfl

variable (op) in
/-- An operation is defined for one of the readings only, if the other operand is not mixed at
its leaves. -/
theorem arithmetic?_eq_none_or (notMixed : a.leaf.isMixed = false) :
    arithmetic? op a string = none ∨ arithmetic? op a c = none := by
  rw [arithmetic?_eq_spread?_of_isCalendar calendar, arithmetic?_eq_spread? rfl rfl]
  exact (spread?_of_not_mixed op calendar a notMixed).1

variable (op a) in
/-- Which reading is tried first makes no difference to the type that arithmetic gives. -/
theorem arithmetic?_or_comm :
    (arithmetic? op a string).or (arithmetic? op a c)
      = if Typing.readsCalendar op then (arithmetic? op a c).or (arithmetic? op a string)
        else arithmetic? op a string := by
  rw [arithmetic?_eq_spread?_of_isCalendar calendar, arithmetic?_eq_spread? rfl rfl]
  cases mixed : a.leaf.isMixed with
  | true =>
      rw [spread?_of_mixed_leaf calendar a mixed]
      cases spread? op string a <;> simp
  | false =>
      rcases spread?_of_not_mixed op calendar a mixed with ⟨one, reads⟩
      cases isRead : Typing.readsCalendar op with
      | true => rcases one with none | none <;> simp [none]
      | false => simp [reads isRead]

end

end Formulae.Ty
