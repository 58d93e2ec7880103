import Formulae.Proofs.Tree.Readable
import Formulae.Proofs.Value.Admits
import Formulae.Proofs.Value.Unordered

/-!
# Operators on values of types

Where an operator is defined on types, it takes values of them to values of the type that
it gives, or fails for an ordinary reason (`Value.binary_typed`, `Value.negated_typed`,
`Value.element_typed`, `Value.cast_typed`).  Only where an operand is mixed it may turn out
not to apply, or where floats have no order.
-/

namespace Formulae

/-- What may go wrong with values of any types. -/
def EvalFault.isOrdinary : EvalFault → Bool
  | .divisionByZero | .overflow _ | .dateOutOfRange | .outOfRange _ _ | .lengthMismatch _ _
  | .invalidCast _ _ | .invalidArgument _ _ | .hostFailure _ _ => true
  | _ => false

namespace EvalFault

/-- The fault is an ordinary one, or it is a misfit, which takes something mixed. -/
def Allowed (mixed : Bool) (misfit : EvalFault → Prop) (fault : EvalFault) : Prop :=
  fault.isOrdinary ∨ mixed ∧ misfit fault

/-- The operator may not combine its operands. -/
abbrev Combining (op : Operator) (mixed : Bool) (fault : EvalFault) : Prop :=
  fault.Allowed mixed fun fault => ∃ left right, fault = .binaryMismatch op left right

/-- The operand may not be one that can be negated. -/
abbrev Negating (mixed : Bool) (fault : EvalFault) : Prop :=
  fault.Allowed mixed fun fault => ∃ operand, fault = .unaryMismatch .neg operand

/-- The operands may not be an array and an index. -/
abbrev Indexing (mixed : Bool) (fault : EvalFault) : Prop :=
  fault.Allowed mixed fun fault =>
    (∃ left right, fault = .binaryMismatch .index left right) ∨
      ∃ subscript, fault = .invalidIndex subscript

theorem Allowed.mono {mixed mixed' : Bool} {misfit : EvalFault → Prop} {fault : EvalFault}
    (allowed : fault.Allowed mixed misfit) (h : mixed → mixed') : fault.Allowed mixed' misfit :=
  allowed.imp id (And.imp_left h)

end EvalFault

namespace Ty

variable {f : Bool} {v : Value}

/-! ## Values of plain types -/

theorem int_of_admits (h : (basic .int f).admits v) : ∃ n, v = .int n := by
  cases v <;> first | exact ⟨_, rfl⟩ | cases h

theorem float_of_admits (h : (basic .float f).admits v) :
    (∃ n, v = .int n) ∨ ∃ x, v = .float x := by
  cases v <;> first | exact .inl ⟨_, rfl⟩ | exact .inr ⟨_, rfl⟩ | cases h

theorem string_of_admits (h : (basic .string f).admits v) : ∃ text, v = .string text := by
  cases v <;> first | exact ⟨_, rfl⟩ | cases h

theorem boolean_of_admits (h : (basic .boolean f).admits v) : ∃ b, v = .bool b := by
  cases v <;> first | exact ⟨_, rfl⟩ | cases h

theorem date_of_admits (h : (basic .date f).admits v) : ∃ d, v = .date d := by
  cases v <;> first | exact ⟨_, rfl⟩ | cases h

theorem duration_of_admits (h : (basic .duration f).admits v) : ∃ d, v = .duration d := by
  cases v <;> first | exact ⟨_, rfl⟩ | cases h

theorem not_array_of_admits {type : Ty} (notArray : type.isArray = false)
    (notMixed : type.isMixed = false) (h : type.admits v) : v.asArray? = none := by
  cases v with
  | array =>
      cases type with
      | basic type =>
          cases type with
          | mixed => cases notMixed
          | _ => cases h
      | array => cases notArray
      | _ => cases h
  | _ => rfl

end Ty

namespace Value

variable {op : Operator} {v w : Value}

/-! ## Numbers -/

theorem exact_int_typed (arithmetic : Checked) (result : Option Int64) :
    Ends (fun r => Ty.int.admits r) (fun fault => fault.isOrdinary)
      (exact arithmetic .int result) := by
  cases result <;> rfl

theorem exact_duration_typed (arithmetic : Checked) (result : Option Duration) :
    Ends (fun r => Ty.duration.admits r) (fun fault => fault.isOrdinary)
      (exact arithmetic .duration result) := by
  cases result <;> rfl

theorem shifted_typed (date : Option Date) :
    Ends (fun r => Ty.date.admits r) (fun fault => fault.isOrdinary) (shifted date) := by
  cases date <;> rfl

section

variable (isArithmetic : op.isArithmetic)
include isArithmetic

theorem integerArithmetic_typed (a b : Int64) :
    Ends (fun r => (if op = .div then Ty.float else Ty.int).admits r)
      (fun fault => fault.isOrdinary) (integerArithmetic op a b) := by
  cases op with
  | add | sub | mul => exact exact_int_typed _ _
  | div =>
      change Ends (fun r => Ty.float.admits r) _ _
      rw [integerArithmetic]
      split
      · exact ends_error rfl
      · exact ends_ok rfl
  | mod =>
      change Ends (fun r => Ty.int.admits r) _ _
      rw [integerArithmetic]
      split
      · exact ends_error rfl
      · exact exact_int_typed _ _
  | _ => cases isArithmetic

theorem floatArithmetic_typed (x y : Float) :
    Ends (fun r => Ty.float.admits r) (fun fault => fault.isOrdinary) (floatArithmetic op x y) := by
  cases op with
  | add | sub | mul | div | mod => exact ends_ok rfl
  | _ => cases isArithmetic

/-! ## Operands that are no arrays -/

/-- The rules for plain operands are there for the values of the types that they are there
for. -/
theorem plainArithmetic_typed {a b result : Ty} (rule : Ty.plainArithmetic? op a b = some result)
    (notMixed : a.isMixed = false) (notMixed' : b.isMixed = false) (left : a.admits v)
    (right : b.admits w) : ∃ outcome, plainArithmetic? op v w = some outcome ∧
      Ends (fun r => result.admits r) (fun fault => fault.isOrdinary) outcome := by
  have ofNumbers {x y : Float} (outcome : plainArithmetic? op v w = some (floatArithmetic op x y)) :
      ∃ outcome, plainArithmetic? op v w = some outcome ∧
        Ends (fun r => Ty.float.admits r) (fun fault => fault.isOrdinary) outcome :=
    ⟨_, outcome, floatArithmetic_typed isArithmetic x y⟩
  have ofIntegers {m n : Int64}
      (outcome : plainArithmetic? op v w = some (integerArithmetic op m n)) :
      ∃ outcome, plainArithmetic? op v w = some outcome ∧
        Ends (fun r => Ty.float.admits r) (fun fault => fault.isOrdinary) outcome := by
    refine ⟨_, outcome, (integerArithmetic_typed isArithmetic m n).mono ?_ fun _ => id⟩
    intro r isInt
    split at isInt
    · exact isInt
    · exact Ty.float_admits_of_isNumeric (Ty.isNumeric_of_admits rfl isInt)
  unfold Ty.plainArithmetic? at rule
  split at rule
  case h_1 | h_2 => cases rule
  case h_3 => cases notMixed
  case h_4 => cases notMixed'
  case h_5 =>
    rcases Ty.int_of_admits left with ⟨m, rfl⟩
    rcases Ty.int_of_admits right with ⟨n, rfl⟩
    cases rule
    exact ⟨_, rfl, integerArithmetic_typed isArithmetic m n⟩
  case h_6 =>
    cases rule
    rcases Ty.int_of_admits left with ⟨m, rfl⟩
    rcases Ty.float_of_admits right with ⟨n, rfl⟩ | ⟨y, rfl⟩
    · exact ofIntegers rfl
    · exact ofNumbers rfl
  case h_7 =>
    cases rule
    rcases Ty.int_of_admits right with ⟨n, rfl⟩
    rcases Ty.float_of_admits left with ⟨m, rfl⟩ | ⟨x, rfl⟩
    · exact ofIntegers rfl
    · exact ofNumbers rfl
  case h_8 =>
    cases rule
    rcases Ty.float_of_admits left with ⟨m, rfl⟩ | ⟨x, rfl⟩ <;>
      rcases Ty.float_of_admits right with ⟨n, rfl⟩ | ⟨y, rfl⟩
    · exact ofIntegers rfl
    all_goals exact ofNumbers rfl
  case h_9 =>
    rcases Ty.string_of_admits left with ⟨x, rfl⟩
    rcases Ty.string_of_admits right with ⟨y, rfl⟩
    split at rule <;> cases rule
    next isAdd => exact ⟨_, if_pos isAdd, rfl⟩
  case h_10 =>
    rcases Ty.date_of_admits left with ⟨d, rfl⟩
    rcases Ty.duration_of_admits right with ⟨p, rfl⟩
    split at rule <;> cases rule
    next isSum => rcases isSum with rfl | rfl <;> exact ⟨_, rfl, shifted_typed _⟩
  case h_11 =>
    rcases Ty.date_of_admits left with ⟨d, rfl⟩
    rcases Ty.date_of_admits right with ⟨p, rfl⟩
    split at rule <;> cases rule
    next isSub => exact ⟨_, if_pos isSub, rfl⟩
  case h_12 =>
    rcases Ty.duration_of_admits left with ⟨p, rfl⟩
    rcases Ty.duration_of_admits right with ⟨q, rfl⟩
    split at rule <;> cases rule
    next isSum => rcases isSum with rfl | rfl <;> exact ⟨_, rfl, exact_duration_typed _ _⟩
  case h_13 =>
    rcases Ty.duration_of_admits left with ⟨p, rfl⟩
    rcases Ty.int_of_admits right with ⟨n, rfl⟩
    split at rule <;> cases rule
    next isMul => exact ⟨_, if_pos isMul, exact_duration_typed _ _⟩
  case h_14 => cases rule

/-- Values without a rule in one order have none if they have one in the other. -/
theorem scalarArithmetic_typed {a b result : Ty}
    (rule : Ty.scalarArithmetic? op a b = some result) (notMixed : a.isMixed = false)
    (notMixed' : b.isMixed = false) (left : a.admits v) (right : b.admits w) :
    Ends (fun r => result.admits r) (fun fault => fault.isOrdinary) (scalarArithmetic op v w) := by
  rcases Option.or_eq_some_iff.mp rule with forward | ⟨noForward, backward⟩
  · rcases plainArithmetic_typed isArithmetic forward notMixed notMixed' left right with
      ⟨outcome, found, ends⟩
    rw [scalarArithmetic, found]
    exact ends
  · split at backward
    case isFalse => cases backward
    case isTrue commutative =>
      rcases plainArithmetic_typed isArithmetic backward notMixed' notMixed right left with
        ⟨outcome, found, ends⟩
      have noRule : plainArithmetic? op v w = none := by
        unfold Ty.plainArithmetic? at backward
        split at backward
        case h_1 | h_2 => cases backward
        case h_3 => cases notMixed'
        case h_4 => cases notMixed
        case h_5 | h_6 | h_7 | h_8 => cases noForward
        case h_9 =>
          split at backward <;> cases backward
          next isAdd => rw [isAdd] at noForward; cases noForward
        case h_10 =>
          rcases Ty.duration_of_admits left with ⟨p, rfl⟩
          rcases Ty.date_of_admits right with ⟨d, rfl⟩
          rfl
        case h_11 =>
          split at backward <;> cases backward
          next isSub => rw [isSub] at commutative; cases commutative
        case h_12 =>
          split at backward <;> cases backward
          next isSum => rcases isSum with rfl | rfl <;> cases noForward
        case h_13 =>
          rcases Ty.int_of_admits left with ⟨n, rfl⟩
          rcases Ty.duration_of_admits right with ⟨p, rfl⟩
          rfl
        case h_14 => cases backward
      rw [scalarArithmetic, noRule]
      dsimp only
      rw [if_pos commutative, found]
      exact ends

/-! ## Operands of unknown types -/

theorem plainArithmetic_mixed {outcome : Result} (rule : plainArithmetic? op v w = some outcome) :
    Ends (fun r => Ty.mixed.admits r) (fun fault => fault.isOrdinary) outcome := by
  have ofTyped {type : Ty} {outcome : Result}
      (ends : Ends (fun r => type.admits r) (fun fault => fault.isOrdinary) outcome)
      (value : type.isVoid = false) :
      Ends (fun r => Ty.mixed.admits r) (fun fault => fault.isOrdinary) outcome :=
    ends.mono (fun _ typed => Ty.mixed_admits (Ty.not_isVoid_of_admits value typed)) fun _ => id
  unfold plainArithmetic? at rule
  split at rule
  · cases rule
    refine ofTyped (integerArithmetic_typed isArithmetic _ _) ?_
    split <;> rfl
  · cases rule
    exact ofTyped (floatArithmetic_typed isArithmetic _ _) rfl
  · cases rule
    exact ofTyped (floatArithmetic_typed isArithmetic _ _) rfl
  · cases rule
    exact ofTyped (floatArithmetic_typed isArithmetic _ _) rfl
  · split at rule <;> cases rule
    exact ends_ok rfl
  · split at rule <;> cases rule <;> exact ofTyped (shifted_typed _) rfl
  · split at rule <;> cases rule
    exact ends_ok rfl
  · split at rule <;> cases rule <;> exact ofTyped (exact_duration_typed _ _) rfl
  · split at rule <;> cases rule
    exact ofTyped (exact_duration_typed _ _) rfl
  · cases rule

omit isArithmetic in
theorem mismatch_mixed : Ends (fun r => Ty.mixed.admits r) (EvalFault.Combining op true)
    (mismatch op v w) :=
  ends_error (.inr ⟨rfl, _, _, rfl⟩)

theorem scalarArithmetic_mixed (v w : Value) :
    Ends (fun r => Ty.mixed.admits r) (EvalFault.Combining op true) (scalarArithmetic op v w) := by
  have ordinary {v w : Value} {outcome : Result} (rule : plainArithmetic? op v w = some outcome) :
      Ends (fun r => Ty.mixed.admits r) (EvalFault.Combining op true) outcome :=
    (plainArithmetic_mixed isArithmetic rule).mono (fun _ => id) fun _ => .inl
  unfold scalarArithmetic
  split
  · next rule => exact ordinary rule
  · split
    · cases rule : plainArithmetic? op w v with
      | none => exact mismatch_mixed
      | some outcome => exact ordinary rule
    · exact mismatch_mixed

end

/-! ## Arrays of operands -/

section

variable {good : Value → Prop} {bad : EvalFault → Prop}

theorem ends_spreadAll {right : Value} {lefts : List Value}
    (each : ∀ left ∈ lefts, Ends good bad (spread op right left)) :
    Ends (fun rs => ∀ r ∈ rs, good r) bad (spreadAll op right lefts) := by
  induction lefts with
  | nil => exact ends_ok nofun
  | cons left rest inductionHypothesis =>
      rw [List.forall_mem_cons] at each
      rw [spreadAll]
      apply each.1.bind
      intro first isGood
      apply (inductionHypothesis each.2).bind
      exact fun others areGood => ends_ok (List.forall_mem_cons.mpr ⟨isGood, areGood⟩)

theorem ends_arithmeticAll {lefts rights : List Value}
    (each : ∀ left ∈ lefts, ∀ right ∈ rights, Ends good bad (arithmetic op left right)) :
    Ends (fun rs => ∀ r ∈ rs, good r) bad (arithmeticAll op lefts rights) := by
  induction lefts generalizing rights with
  | nil => exact ends_ok nofun
  | cons left lefts inductionHypothesis =>
      cases rights with
      | nil => exact ends_ok nofun
      | cons right rights =>
          rw [arithmeticAll]
          apply (each left List.mem_cons_self right List.mem_cons_self).bind
          intro first isGood
          have later := inductionHypothesis fun left member right member' =>
            each left (List.mem_cons_of_mem _ member) right (List.mem_cons_of_mem _ member')
          apply later.bind
          exact fun others areGood => ends_ok (List.forall_mem_cons.mpr ⟨isGood, areGood⟩)

theorem ends_negatedAll {operands : List Value}
    (each : ∀ operand ∈ operands, Ends good bad operand.negated) :
    Ends (fun rs => ∀ r ∈ rs, good r) bad (negatedAll operands) := by
  induction operands with
  | nil => exact ends_ok nofun
  | cons operand rest inductionHypothesis =>
      rw [List.forall_mem_cons] at each
      rw [negatedAll]
      apply each.1.bind
      intro first isGood
      apply (inductionHypothesis each.2).bind
      exact fun others areGood => ends_ok (List.forall_mem_cons.mpr ⟨isGood, areGood⟩)

end

theorem spread_of_not_array {right : Value} (notArray : v.asArray? = none) :
    spread op right v = scalarArithmetic op v right := by
  cases v <;> first | rfl | cases notArray

theorem arithmetic_of_not_array (left : v.asArray? = none) (right : w.asArray? = none) :
    arithmetic op v w = scalarArithmetic op v w := by
  cases v with
  | array => cases left
  | _ =>
      cases w with
      | array => cases right
      | _ => rfl

theorem arithmetic_array_left {items : List Value} (right : w.asArray? = none) :
    arithmetic op (.array items) w = (spreadAll op w items).map .array := by
  cases w <;> first | rfl | cases right

theorem arithmetic_array_right {items : List Value} (left : v.asArray? = none) :
    arithmetic op v (.array items) =
      if op.isCommutative then (spreadAll op v items).map .array
      else mismatch op v (.array items) := by
  cases v <;> first | rfl | cases left

section

variable (isArithmetic : op.isArithmetic)
include isArithmetic

theorem spread_mixed (right left : Value) :
    Ends (fun r => Ty.mixed.admits r) (EvalFault.Combining op true) (spread op right left) := by
  cases left with
  | array items =>
      rw [spread]
      have each : ∀ item ∈ items, _ := fun item _ => spread_mixed right item
      exact (ends_spreadAll each).map fun _ _ => rfl
  | _ =>
      simp only [spread]
      exact scalarArithmetic_mixed isArithmetic _ right

/-- Arithmetic on any values fails for an ordinary reason or because the values do not
fit. -/
theorem arithmetic_mixed (left right : Value) :
    Ends (fun r => Ty.mixed.admits r) (EvalFault.Combining op true)
      (arithmetic op left right) := by
  cases left with
  | array as =>
      cases right with
      | array bs =>
          rw [arithmetic]
          split
          · have each : ∀ left ∈ as, ∀ right ∈ bs, _ := fun left _ right _ =>
              arithmetic_mixed left right
            exact (ends_arithmeticAll each).map fun _ _ => rfl
          · exact ends_error (.inl rfl)
      | _ =>
          rw [arithmetic_array_left rfl]
          exact (ends_spreadAll fun item _ => spread_mixed isArithmetic _ item).map fun _ _ => rfl
  | _ =>
      cases right with
      | array bs =>
          rw [arithmetic_array_right rfl]
          split
          · exact (ends_spreadAll fun item _ => spread_mixed isArithmetic _ item).map fun _ _ => rfl
          · exact mismatch_mixed
      | _ =>
          rw [arithmetic_of_not_array rfl rfl]
          exact scalarArithmetic_mixed isArithmetic _ _

end

end Value

/-! ## Operands of known types -/

namespace Ty

variable {op : Operator} {a b result : Ty}

theorem plainArithmetic?_of_mixed (mixed : a.isMixed ∨ b.isMixed)
    (rule : plainArithmetic? op a b = some result) : result = Ty.mixed := by
  unfold plainArithmetic? at rule
  split at rule
  case h_3 | h_4 => cases rule; rfl
  case h_1 | h_2 | h_14 => cases rule
  all_goals rcases mixed with isMixed | isMixed <;> cases isMixed

theorem scalarArithmetic?_of_mixed (mixed : a.isMixed ∨ b.isMixed)
    (rule : scalarArithmetic? op a b = some result) : result = Ty.mixed := by
  rcases Option.or_eq_some_iff.mp rule with forward | ⟨-, backward⟩
  · exact plainArithmetic?_of_mixed mixed forward
  · split at backward
    · exact plainArithmetic?_of_mixed mixed.symm backward
    · cases backward

theorem spread?_of_not_array (notArray : a.isArray = false) :
    spread? op b a = scalarArithmetic? op a b := by
  cases a <;> first | rfl | cases notArray

theorem arithmetic?_of_not_array (left : a.isArray = false) (right : b.isArray = false) :
    arithmetic? op a b = scalarArithmetic? op a b := by
  cases a with
  | array => cases left
  | _ =>
      cases b with
      | array => cases right
      | _ => rfl

theorem arithmetic?_array_left {element : Ty} {length : Option Nat} {f : Bool}
    (right : b.isArray = false) : arithmetic? op (.array element length f) b =
      if b.isMixed then some Ty.mixed else (spread? op b element).map (arrayOf · length) := by
  cases b <;> first | rfl | cases right

theorem arithmetic?_array_right {element : Ty} {length : Option Nat} {f : Bool}
    (left : a.isArray = false) : arithmetic? op a (.array element length f) =
      if a.isMixed then some Ty.mixed
      else if op.isCommutative then (spread? op a element).map (arrayOf · length) else none := by
  cases a <;> first | rfl | cases left

end Ty

namespace Value

section

variable {op : Operator} {v w : Value} (isArithmetic : op.isArithmetic)
include isArithmetic

/-- The operands are combined as their types say; if they are mixed, they may not fit. -/
theorem spread_typed {right : Ty} (notMixed : right.isMixed = false) (typed : right.admits w) :
    ∀ {left result : Ty} {v : Value}, Ty.spread? op right left = some result → left.admits v →
      Ends (fun r => result.admits r) (EvalFault.Combining op left.mentionsMixed) (spread op w v)
  | .array element length _, result, v, rule, h => by
      rcases Option.map_eq_some_iff.mp rule with ⟨inner, found, rfl⟩
      rcases Ty.array_of_admits h with ⟨items, rfl, each⟩
      rw [spread]
      have eachTyped : ∀ item ∈ items, _ := fun item member =>
        spread_typed notMixed typed found (each item member)
      exact (ends_spreadAll eachTyped).map fun _ => Ty.admits_array_of_forall
  | .basic .mixed f, result, v, rule, h => by
      rw [Ty.spread?_of_not_array rfl] at rule
      rw [Ty.scalarArithmetic?_of_mixed (.inl rfl) rule]
      exact spread_mixed isArithmetic w v
  | .basic .int _, _, v, rule, h | .basic .float _, _, v, rule, h
  | .basic .boolean _, _, v, rule, h | .basic .string _, _, v, rule, h
  | .basic .date _, _, v, rule, h | .basic .duration _, _, v, rule, h
  | .basic .void _, _, v, rule, h | .null _, _, v, rule, h | .function _ _ _ _ _, _, v, rule, h
  | .enumeration _ _, _, v, rule, h | .typeLiteral _ _, _, v, rule, h => by
      rw [Ty.spread?_of_not_array rfl] at rule
      rw [spread_of_not_array (Ty.not_array_of_admits rfl rfl h)]
      exact (scalarArithmetic_typed isArithmetic rule rfl notMixed h typed).mono (fun _ => id)
        fun _ => .inl

theorem arithmetic_typed_of_not_array {a b result : Ty}
    (rule : Ty.arithmetic? op a b = some result) (notArray : a.isArray = false)
    (notArray' : b.isArray = false) (left : a.admits v) (right : b.admits w) :
    Ends (fun r => result.admits r) (EvalFault.Combining op (a.mentionsMixed || b.mentionsMixed))
      (arithmetic op v w) := by
  rw [Ty.arithmetic?_of_not_array notArray notArray'] at rule
  by_cases mixed : a.isMixed ∨ b.isMixed
  · have mentioned : (a.mentionsMixed || b.mentionsMixed) = true :=
      Bool.or_eq_true .. ▸ mixed.imp Ty.mentionsMixed_of_isMixed Ty.mentionsMixed_of_isMixed
    rw [Ty.scalarArithmetic?_of_mixed mixed rule, mentioned]
    exact arithmetic_mixed isArithmetic v w
  · rw [not_or, Bool.not_eq_true, Bool.not_eq_true] at mixed
    rw [arithmetic_of_not_array (Ty.not_array_of_admits notArray mixed.1 left)
      (Ty.not_array_of_admits notArray' mixed.2 right)]
    exact (scalarArithmetic_typed isArithmetic rule mixed.1 mixed.2 left right).mono (fun _ => id)
      fun _ => .inl

theorem arithmetic_typed_of_array_left {element b result : Ty} {length : Option Nat} {f : Bool}
    (rule : Ty.arithmetic? op (.array element length f) b = some result)
    (notArray : b.isArray = false) (left : (Ty.array element length f).admits v)
    (right : b.admits w) :
    Ends (fun r => result.admits r)
      (EvalFault.Combining op ((Ty.array element length f).mentionsMixed || b.mentionsMixed))
      (arithmetic op v w) := by
  rw [Ty.arithmetic?_array_left notArray] at rule
  split at rule
  · next mixed =>
      cases rule
      rw [Ty.mentionsMixed_of_isMixed mixed, Bool.or_true]
      exact arithmetic_mixed isArithmetic v w
  · next notMixed =>
      have notMixed := eq_false_of_ne_true notMixed
      rcases Option.map_eq_some_iff.mp rule with ⟨inner, found, rfl⟩
      rcases Ty.array_of_admits left with ⟨items, rfl, each⟩
      rw [arithmetic_array_left (Ty.not_array_of_admits notArray notMixed right)]
      have eachTyped : ∀ item ∈ items, _ := fun item member =>
        spread_typed isArithmetic notMixed right found (each item member)
      apply ((ends_spreadAll eachTyped).map fun _ => Ty.admits_array_of_forall).mono (fun _ => id)
      exact fun _ combining => combining.mono fun mixed => Bool.or_eq_true .. ▸ .inl mixed

theorem arithmetic_typed_of_array_right {a element result : Ty} {length : Option Nat} {f : Bool}
    (rule : Ty.arithmetic? op a (.array element length f) = some result)
    (notArray : a.isArray = false) (left : a.admits v)
    (right : (Ty.array element length f).admits w) :
    Ends (fun r => result.admits r)
      (EvalFault.Combining op (a.mentionsMixed || (Ty.array element length f).mentionsMixed))
      (arithmetic op v w) := by
  rw [Ty.arithmetic?_array_right notArray] at rule
  split at rule
  · next mixed =>
      cases rule
      rw [Ty.mentionsMixed_of_isMixed mixed, Bool.true_or]
      exact arithmetic_mixed isArithmetic v w
  · next notMixed =>
      have notMixed := eq_false_of_ne_true notMixed
      split at rule
      case isFalse => cases rule
      case isTrue commutative =>
        rcases Option.map_eq_some_iff.mp rule with ⟨inner, found, rfl⟩
        rcases Ty.array_of_admits right with ⟨items, rfl, each⟩
        rw [arithmetic_array_right (Ty.not_array_of_admits notArray notMixed left),
          if_pos commutative]
        have eachTyped : ∀ item ∈ items, _ := fun item member =>
          spread_typed isArithmetic notMixed left found (each item member)
        apply ((ends_spreadAll eachTyped).map fun _ => Ty.admits_array_of_forall).mono (fun _ => id)
        exact fun _ combining => combining.mono fun mixed => Bool.or_eq_true .. ▸ .inr mixed

/-- Arithmetic on values of types for which there is a rule gives a value of the type that
the rule gives. -/
theorem arithmetic_typed : ∀ {a b result : Ty} {v w : Value},
    Ty.arithmetic? op a b = some result → a.admits v → b.admits w →
      Ends (fun r => result.admits r) (EvalFault.Combining op (a.mentionsMixed || b.mentionsMixed))
        (arithmetic op v w)
  | .array a m _, .array b n _, result, v, w, rule, left, right => by
      rcases Ty.array_of_admits left with ⟨as, rfl, eachLeft⟩
      rcases Ty.array_of_admits right with ⟨bs, rfl, eachRight⟩
      rw [Ty.arithmetic?] at rule
      split at rule
      case isFalse => cases rule
      case isTrue =>
        rcases Option.map_eq_some_iff.mp rule with ⟨inner, found, rfl⟩
        rw [arithmetic]
        split
        · have each : ∀ left ∈ as, ∀ right ∈ bs, _ := fun left member right member' =>
            arithmetic_typed found (eachLeft left member) (eachRight right member')
          exact (ends_arithmeticAll each).map fun _ => Ty.admits_array_of_forall
        · exact ends_error (.inl rfl)
  | .array _ _ _, .basic _ _, _, _, _, rule, left, right
  | .array _ _ _, .null _, _, _, _, rule, left, right
  | .array _ _ _, .function _ _ _ _ _, _, _, _, rule, left, right
  | .array _ _ _, .enumeration _ _, _, _, _, rule, left, right
  | .array _ _ _, .typeLiteral _ _, _, _, _, rule, left, right =>
      arithmetic_typed_of_array_left isArithmetic rule rfl left right
  | .basic _ _, b, _, _, _, rule, left, right | .null _, b, _, _, _, rule, left, right
  | .function _ _ _ _ _, b, _, _, _, rule, left, right
  | .enumeration _ _, b, _, _, _, rule, left, right
  | .typeLiteral _ _, b, _, _, _, rule, left, right => by
      cases b with
      | array => exact arithmetic_typed_of_array_right isArithmetic rule rfl left right
      | _ => exact arithmetic_typed_of_not_array isArithmetic rule rfl rfl left right

end

variable {op : Operator} {v w : Value}

/-! ## Negation -/

theorem negated_mixed : ∀ v : Value,
    Ends (fun r => Ty.mixed.admits r) (EvalFault.Negating true) v.negated
  | .array items => by
      rw [negated]
      have each : ∀ item ∈ items, _ := fun item _ => negated_mixed item
      exact (ends_negatedAll each).map fun _ _ => rfl
  | .int _ => (exact_int_typed _ _).mono
      (fun _ typed => Ty.mixed_admits (Ty.not_isVoid_of_admits rfl typed)) fun _ => .inl
  | .duration _ => (exact_duration_typed _ _).mono
      (fun _ typed => Ty.mixed_admits (Ty.not_isVoid_of_admits rfl typed)) fun _ => .inl
  | .float _ => ends_ok rfl
  | .bool _ | .string _ | .date _ | .function _ | .enumeration _ _ | .null | .void =>
      ends_error (.inr ⟨rfl, _, rfl⟩)

theorem negated_typed : ∀ {a result : Ty} {v : Value}, a.negResult? = some result →
    a.admits v → Ends (fun r => result.admits r) (EvalFault.Negating a.mentionsMixed) v.negated
  | .array element _ _, _, _, rule, h => by
      rcases Option.map_eq_some_iff.mp rule with ⟨inner, found, rfl⟩
      rcases Ty.array_of_admits h with ⟨items, rfl, each⟩
      rw [negated]
      have eachTyped : ∀ item ∈ items, _ := fun item member =>
        negated_typed found (each item member)
      exact (ends_negatedAll eachTyped).map fun _ => Ty.admits_array_of_forall
  | .basic .int _, _, _, rule, h => by
      cases rule
      rcases Ty.int_of_admits h with ⟨n, rfl⟩
      exact (exact_int_typed _ _).mono (fun _ => id) fun _ => .inl
  | .basic .float _, _, _, rule, h => by
      cases rule
      rcases Ty.float_of_admits h with ⟨n, rfl⟩ | ⟨x, rfl⟩
      · exact (exact_int_typed _ _).mono
          (fun _ typed => Ty.float_admits_of_isNumeric (Ty.isNumeric_of_admits rfl typed))
          fun _ => .inl
      · exact ends_ok rfl
  | .basic .duration _, _, _, rule, h => by
      cases rule
      rcases Ty.duration_of_admits h with ⟨d, rfl⟩
      exact (exact_duration_typed _ _).mono (fun _ => id) fun _ => .inl
  | .basic .mixed _, _, v, rule, _ => by
      cases rule
      exact negated_mixed v
  | .basic .boolean _, _, _, rule, _ | .basic .string _, _, _, rule, _
  | .basic .date _, _, _, rule, _ | .basic .void _, _, _, rule, _ | .null _, _, _, rule, _
  | .function _ _ _ _ _, _, _, rule, _ | .enumeration _ _, _, _, rule, _
  | .typeLiteral _ _, _, _, rule, _ => nomatch rule

theorem unary_typed {a result : Ty} (rule : Ty.unaryResult? op a = some result)
    (h : a.admits v) : Ends (fun r => result.admits r)
      (EvalFault.Allowed a.mentionsMixed fun fault => ∃ operand, fault = .unaryMismatch op operand)
      (unary op v) := by
  unfold Ty.unaryResult? at rule
  split at rule
  · cases rule
  · cases op with
    | not => cases rule; exact ends_ok rfl
    | neg => exact negated_typed rule h
    | _ => cases rule

/-! ## Order -/

theorem isNaN_of_numbers {x y : Float} (left : v.asFloat? = some x) (right : w.asFloat? = some y)
    (unordered : compareFloats x y = none) : v.isNaN ∨ w.isNaN := by
  rw [isNaN, isNaN, left, right]
  exact isNaN_of_unordered unordered

theorem mentionsMixed_of_isOrdered {a b : Ty} (isOrdered : a.isOrdered b)
    (notMixed : a.isMixed = false) (notMixed' : b.isMixed = false) :
    (a.mentionsMixed || b.mentionsMixed) = false := by
  unfold Ty.isOrdered at isOrdered
  split at isOrdered <;> first
    | rfl
    | cases notMixed
    | cases notMixed'
    | cases isOrdered

/-- Values of types in order have an order themselves, unless one is mixed or no number. -/
theorem mixed_or_isNaN_of_compare {a b : Ty} (isOrdered : a.isOrdered b) (left : a.admits v)
    (right : b.admits w) (unordered : v.compare? w = none) :
    (a.mentionsMixed || b.mentionsMixed) ∨ v.isNaN ∨ w.isNaN := by
  unfold Ty.isOrdered at isOrdered
  split at isOrdered
  case h_1 => exact .inl rfl
  case h_2 => exact .inl (Bool.or_true _)
  case h_3 =>
    rcases Ty.int_of_admits left with ⟨m, rfl⟩
    rcases Ty.int_of_admits right with ⟨n, rfl⟩
    cases unordered
  case h_4 =>
    rcases Ty.int_of_admits left with ⟨m, rfl⟩
    rcases Ty.float_of_admits right with ⟨n, rfl⟩ | ⟨y, rfl⟩
    · cases unordered
    · exact .inr (isNaN_of_numbers rfl rfl unordered)
  case h_5 =>
    rcases Ty.int_of_admits right with ⟨n, rfl⟩
    rcases Ty.float_of_admits left with ⟨m, rfl⟩ | ⟨x, rfl⟩
    · cases unordered
    · exact .inr (isNaN_of_numbers rfl rfl unordered)
  case h_6 =>
    rcases Ty.float_of_admits left with ⟨m, rfl⟩ | ⟨x, rfl⟩ <;>
      rcases Ty.float_of_admits right with ⟨n, rfl⟩ | ⟨y, rfl⟩
    · cases unordered
    all_goals exact .inr (isNaN_of_numbers rfl rfl unordered)
  case h_7 =>
    rcases Ty.string_of_admits left with ⟨x, rfl⟩
    rcases Ty.string_of_admits right with ⟨y, rfl⟩
    cases unordered
  case h_8 =>
    rcases Ty.boolean_of_admits left with ⟨x, rfl⟩
    rcases Ty.boolean_of_admits right with ⟨y, rfl⟩
    cases unordered
  case h_9 =>
    rcases Ty.date_of_admits left with ⟨x, rfl⟩
    rcases Ty.date_of_admits right with ⟨y, rfl⟩
    cases unordered
  case h_10 =>
    rcases Ty.duration_of_admits left with ⟨x, rfl⟩
    rcases Ty.duration_of_admits right with ⟨y, rfl⟩
    cases unordered
  case h_11 => cases isOrdered

/-- The outcome of a comparison. -/
def compared (op : Operator) (v w : Value) : Except EvalFault Value :=
  match v.compare? w with
  | some order => .ok (.bool (ordered op order))
  | none => mismatch op v w

/-- Where an operator other than a cast or an assignment is defined on types, it takes
values of them to a value of the type that it gives. -/
theorem binary_typed {a b result : Ty} (isInfix : op.IsInfix) (noCast : op ≠ .typeCast)
    (noAssignment : op.isAssignment = false) (rule : Ty.binaryResult? op a b = some result)
    (left : a.admits v) (right : b.admits w) :
    Ends (fun r => result.admits r)
      (fun fault => fault.Combining op (a.mentionsMixed || b.mentionsMixed) ∨
        op.isOrdering ∧ fault = .binaryMismatch op v.kind w.kind ∧ (v.isNaN ∨ w.isNaN))
      (binary op v w) := by
  have arithmetic {op : Operator} (isArithmetic : op.isArithmetic)
      (rule : Ty.arithmetic? op a b = some result) :
      Ends (fun r => result.admits r)
        (fun fault => fault.Combining op (a.mentionsMixed || b.mentionsMixed) ∨
          op.isOrdering ∧ fault = .binaryMismatch op v.kind w.kind ∧ (v.isNaN ∨ w.isNaN))
        (arithmetic op v w) :=
    (arithmetic_typed isArithmetic rule left right).mono (fun _ => id) fun _ => .inl
  have ordering {op : Operator} (isOrdering : op.isOrdering)
      (rule : (if a.isOrdered b then some Ty.boolean else none) = some result) :
      Ends (fun r => result.admits r)
        (fun fault => fault.Combining op (a.mentionsMixed || b.mentionsMixed) ∨
          op.isOrdering ∧ fault = .binaryMismatch op v.kind w.kind ∧ (v.isNaN ∨ w.isNaN))
        (compared op v w) := by
    unfold compared
    split at rule <;> cases rule
    next isOrdered =>
      cases result : v.compare? w with
      | some order => exact ends_ok rfl
      | none =>
          rcases mixed_or_isNaN_of_compare isOrdered left right result with mixed | isNaN
          · exact ends_error (.inl (.inr ⟨mixed, _, _, rfl⟩))
          · exact ends_error (.inr ⟨isOrdering, rfl, isNaN⟩)
  unfold Ty.binaryResult? at rule
  split at rule
  · cases rule
  · cases op with
    | add | sub | mul | div | mod => exact arithmetic rfl rule
    | and | or | xor => cases rule; exact ends_ok rfl
    | eq | notEq => dsimp only at rule; split at rule <;> cases rule; exact ends_ok rfl
    | lt | gt | ltEq | gtEq => exact ordering rfl rule
    | assign | addAssign | subAssign | mulAssign | divAssign => cases noAssignment
    | typeCast => exact absurd rfl noCast
    | not | neg | call => cases rule
    | index => exact absurd isInfix.2 (by decide)

/-! ## Elements -/

theorem position_typed {b : Ty} {length : Nat} (right : b.admits w)
    (isIndex : b.isInt ∨ b.isMixed) :
    Ends (fun n => n < length) (EvalFault.Indexing b.mentionsMixed) (w.position length) := by
  unfold position
  split
  · next n =>
      split
      · next inside => exact ends_ok (by omega)
      · exact ends_error (.inl rfl)
  · next notInt =>
      rcases isIndex with isInt | isMixed
      · have typed := Ty.int_admits_of_isInt isInt right
        rcases Ty.int_of_admits typed with ⟨n, rfl⟩
        exact absurd rfl (notInt n)
      · exact ends_error (.inr ⟨Ty.mentionsMixed_of_isMixed isMixed, .inr ⟨_, rfl⟩⟩)

/-- An element of an array is of the type of elements; an index that is no integer, and what
has no elements, are met only where something is mixed. -/
theorem element_typed {a b result : Ty} (rule : Ty.element? a b = some result)
    (left : a.admits v) (right : b.admits w) (concrete : v.Concrete) :
    Ends (fun r => result.admits r) (EvalFault.Indexing (a.mentionsMixed || b.mentionsMixed))
      (v.element w) := by
  have ofItems {items : List Value} {type : Ty} (each : ∀ item ∈ items, type.admits item)
      (isIndex : b.isInt ∨ b.isMixed) :
      Ends (fun r => type.admits r) (EvalFault.Indexing (a.mentionsMixed || b.mentionsMixed))
        ((Value.array items).element w) := by
    rw [element]
    apply ((position_typed right isIndex).mono (fun _ => id) fun _ misfit =>
      misfit.mono fun mixed => Bool.or_eq_true .. ▸ .inr mixed).bind
    intro n inside
    refine ends_ok ?_
    rw [List.getElem?_eq_getElem inside]
    exact each _ (List.getElem_mem inside)
  have ofMixed (isMixed : a.isMixed) (isIndex : b.isInt ∨ b.isMixed) :
      Ends (fun r => Ty.mixed.admits r) (EvalFault.Indexing (a.mentionsMixed || b.mentionsMixed))
        (v.element w) := by
    have mentioned : (a.mentionsMixed || b.mentionsMixed) = true :=
      Bool.or_eq_true .. ▸ .inl (Ty.mentionsMixed_of_isMixed isMixed)
    cases v with
    | array items =>
        exact ofItems (fun item member => Ty.mixed_admits
          (concrete_array.mp concrete item member).isVoid) isIndex
    | _ => exact ends_error (.inr ⟨mentioned, .inl ⟨_, _, rfl⟩⟩)
  unfold Ty.element? at rule
  split at rule
  case h_1 | h_2 =>
    rcases Ty.array_of_admits left with ⟨items, rfl, each⟩
    cases rule
    rw [Ty.admits_withFinal]
    exact ofItems each (by first | exact .inl rfl | exact .inr rfl)
  case h_3 =>
    cases rule
    exact Ty.admits_withFinal Ty.mixed _ ▸ ofMixed rfl (.inl rfl)
  case h_4 =>
    cases rule
    exact Ty.admits_withFinal Ty.mixed _ ▸ ofMixed rfl (.inr rfl)
  case h_5 => cases rule

/-! ## Casts -/

theorem plainCast_typed {target : Ty} (concrete : v.Concrete)
    (given : plainCast? target v = some w) : target.admits w := by
  unfold plainCast? at given
  split at given
  case h_1 =>
    cases given
    exact Ty.admits_withFinal Ty.mixed _ ▸ Ty.mixed_admits concrete.isVoid
  case h_6 | h_11 | h_13 =>
    rcases Option.map_eq_some_iff.mp given with ⟨_, _, rfl⟩
    rfl
  case h_15 =>
    split at given <;> cases given
    next same => exact decide_eq_true same
  case h_16 => cases given
  all_goals
    cases given
    rfl

/-- A cast gives a value of its type, whatever the value was. -/
theorem cast_typed : ∀ (target : Ty) {v : Value}, v.Concrete →
    Ends (fun r => target.admits r) (fun fault => fault.isOrdinary) (cast target v)
  | target, v, concrete => by
      have ofPlain : Ends (fun r => target.admits r) (fun fault => fault.isOrdinary)
          (converted v target (plainCast? target v)) := by
        cases given : plainCast? target v with
        | none => exact ends_error rfl
        | some w => exact ends_ok (plainCast_typed concrete given)
      unfold cast
      split
      · next element _ _ items =>
          have each : ∀ item ∈ items, _ := fun item member =>
            cast_typed element (concrete_array.mp concrete item member)
          exact (ends_mapM each).map fun _ => Ty.admits_array_of_forall
      · exact ofPlain

end Value

end Formulae
