import Formulae.Proofs.Ty.Arithmetic
import Formulae.Proofs.Ty.Substitution
import Formulae.Proofs.Typing.Derivation
import Formulae.Proofs.Typing.Placeless

/-!
# Assignments with an operator, and written out

The statement `x op= e;` and the statement `x = x op e;` are checked by different rules: the one
looks at the type of the result only, the other fits the result into the variable, and they try
different readings of a string literal first.  Both are accepted under the same conditions, but
for an operand that is mixed while the variable is not (`Typing.checks_compoundAssignment_iff`),
and what they are checked to combines the same expressions, but for a literal beside something
mixed (`Typing.exists_of_checks`).
-/

namespace Formulae

open Check Typing

theorem Operator.isAssignment_of_compoundBase {op base : Operator}
    (isCompound : op.compoundBase = some base) : op.isAssignment := by
  cases op <;> first | rfl | cases isCompound

/-- The statement that assigns to a name with an operator. -/
def Stmt.compoundAssignment (outer : StmtNode) (node target : Bare) (op : Operator)
    (name : String) (e : Expr Unit) : Stmt Unit :=
  .expr outer (.binary node op (.ident target name) e)

/-- The statement that applies an operator to a name and assigns the result to the name. -/
def Stmt.writtenAssignment (outer : StmtNode) (node target inner operand : Bare)
    (base : Operator) (name : String) (e : Expr Unit) : Stmt Unit :=
  .expr outer (.binary node .assign (.ident target name)
    (.binary inner base (.ident operand name) e))

namespace Typing

variable {op base : Operator}

/-! ## The right operand -/

section

variable {type : Ty} {x value : TypedExpr}

theorem binaryResult?_of_compoundBase (isCompound : op.compoundBase = some base) {a b : Ty}
    (left : a.isVoid = false) (right : b.isVoid = false) :
    Ty.binaryResult? base a b = Ty.arithmetic? base a b := by
  cases op <;> cases isCompound <;> simp [Ty.binaryResult?, left, right]

/-- Only string literals are read as dates and durations. -/
theorem labels_of_calendarLiteral? {literal : TypedExpr} (derives : value.Derives)
    (read : calendarLiteral? value = some literal) :
    value.label = Ty.string ∧ isCalendar literal.label := by
  unfold calendarLiteral? at read
  split at read
  · next node text =>
      rcases Option.map_eq_some_iff.mp read with ⟨constant, found, rfl⟩
      cases derives with
      | constant isString =>
          refine ⟨isString, ?_⟩
          unfold calendarConstant? at found
          split at found
          · cases found
            rfl
          · split at found <;> cases found
            rfl
  · cases read

theorem hasValue_of_isCalendar {type : Ty} (calendar : isCalendar type) :
    type.isVoid = false ∧ type.isMixed = false := by
  rcases Ty.eq_of_isCalendar calendar with ⟨f, rfl | rfl⟩ <;> exact ⟨rfl, rfl⟩

theorem compoundOperand_of_none (noLiteral : calendarLiteral? value = none) (slot : Ty) :
    compoundOperand base slot value = value := by
  unfold compoundOperand
  rw [noLiteral]
  exact ite_self _

theorem operands_of_none (plain : calendarLiteral? x = none)
    (noLiteral : calendarLiteral? value = none) : operands base x value = (x, value) := by
  unfold operands calendarOperands?
  rw [plain, noLiteral]
  exact ite_self _

variable (isCompound : op.compoundBase = some base) (hasValue : type.isVoid = false)
include isCompound hasValue

theorem compoundOperand_of_some {literal : TypedExpr}
    (read : calendarLiteral? value = some literal) (isString : value.label = Ty.string)
    (calendar : isCalendar literal.label) : compoundOperand base (type.withFinal true) value =
      if (Ty.arithmetic? base type Ty.string).isSome then value
      else if (Ty.arithmetic? base type literal.label).isSome then literal else value := by
  have hasValue' : (type.withFinal true).isVoid = false := (Ty.isVoid_withFinal _ _).trans hasValue
  unfold compoundOperand
  rw [read, isString, binaryResult?_of_compoundBase isCompound hasValue' rfl,
    Ty.arithmetic?_withFinal_left]
  dsimp only
  rw [binaryResult?_of_compoundBase isCompound hasValue' (hasValue_of_isCalendar calendar).1,
    Ty.arithmetic?_withFinal_left]

theorem operands_of_some {literal : TypedExpr} (plain : calendarLiteral? x = none)
    (isType : x.label = type) (read : calendarLiteral? value = some literal)
    (calendar : isCalendar literal.label) : operands base x value =
      (x, if readsCalendar base then
        if (Ty.arithmetic? base type literal.label).isSome then literal else value
      else value) := by
  unfold operands calendarOperands?
  rw [plain, read]
  simp only [Option.getD_none, Option.getD_some, Option.isNone_some, Bool.and_false,
    Bool.false_eq_true, if_false, isType]
  rw [binaryResult?_of_compoundBase isCompound hasValue (hasValue_of_isCalendar calendar).1]
  split
  · split <;> rfl
  · rfl

variable (plain : calendarLiteral? x = none) (isType : x.label = type) (derives : value.Derives)
include plain isType derives

/-- Which reading of a literal is tried first makes no difference to the type of the result. -/
theorem arithmetic?_operands : (operands base x value).1 = x ∧
    Ty.arithmetic? base type (operands base x value).2.label
      = Ty.arithmetic? base type (compoundOperand base (type.withFinal true) value).label := by
  cases read : calendarLiteral? value with
  | none =>
      rw [operands_of_none plain read, compoundOperand_of_none read]
      exact ⟨rfl, rfl⟩
  | some literal =>
      rcases labels_of_calendarLiteral? derives read with ⟨isString, calendar⟩
      have first := Ty.arithmetic?_or_comm base type calendar
      rw [operands_of_some isCompound hasValue plain isType read calendar,
        compoundOperand_of_some isCompound hasValue read isString calendar]
      refine ⟨rfl, ?_⟩
      revert first
      cases readsCalendar base <;>
        cases asString : Ty.arithmetic? base type Ty.string <;>
        cases asLiteral : Ty.arithmetic? base type literal.label <;>
        simp [asString, asLiteral, isString, eq_comm]

/-- The literal is read in the same way, unless it is combined with something mixed. -/
theorem operands_eq_compoundOperand
    (defined : (Ty.arithmetic? base type (operands base x value).2.label).isSome)
    (unmixed : readsCalendar base → type.leaf.isMixed → calendarLiteral? value = none) :
    (operands base x value).2 = compoundOperand base (type.withFinal true) value := by
  cases read : calendarLiteral? value with
  | none => rw [operands_of_none plain read, compoundOperand_of_none read]
  | some literal =>
      rcases labels_of_calendarLiteral? derives read with ⟨isString, calendar⟩
      rw [operands_of_some isCompound hasValue plain isType read calendar] at defined ⊢
      rw [compoundOperand_of_some isCompound hasValue read isString calendar]
      cases isRead : readsCalendar base with
      | true =>
          have notMixed : type.leaf.isMixed = false := by
            cases mixed : type.leaf.isMixed with
            | true => exact nomatch read ▸ unmixed isRead mixed
            | false => rfl
          rcases Ty.arithmetic?_eq_none_or base calendar notMixed with none | none
          · simp [none]
          · simp [none]
      | false =>
          simp only [isRead, Bool.false_eq_true, if_false, isString] at defined
          simp [defined]

end

/-! ## The two rules -/

section

variable {value read : TypedExpr} (reads : Reads value read) (derives : value.Derives)
include reads derives

theorem Reads.hasValue (isValue : value.label.isVoid = false) : read.label.isVoid = false := by
  rcases reads with rfl | literal
  · exact isValue
  · exact (hasValue_of_isCalendar (labels_of_calendarLiteral? derives literal).2).1

theorem Reads.isMixed : read.label.isMixed = value.label.isMixed := by
  rcases reads with rfl | literal
  · rfl
  · rcases labels_of_calendarLiteral? derives literal with ⟨isString, calendar⟩
    rw [(hasValue_of_isCalendar calendar).2, isString]
    rfl

end

/-- The type that the operator gives to what is assigned. -/
def combined? (base : Operator) (type : Ty) (value : TypedExpr) : Option Ty :=
  Ty.arithmetic? base type (compoundOperand base (type.withFinal true) value).label

theorem requireValue_of_hasValue {e : TypedExpr} (hasValue : e.label.isVoid = false) :
    requireValue e = pure e :=
  if_neg (ne_true_of_eq_false hasValue)

/-- A value goes into a place as it is if the place accepts it, and with a cast if it is mixed. -/
def store (node : Bare) (slot : Ty) (target value : TypedExpr) : Check TypedExpr :=
  if slot.accepts value.label then pure (.binary (node.typed slot) .assign target value)
  else if value.label.isMixed && value.label.castableTo slot then do
    return .binary (node.typed slot) .assign target (← insertCast slot value)
  else fail (.notAssignable slot value.label) value.span

theorem accepts_or_isMixed_of_store {node : Bare} {slot : Ty} {target value : TypedExpr}
    {next : Nat} {ended : TypedExpr × Nat}
    (stored : store node slot target value next = .ok ended) :
    slot.accepts value.label ∨ value.label.isMixed := by
  by_cases accepts : slot.accepts value.label
  · exact .inl accepts
  · by_cases isMixed : value.label.isMixed
    · exact .inr isMixed
    · rw [store, if_neg accepts, if_neg (by simp [isMixed])] at stored
      cases stored

/-- This is how a value that is no literal and needs no conversion is assigned. -/
theorem assign_eq_store {type : Ty} {node : Bare} {target value : TypedExpr}
    (isTarget : target.label = type) (plain : calendarLiteral? value = none)
    (unconverted : type.convertsFrom value.label = false) :
    assign node target value = store node (type.withFinal true) target value := by
  have unread : readFor (type.withFinal true) value = value := by
    rw [readFor, plain]
    exact ite_self _
  have unconverted' : (type.withFinal true).convertsFrom value.label = false := by
    rw [Ty.convertsFrom_withFinal_left]
    exact unconverted
  unfold assign store coerce
  rw [isTarget]
  dsimp only
  rw [unread, unconverted']
  simp only [reduceCtorEq, decide_false, Bool.false_or]
  split
  · rfl
  · split <;> rfl

section

variable {type : Ty} {target x value : TypedExpr} {node node' : Bare}
  (isCompound : op.compoundBase = some base) (hasValue : type.isVoid = false)
  (derives : value.Derives) (isValue : value.label.isVoid = false)
include isCompound hasValue derives isValue

theorem compoundAssign_eq (isTarget : target.label = type) :
    compoundAssign node op base target value =
      match combined? base type value with
      | none =>
          fail (.binaryMismatch base (type.withFinal true)
            (compoundOperand base (type.withFinal true) value).label) node.span
      | some combined =>
          if type.accepts combined then
            pure (.binary (node.typed (type.withFinal true)) op target
              (compoundOperand base (type.withFinal true) value))
          else fail (.notAssignable (type.withFinal true) combined) node.span := by
  have isValue' := (reads_compoundOperand base (type.withFinal true) value).hasValue derives
    isValue
  unfold compoundAssign combined?
  rw [isTarget]
  dsimp only
  rw [binaryResult?_of_compoundBase isCompound ((Ty.isVoid_withFinal _ _).trans hasValue) isValue',
    Ty.arithmetic?_withFinal_left]
  cases Ty.arithmetic? base type (compoundOperand base (type.withFinal true) value).label with
  | none => rfl
  | some combined =>
      dsimp only
      rw [Ty.accepts_withFinal_left]

theorem binary_eq (plain : calendarLiteral? x = none) (isType : x.label = type) :
    Typing.binary node base x value =
      match combined? base type value with
      | none =>
          fail (.binaryMismatch base type (operands base x value).2.label) node.span
      | some combined =>
          pure (.binary (node.typed combined) base x (operands base x value).2) := by
  rcases arithmetic?_operands isCompound hasValue plain isType derives with ⟨left, result⟩
  have reads := (reads_operands base x value).2
  have isValue' := reads.hasValue derives isValue
  unfold Typing.binary combined?
  dsimp only
  rw [left, isType, binaryResult?_of_compoundBase isCompound hasValue isValue', result]
  cases Ty.arithmetic? base type _ <;> rfl

theorem compoundAssign_of_accepts (isTarget : target.label = type) {combined : Ty}
    (given : combined? base type value = some combined) (accepts : type.accepts combined) :
    compoundAssign node op base target value =
      pure (.binary (node.typed (type.withFinal true)) op target
        (compoundOperand base (type.withFinal true) value)) := by
  rw [compoundAssign_eq isCompound hasValue derives isValue isTarget, given]
  exact if_pos accepts

theorem accepts_of_compoundAssign (isTarget : target.label = type) {next : Nat}
    {ended : TypedExpr × Nat}
    (checked : compoundAssign node op base target value next = .ok ended) :
    ∃ combined, combined? base type value = some combined ∧ type.accepts combined := by
  rw [compoundAssign_eq isCompound hasValue derives isValue isTarget] at checked
  cases given : combined? base type value with
  | none => exact nomatch given ▸ checked
  | some combined =>
      rw [given] at checked
      by_cases accepts : type.accepts combined
      · exact ⟨combined, rfl, accepts⟩
      · dsimp only at checked
        rw [if_neg accepts] at checked
        cases checked

/-- The operator applied first and its result assigned. -/
def writtenOut (node node' : Bare) (base : Operator) (target x value : TypedExpr) :
    Check TypedExpr := do
  assign node target (← requireValue (← Typing.binary node' base x value))

variable (isTarget : target.label = type) (plain : calendarLiteral? x = none)
  (isType : x.label = type)
include isTarget plain isType

theorem writtenOut_eq :
    writtenOut node node' base target x value =
      match combined? base type value with
      | none => fail (.binaryMismatch base type (operands base x value).2.label) node'.span
      | some combined =>
          store node (type.withFinal true) target
            (.binary (node'.typed combined) base x (operands base x value).2) := by
  unfold writtenOut
  rw [binary_eq isCompound hasValue derives isValue plain isType]
  cases given : combined? base type value with
  | none => rfl
  | some combined =>
      have combines := Ty.combines_of_arithmetic? _ _ given
      dsimp only
      rw [pure_bind, requireValue_of_hasValue, pure_bind, assign_eq_store isTarget rfl]
      · exact combines.unconverted
      · exact combines.hasValue

theorem writtenOut_of_accepts {combined : Ty} (given : combined? base type value = some combined)
    (accepts : type.accepts combined) :
    writtenOut node node' base target x value =
      pure (.binary (node.typed (type.withFinal true)) .assign target
        (.binary (node'.typed combined) base x (operands base x value).2)) := by
  rw [writtenOut_eq isCompound hasValue derives isValue isTarget plain isType, given]
  exact if_pos ((Ty.accepts_withFinal_left type combined true).trans accepts)

theorem accepts_or_of_writtenOut {next : Nat} {ended : TypedExpr × Nat}
    (checked : writtenOut node node' base target x value next = .ok ended) :
    ∃ combined, combined? base type value = some combined ∧
      (type.accepts combined ∨ combined.isMixed) := by
  rw [writtenOut_eq isCompound hasValue derives isValue isTarget plain isType] at checked
  cases given : combined? base type value with
  | none => exact nomatch given ▸ checked
  | some combined =>
      refine ⟨combined, rfl, ?_⟩
      rw [given] at checked
      rcases accepts_or_isMixed_of_store checked with accepts | isMixed
      · rw [Ty.accepts_withFinal_left] at accepts
        exact .inl accepts
      · exact .inr isMixed

end

/-! ## Statements -/

section

variable {env : TypeEnv} {name : String} {type : Ty} {e : Expr Unit}
  (bound : env.lookup name = some type)
include bound

theorem ident_of_lookup (node : Bare) :
    Typing.ident env node name = pure (.ident (node.typed type) name) := by
  rw [Typing.ident, nameType?, bound]
  rfl

/-- The target of the assignment is checked before its value. -/
theorem check_assignment (writable : type.isFinal = false) (hasValue : type.isVoid = false)
    {op : Operator} (assigns : op.isAssignment) (node target : Bare) (value : Expr Unit) :
    (Expr.binary node op (.ident target name) value).check env =
      (value.check env >>= requireValue >>=
        assignment node op (.ident (target.typed type) name)) := by
  have notCast : op ≠ .typeCast := by
    rintro rfl
    cases assigns
  have targetValue : (Expr.ident (target.typed type) name).label.isVoid = false := hasValue
  have notFinal : ¬ (Expr.ident (target.typed type) name).label.isFinal :=
    ne_true_of_eq_false writable
  rw [Expr.check.eq_def]
  dsimp only
  rw [if_neg notCast, if_pos assigns, Expr.isPlace, if_pos rfl, Expr.check, ident_of_lookup bound,
    pure_bind, requireValue_of_hasValue targetValue, pure_bind, assignable, if_neg notFinal,
    pure_bind, bind_assoc]

theorem check_assignment_of_isVoid (isVoid : type.isVoid) {op : Operator}
    (assigns : op.isAssignment) (node target : Bare) (value : Expr Unit) :
    (Expr.binary node op (.ident target name) value).check env = fail .voidValue target.span := by
  have notCast : op ≠ .typeCast := by
    rintro rfl
    cases assigns
  have noValue : (Expr.ident (target.typed type) name).label.isVoid := isVoid
  rw [Expr.check.eq_def]
  dsimp only
  rw [if_neg notCast, if_pos assigns, Expr.isPlace, if_pos rfl, Expr.check, ident_of_lookup bound,
    pure_bind, requireValue, if_pos noValue]
  rfl

theorem check_compoundAssignment (writable : type.isFinal = false) (hasValue : type.isVoid = false)
    (isCompound : op.compoundBase = some base) (around : Surroundings) (outer : StmtNode)
    (node target : Bare) :
    (Stmt.compoundAssignment outer node target op name e).check around env = do
      let value ← requireValue (← e.check env)
      let assigned ← compoundAssign node op base (.ident (target.typed type) name) value
      return (.expr outer assigned, env) := by
  have assigns := Operator.isAssignment_of_compoundBase isCompound
  rw [Stmt.compoundAssignment, Stmt.check, check_assignment bound writable hasValue assigns]
  simp only [assignment, isCompound, bind_assoc]

theorem check_writtenAssignment (writable : type.isFinal = false) (hasValue : type.isVoid = false)
    (isCompound : op.compoundBase = some base) (around : Surroundings) (outer : StmtNode)
    (node target inner operand : Bare) :
    (Stmt.writtenAssignment outer node target inner operand base name e).check around env = do
      let value ← requireValue (← e.check env)
      let assigned ← writtenOut node inner base (.ident (target.typed type) name)
        (.ident (operand.typed type) name) value
      return (.expr outer assigned, env) := by
  have operandValue : (Expr.ident (operand.typed type) name).label.isVoid = false := hasValue
  have notCast : base ≠ .typeCast := by
    rintro rfl
    cases op <;> cases isCompound
  have plain : base.isAssignment = false := by cases op <;> cases isCompound <;> rfl
  rw [Stmt.writtenAssignment, Stmt.check, check_assignment bound writable hasValue rfl]
  rw [Expr.check.eq_def]
  dsimp only
  rw [if_neg notCast, if_neg (ne_true_of_eq_false plain), Expr.check, ident_of_lookup bound,
    pure_bind, requireValue_of_hasValue operandValue, pure_bind]
  simp only [assignment, Operator.compoundBase, writtenOut, bind_assoc]

end

/-- The operand is checked and has a value, and the operator gives a type to what is assigned. -/
structure Operand (base : Operator) (type : Ty) (env : TypeEnv) (e : Expr Unit) (next : Nat)
    (value : TypedExpr) (stop : Nat) (combined : Ty) : Prop where
  checked : e.check env next = .ok (value, stop)
  isValue : value.label.isVoid = false
  given : combined? base type value = some combined

theorem derives_of_checked {env : TypeEnv} {e : Expr Unit} {next stop : Nat} {value : TypedExpr}
    (checked : e.check env next = .ok (value, stop)) : value.Derives := by
  have derived := derives_expr env e next
  rw [checked] at derived
  exact derived.root

/-- An assignment of what has a value by some rule. -/
theorem assigned_eq_ok_iff {env : TypeEnv} {e : Expr Unit} {rule : TypedExpr → Check TypedExpr}
    {outer : StmtNode} {next : Nat} {ended : (TypedStmt × TypeEnv) × Nat} :
    (do
      let value ← requireValue (← e.check env)
      let assigned ← rule value
      return (.expr outer assigned, env) : Check (TypedStmt × TypeEnv)) next = .ok ended ↔
      ∃ value stop, e.check env next = .ok (value, stop) ∧ value.label.isVoid = false ∧
        ∃ assigned stop', rule value stop = .ok (assigned, stop') ∧
          ended = ((.expr outer assigned, env), stop') := by
  simp only [bind_eq_ok_iff]
  constructor
  · rintro ⟨value, stop, checked, value', stop', required, assigned, stop'', ruled, isEnded⟩
    by_cases isVoid : value.label.isVoid
    · rw [requireValue, if_pos isVoid] at required
      cases required
    · rw [requireValue, if_neg isVoid] at required
      cases required
      cases isEnded
      exact ⟨value, stop, checked, eq_false_of_ne_true isVoid, assigned, stop'', ruled, rfl⟩
  · rintro ⟨value, stop, checked, isValue, assigned, stop', ruled, rfl⟩
    refine ⟨value, stop, checked, value, stop, ?_, assigned, stop', ruled, rfl⟩
    rw [requireValue_of_hasValue isValue]
    rfl

section

variable {env : TypeEnv} {name : String} {type combined : Ty} {e e' : Expr Unit}
  {value : TypedExpr} {next stop : Nat}

theorem Operand.elsewhere (operand : Operand base type env e next value stop combined)
    (same : e'.bare = e.bare) (next' : Nat) :
    ∃ value' stop', Operand base type env e' next' value' stop' combined ∧
      value.Resembles value' := by
  have matched := matches_expr env same next next'
  rw [operand.checked] at matched
  cases checked : e'.check env next' with
  | error =>
      rw [checked] at matched
      cases matched
  | ok ended =>
      obtain ⟨value', stop'⟩ := ended
      rw [checked] at matched
      cases matched with
      | ok alike =>
          have reading := resembles_compoundOperand base (type.withFinal true) alike
          refine ⟨value', stop', ⟨checked, alike.label_eq ▸ operand.isValue, ?_⟩, alike⟩
          rw [combined?, reading.label_eq]
          exact operand.given

theorem Operand.isMixed_iff (combines : Operand base type env e next value stop combined) :
    combined.isMixed ↔ type.isMixed ∨ value.label.isMixed := by
  have derives := derives_of_checked combines.checked
  rw [← (reads_compoundOperand base (type.withFinal true) value).isMixed derives]
  exact (Ty.combines_of_arithmetic? _ _ combines.given).isMixed

/-- What is combined with the variable is read in the same way wherever it stands, unless a string
literal is combined with something mixed. -/
theorem Operand.resembles {value' : TypedExpr} {next' stop' : Nat} {plain : TypedExpr}
    (combines : Operand base type env e' next' value' stop' combined)
    (isCompound : op.compoundBase = some base) (hasValue : type.isVoid = false)
    (alike : value.Resembles value')
    (unmixed : readsCalendar base → type.leaf.isMixed → calendarLiteral? value = none)
    (notLiteral : calendarLiteral? plain = none) (isType : plain.label = type) :
    (compoundOperand base (type.withFinal true) value).Resembles
      (operands base plain value').2 := by
  have derives := derives_of_checked combines.checked
  have unmixed' : readsCalendar base → type.leaf.isMixed → calendarLiteral? value' = none := by
    intro reads mixed
    rcases calendarLiteral?_cases alike with ⟨-, none⟩ | ⟨_, _, read, -, -⟩
    · exact none
    · exact nomatch (unmixed reads mixed).symm.trans read
  have result := (arithmetic?_operands isCompound hasValue notLiteral isType derives).2
  have defined : (Ty.arithmetic? base type (operands base plain value').2.label).isSome :=
    Option.isSome_iff_exists.mpr ⟨combined, result.trans combines.given⟩
  rw [operands_eq_compoundOperand isCompound hasValue notLiteral isType derives defined unmixed']
  exact resembles_compoundOperand base _ alike

variable (bound : env.lookup name = some type) (writable : type.isFinal = false)
  (isCompound : op.compoundBase = some base) {around : Surroundings} {outer : StmtNode}
  {node target inner operand : Bare}
include bound writable isCompound

theorem Operand.check_compoundAssignment
    (combines : Operand base type env e next value stop combined) (hasValue : type.isVoid = false) (accepts : type.accepts combined) :
    (Stmt.compoundAssignment outer node target op name e).check around env next =
      .ok ((.expr outer (.binary (node.typed (type.withFinal true)) op
        (.ident (target.typed type) name) (compoundOperand base (type.withFinal true) value)), env),
        stop) := by
  have derives := derives_of_checked combines.checked
  rw [Typing.check_compoundAssignment bound writable hasValue isCompound, assigned_eq_ok_iff]
  refine ⟨value, stop, combines.checked, combines.isValue, _, stop, ?_, rfl⟩
  rw [compoundAssign_of_accepts isCompound hasValue derives combines.isValue rfl combines.given
    accepts]
  rfl

theorem Operand.check_writtenAssignment
    (combines : Operand base type env e next value stop combined) (hasValue : type.isVoid = false) (accepts : type.accepts combined) :
    (Stmt.writtenAssignment outer node target inner operand base name e).check around env next =
      .ok ((.expr outer (.binary (node.typed (type.withFinal true)) .assign
        (.ident (target.typed type) name) (.binary (inner.typed combined) base
          (.ident (operand.typed type) name)
          (operands base (.ident (operand.typed type) name) value).2)), env), stop) := by
  have derives := derives_of_checked combines.checked
  rw [Typing.check_writtenAssignment bound writable hasValue isCompound, assigned_eq_ok_iff]
  refine ⟨value, stop, combines.checked, combines.isValue, _, stop, ?_, rfl⟩
  rw [writtenOut_of_accepts isCompound hasValue derives combines.isValue rfl rfl rfl combines.given
    accepts]
  rfl

theorem operand_of_compoundAssignment {ended : (TypedStmt × TypeEnv) × Nat}
    (checked : (Stmt.compoundAssignment outer node target op name e).check around env next
      = .ok ended) :
    type.isVoid = false ∧ ∃ value stop combined,
      Operand base type env e next value stop combined ∧ type.accepts combined := by
  have assigns := Operator.isAssignment_of_compoundBase isCompound
  cases isVoid : type.isVoid with
  | true =>
      rw [Stmt.compoundAssignment, Stmt.check,
        check_assignment_of_isVoid bound isVoid assigns] at checked
      cases checked
  | false =>
      rw [Typing.check_compoundAssignment bound writable isVoid isCompound,
        assigned_eq_ok_iff] at checked
      rcases checked with ⟨value, stop, checked, isValue, assigned, stop', ruled, -⟩
      have derives := derives_of_checked checked
      rcases accepts_of_compoundAssign isCompound isVoid derives isValue rfl ruled with
        ⟨combined, given, accepts⟩
      exact ⟨rfl, value, stop, combined, ⟨checked, isValue, given⟩, accepts⟩

theorem operand_of_writtenAssignment {ended : (TypedStmt × TypeEnv) × Nat}
    (checked : (Stmt.writtenAssignment outer node target inner operand base name e).check around env
      next = .ok ended) :
    type.isVoid = false ∧ ∃ value stop combined,
      Operand base type env e next value stop combined ∧
        (type.accepts combined ∨ combined.isMixed) := by
  cases isVoid : type.isVoid with
  | true =>
      rw [Stmt.writtenAssignment, Stmt.check,
        check_assignment_of_isVoid bound isVoid rfl] at checked
      cases checked
  | false =>
      rw [Typing.check_writtenAssignment bound writable isVoid isCompound,
        assigned_eq_ok_iff] at checked
      rcases checked with ⟨value, stop, checked, isValue, assigned, stop', ruled, -⟩
      have derives := derives_of_checked checked
      rcases accepts_or_of_writtenOut isCompound isVoid derives isValue rfl rfl rfl ruled with
        ⟨combined, given, accepts⟩
      exact ⟨rfl, value, stop, combined, ⟨checked, isValue, given⟩, accepts⟩

/-- The assignment with the operator is accepted wherever it is when it is written out, but for an
operand that is mixed while the variable is not. -/
theorem checks_compoundAssignment_iff (same : e'.bare = e.bare) {next' : Nat} {outer' : StmtNode}
    {node' target' : Bare} :
    (∃ ended, (Stmt.compoundAssignment outer node target op name e).check around env next
        = .ok ended) ↔
      (∃ ended, (Stmt.writtenAssignment outer' node' target' inner operand base name e').check
        around env next' = .ok ended) ∧
      ∀ value stop, e.check env next = .ok (value, stop) → value.label.isMixed → type.isMixed := by
  constructor
  · rintro ⟨ended, checked⟩
    rcases operand_of_compoundAssignment bound writable isCompound checked with
      ⟨hasValue, value, stop, combined, combines, accepts⟩
    rcases combines.elsewhere same next' with ⟨value', stop', combines', -⟩
    refine ⟨⟨_, combines'.check_writtenAssignment bound writable isCompound hasValue accepts⟩, ?_⟩
    intro x stop checked' isMixed
    cases combines.checked.symm.trans checked'
    refine Ty.isMixed_of_accepts accepts ?_
    exact combines.isMixed_iff.mpr (.inr isMixed)
  · rintro ⟨⟨ended, checked⟩, notMixed⟩
    rcases operand_of_writtenAssignment bound writable isCompound checked with
      ⟨hasValue, value', stop', combined, combines', accepts⟩
    rcases combines'.elsewhere same.symm next with ⟨value, stop, combines, alike⟩
    refine ⟨_, combines.check_compoundAssignment bound writable isCompound hasValue ?_⟩
    rcases accepts with accepts | isMixed
    · exact accepts
    -- A mixed result comes from the variable, which takes it then, or from the operand.
    · have slotMixed : type.isMixed := by
        rcases combines.isMixed_iff.mp isMixed with isMixed | isMixed
        · exact isMixed
        · exact notMixed value stop combines.checked isMixed
      exact Ty.accepts_of_isMixed slotMixed (Ty.combines_of_arithmetic? _ _ combines.given).hasValue

/-- What the two ways to write an assignment are checked to: both assign to the variable, and
what is combined with it is the same but for places, unless a string literal is combined with
something mixed. -/
theorem exists_of_checks (same : e'.bare = e.bare) {next' : Nat} {outer' : StmtNode}
    {node' target' : Bare} {ended ended' : (TypedStmt × TypeEnv) × Nat}
    (checked : (Stmt.compoundAssignment outer node target op name e).check around env next
      = .ok ended)
    (checked' : (Stmt.writtenAssignment outer' node' target' inner operand base name e').check
      around env next' = .ok ended') :
    ∃ value stop y y' combined, e.check env next = .ok (value, stop) ∧
      Reads value y ∧
      ((readsCalendar base → type.leaf.isMixed → calendarLiteral? value = none) →
        y.Resembles y') ∧
      ended.1 = (.expr outer (.binary (node.typed (type.withFinal true)) op
        (.ident (target.typed type) name) y), env) ∧
      ended'.1 = (.expr outer' (.binary (node'.typed (type.withFinal true)) .assign
        (.ident (target'.typed type) name) (.binary (inner.typed combined) base
          (.ident (operand.typed type) name) y')), env) := by
  rcases operand_of_compoundAssignment bound writable isCompound checked with
    ⟨hasValue, value, stop, combined, combines, accepts⟩
  rcases combines.elsewhere same next' with ⟨value', stop', combines', alike⟩
  rw [combines.check_compoundAssignment bound writable isCompound hasValue accepts] at checked
  rw [combines'.check_writtenAssignment bound writable isCompound hasValue accepts] at checked'
  cases checked
  cases checked'
  refine ⟨value, stop, _, _, combined, combines.checked, ?_, fun unmixed => ?_, rfl, rfl⟩
  · exact reads_compoundOperand base (type.withFinal true) value
  · exact combines'.resembles isCompound hasValue alike unmixed rfl rfl

end

end Typing

end Formulae
