import Formulae.Ty.Signature
import Formulae.Ty.Env
import Formulae.Typing.Coerce

/-!
# Checking expressions

Every form of expression has one rule that makes the typed node from its typed
parts, and `Expr.check` applies the rules from the leaves up, in the order in
which the parts are evaluated.  The first fault in that order is reported.
-/

namespace Formulae

namespace Expr

variable {α : Type}

/-- The expression names a place that can be assigned to, by its form. -/
def isPlace : Expr α → Bool
  | .ident _ _ | .index _ _ _ => true
  | _ => false

/-- The variable below which a place lies. -/
def rootName : Expr α → String
  | .ident _ name => name
  | .index _ receiver _ => receiver.rootName
  | _ => "expression"

/-- The name under which messages speak of a callee. -/
def calleeName : Expr α → String
  | .ident _ name => name
  | _ => "function"

end Expr

namespace Typing

/-- What all nodes before checking and after it have in common. -/
abbrev Bare := Node Unit

/-! ## Rules -/

/-- The type of a name: what it is bound to, or else the built-in function. -/
def nameType? (env : TypeEnv) (name : String) : Option Ty :=
  (env.lookup name).or ((Builtin.ofName? name).map fun function => function.signature.type)

/-- A name. -/
def ident (env : TypeEnv) (node : Bare) (name : String) : Check TypedExpr :=
  match nameType? env name with
  | some type => pure (.ident (node.typed type) name)
  | none => Check.fail (.unknownIdentifier name) node.span

/-- A prefix operator. -/
def unary (node : Bare) (op : Operator) (operand : TypedExpr) : Check TypedExpr :=
  match Ty.unaryResult? op operand.label with
  | some type => pure (.unary (node.typed type) op operand)
  | none => Check.fail (.unaryMismatch op operand.label) node.span

/-- String literals among the operands of these operators may stand for dates and
durations. -/
def readsCalendar : Operator → Bool
  | .add | .sub | .mul => true
  | _ => false

/-- Both operands with string literals read as dates or durations, if some are and
the operator is then defined. -/
def calendarOperands? (op : Operator) (left right : TypedExpr) :
    Option (TypedExpr × TypedExpr) :=
  let leftLiteral := calendarLiteral? left
  let rightLiteral := calendarLiteral? right
  if leftLiteral.isNone && rightLiteral.isNone then none
  else
    let x := leftLiteral.getD left
    let y := rightLiteral.getD right
    if (Ty.binaryResult? op x.label y.label).isSome then some (x, y) else none

/-- The operands as the operator takes them. -/
def operands (op : Operator) (left right : TypedExpr) : TypedExpr × TypedExpr :=
  if readsCalendar op then (calendarOperands? op left right).getD (left, right)
  else (left, right)

/-- A binary operator other than casts and assignments. -/
def binary (node : Bare) (op : Operator) (left right : TypedExpr) : Check TypedExpr :=
  let (x, y) := operands op left right
  match Ty.binaryResult? op x.label y.label with
  | some type => pure (.binary (node.typed type) op x y)
  | none => Check.fail (.binaryMismatch op x.label y.label) node.span

/-- A cast to a written type. -/
def cast (node literal : Bare) (written : TypeExpr) (operand : TypedExpr) : Check TypedExpr :=
  let target := Ty.ofExpr written
  let operand := readFor target operand
  if operand.label.castableTo target then
    pure (.binary (node.typed target) .typeCast operand
      (.typeLiteral (literal.typed (.typeLiteral target true)) written))
  else Check.fail (.invalidCast operand.label target) node.span

/-- The target of an assignment must not be final. -/
def assignable (node : Bare) (target : TypedExpr) : Check TypedExpr :=
  if target.label.isFinal then Check.fail (.finalAssignment target.rootName) node.span
  else pure target

/-- A plain assignment. -/
def assign (node : Bare) (target value : TypedExpr) : Check TypedExpr := do
  let slot := target.label.withFinal true
  return .binary (node.typed slot) .assign target (← coerce .accepted slot value)

/-- The right operand of an assignment with an operator: a string literal is read
as a date or a duration only if the operator is not defined for strings. -/
def compoundOperand (base : Operator) (slot : Ty) (value : TypedExpr) : TypedExpr :=
  if (Ty.binaryResult? base slot value.label).isSome then value
  else
    match calendarLiteral? value with
    | some literal => if (Ty.binaryResult? base slot literal.label).isSome then literal else value
    | none => value

/-- An assignment with an operator. -/
def compoundAssign (node : Bare) (op base : Operator) (target value : TypedExpr) :
    Check TypedExpr :=
  let slot := target.label.withFinal true
  let value := compoundOperand base slot value
  match Ty.binaryResult? base slot value.label with
  | none => Check.fail (.binaryMismatch base slot value.label) node.span
  | some combined =>
      if slot.accepts combined then pure (.binary (node.typed slot) op target value)
      else Check.fail (.notAssignable slot combined) node.span

/-- An assignment, with an operator or without. -/
def assignment (node : Bare) (op : Operator) (target value : TypedExpr) : Check TypedExpr :=
  match op.compoundBase with
  | none => assign node target value
  | some base => compoundAssign node op base target value

/-- A choice between two expressions.  Its type is the wider one of theirs, or
mixed if neither accepts the other. -/
def ternary (node : Bare) (cond thenBranch elseBranch : TypedExpr) : Check TypedExpr := do
  let thenType := thenBranch.label
  let elseType := elseBranch.label
  if thenType.equals elseType then
    return .ternary (node.typed (thenType.withFinal true)) cond thenBranch elseBranch
  else if thenType.accepts elseType then
    return .ternary (node.typed (thenType.withFinal true)) cond thenBranch
      (← widen thenType elseBranch)
  else if elseType.accepts thenType then
    return .ternary (node.typed (elseType.withFinal true)) cond (← widen elseType thenBranch)
      elseBranch
  else
    return .ternary (node.typed Ty.mixed) cond thenBranch elseBranch

/-- An array of what its elements have in common. -/
def array (node : Bare) (items : List TypedExpr) : Check TypedExpr := do
  let element := (Ty.common? (items.map Expr.label)).getD Ty.mixed
  let items' ← items.mapM (widen element)
  return .array (node.typed (Ty.arrayOf element (some items.length))) items'

/-- An index as messages quote it: a literal with its text, anything else by its
type. -/
def quotedIndex : TypedExpr → String
  | .constant _ (.string text) => "\"" ++ text ++ "\""
  | e => e.label.render

/-- An element of an array. -/
def index (node : Bare) (receiver subscript : TypedExpr) : Check TypedExpr :=
  if receiver.label.isArray || receiver.label.isMixed then
    match Ty.binaryResult? .index receiver.label subscript.label with
    | some type => pure (.index (node.typed type) receiver subscript)
    | none => Check.fail (.invalidIndex (quotedIndex subscript)) node.span
  else Check.fail (.notIndexable receiver.label) receiver.span

/-- An argument at a position, as the parameter takes it. -/
def argument (signature : Signature) (name : String) (position : Nat) (arg : TypedExpr) :
    Check TypedExpr :=
  match signature.param? position with
  | some param => coerce .accepted param arg
  | none => Check.fail (.bug (.missingParameter position name)) arg.span

/-- A call of a function with a signature. -/
def call (node : Bare) (signature : Signature) (name : String) (callee : TypedExpr)
    (args : List TypedExpr) : Check TypedExpr :=
  let types := args.map Expr.label
  match signature.result? types with
  | some type => pure (.call (node.typed type) callee args)
  | none => Check.fail (.invalidArguments name types) node.span

end Typing

namespace Expr

open Typing

mutual

/-- The expression with the types of all its parts. -/
def check (env : TypeEnv) : Expr Unit → Check TypedExpr
  | .ident node name => Typing.ident env node name
  | .constant node value => pure (.constant (node.typed value.type) value)
  | .unary node op operand => do
      Typing.unary node op (← requireValue (← check env operand))
  | .binary node op left right =>
      if op = .typeCast then
        match right with
        | .typeLiteral literal written => do
            Typing.cast node literal written (← requireValue (← check env left))
        | other => Check.fail (.bug .castWithoutType) other.span
      else if op.isAssignment then
        if left.isPlace then do
          let target ← assignable node (← requireValue (← check env left))
          assignment node op target (← requireValue (← check env right))
        else Check.fail .invalidAssignmentTarget left.span
      else do
        let x ← requireValue (← check env left)
        Typing.binary node op x (← requireValue (← check env right))
  | .ternary node cond thenBranch elseBranch => do
      let c ← requireValue (← check env cond)
      let x ← requireValue (← check env thenBranch)
      Typing.ternary node c x (← requireValue (← check env elseBranch))
  | .call node callee args => do
      let f ← requireValue (← check env callee)
      match f.label.signature? with
      | some signature =>
          if signature.acceptsArity args.length then
            Typing.call node signature callee.calleeName f
              (← checkArgs env signature callee.calleeName 0 args)
          else
            Check.fail
              (.argumentCount callee.calleeName signature.params.length
                signature.variadic.isSome args.length)
              node.span
      | none =>
          if f.label.isMixed then
            return .call (node.typed Ty.mixed) f (← checkAll env args)
          else Check.fail (.notCallable f.label) f.span
  | .array node items => do
      Typing.array node (← checkAll env items)
  | .index node receiver subscript => do
      let x ← requireValue (← check env receiver)
      Typing.index node x (← requireValue (← check env subscript))
  | .typeLiteral node written =>
      pure (.typeLiteral (node.typed (.typeLiteral (Ty.ofExpr written) true)) written)

/-- Several expressions that must have values. -/
def checkAll (env : TypeEnv) : List (Expr Unit) → Check (List TypedExpr)
  | [] => pure []
  | e :: rest => do
      let first ← requireValue (← check env e)
      return first :: (← checkAll env rest)

/-- The arguments of a call from a position on, each fitted to its parameter before
the next one is looked at. -/
def checkArgs (env : TypeEnv) (signature : Signature) (name : String) :
    Nat → List (Expr Unit) → Check (List TypedExpr)
  | _, [] => pure []
  | position, e :: rest => do
      let first ← argument signature name position (← requireValue (← check env e))
      return first :: (← checkArgs env signature name (position + 1) rest)

end

end Expr

end Formulae
