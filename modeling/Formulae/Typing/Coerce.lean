import Formulae.Calendar.DateText
import Formulae.Tree.Basic
import Formulae.Ty.Operator
import Formulae.Typing.Fault

/-!
# Making values fit

Checking changes a tree in two ways only.  A value whose representation changes
on its way into a place is wrapped in a cast: the cast takes over the number of
the value, and the value and the type it is cast to get new ones.  A string
literal that stands where a date or a duration fits becomes a literal of that
kind.
-/

namespace Formulae

/-- Checking hands out numbers for new nodes and may fail. -/
abbrev Check := StateT Nat (Except TypeError)

/-- A checked expression. -/
abbrev TypedExpr := Expr Ty

namespace Check

/-- Reject the formula for a fault in a stretch of source. -/
def fail (fault : TypeFault) (span : Span) : Check β :=
  throw ⟨fault, span⟩

/-- A number that no node has yet. -/
def fresh : Check Nat :=
  modifyGet fun next => (next, next + 1)

end Check

/-- The node with a type. -/
def Node.typed {α : Type} (node : Node α) (type : Ty) : Node Ty :=
  ⟨node.id, node.span, type⟩

/-- The type of a literal. -/
def Constant.type : Constant → Ty
  | .int _ => Ty.int
  | .float _ | .negativeNan => Ty.float
  | .bool _ => Ty.boolean
  | .null => .null true
  | .string _ => Ty.string
  | .date _ => Ty.date
  | .duration _ => Ty.duration

/-- The expression with another number. -/
def Expr.withId {α : Type} (id : Nat) : Expr α → Expr α
  | .ident node name => .ident { node with id } name
  | .constant node value => .constant { node with id } value
  | .unary node op operand => .unary { node with id } op operand
  | .binary node op left right => .binary { node with id } op left right
  | .ternary node cond thenBranch elseBranch =>
      .ternary { node with id } cond thenBranch elseBranch
  | .call node callee args => .call { node with id } callee args
  | .array node items => .array { node with id } items
  | .index node receiver subscript => .index { node with id } receiver subscript
  | .typeLiteral node type => .typeLiteral { node with id } type

namespace Typing

/-! ## Literals of the calendar -/

/-- The date or duration that the text of a string literal stands for. -/
def calendarConstant? (text : String) : Option Constant :=
  if (Date.parse? text.toList).isSome then some (.date text)
  else if (Duration.parse? text.toList).isSome then some (.duration text)
  else none

/-- A string literal read as a date or a duration, if its text stands for one. -/
def calendarLiteral? : TypedExpr → Option TypedExpr
  | .constant node (.string text) =>
      (calendarConstant? text).map fun value => .constant (node.typed value.type) value
  | _ => none

/-- The type is that of dates or that of durations. -/
def isCalendar : Ty → Bool
  | .basic .date _ | .basic .duration _ => true
  | _ => false

/-- A string literal read as the date or duration that a place takes; any other
expression as it is. -/
def readFor (target : Ty) (e : TypedExpr) : TypedExpr :=
  if isCalendar target then
    match calendarLiteral? e with
    | some literal => if literal.label.equals target then literal else e
    | none => e
  else e

/-! ## Casts -/

/-- How strictly a value has to fit a place: a declaration takes any value that
can be cast, all other places only values that they accept. -/
inductive Fit
  | accepted
  | castable
deriving DecidableEq, Repr

/-- The expression wrapped in a cast. -/
def insertCast (target : Ty) (e : TypedExpr) : Check TypedExpr :=
  match target.toExpr? with
  | none => Check.fail (.bug (.unwritableCast target)) e.span
  | some written => do
      let moved ← Check.fresh
      let literal ← Check.fresh
      let type := target.withFinal true
      return .binary { e.node with label := type } .typeCast (e.withId moved)
        (.typeLiteral ⟨literal, e.span, .typeLiteral type true⟩ written)

/-- The expression as a place of a type takes it.  A mixed value is let through
anywhere, as the cast looks at it when the formula runs. -/
def coerce (fit : Fit) (target : Ty) (e : TypedExpr) : Check TypedExpr :=
  let e := readFor target e
  if target.accepts e.label then
    if target.convertsFrom e.label then insertCast target e else pure e
  else if (fit = .castable || e.label.isMixed) && e.label.castableTo target then
    insertCast target e
  else Check.fail (.notAssignable target e.label) e.span

/-- The expression with a cast only if its representation changes. -/
def widen (target : Ty) (e : TypedExpr) : Check TypedExpr :=
  if target.convertsFrom e.label then insertCast target e else pure e

/-- The expression, which must have a value. -/
def requireValue (e : TypedExpr) : Check TypedExpr :=
  if e.label.isVoid then Check.fail .voidValue e.span else pure e

end Typing

end Formulae
