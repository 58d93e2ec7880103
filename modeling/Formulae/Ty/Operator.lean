import Formulae.Operator
import Formulae.Ty.Relation

/-!
# Operators on types

Which operands an operator takes and what it gives.  Results are final, since an
operator gives a value and no place; only an element of an array that may be
assigned to is a place itself.

Arithmetic extends to arrays element by element.  Its rules for plain operands
are written for one order and hold for the other order too where the operator is
commutative.
-/

namespace Formulae.Ty

/-- Arithmetic on operands that are no arrays, in this order. -/
def plainArithmetic? (op : Operator) : Ty → Ty → Option Ty
  | .basic .void _, _ | _, .basic .void _ => none
  | .basic .mixed _, _ | _, .basic .mixed _ => some mixed
  | .basic .int _, .basic .int _ => some (if op = .div then float else int)
  | .basic .int _, .basic .float _ | .basic .float _, .basic .int _
  | .basic .float _, .basic .float _ => some float
  | .basic .string _, .basic .string _ => if op = .add then some string else none
  | .basic .date _, .basic .duration _ => if op = .add ∨ op = .sub then some date else none
  | .basic .date _, .basic .date _ => if op = .sub then some duration else none
  | .basic .duration _, .basic .duration _ =>
      if op = .add ∨ op = .sub then some duration else none
  | .basic .duration _, .basic .int _ => if op = .mul then some duration else none
  | _, _ => none

/-- Arithmetic on operands that are no arrays, in either order if the operator is
commutative. -/
def scalarArithmetic? (op : Operator) (left right : Ty) : Option Ty :=
  (plainArithmetic? op left right).or
    (if op.isCommutative then plainArithmetic? op right left else none)

/-- Arithmetic with the same right operand, no array, for every element on the
left. -/
def spread? (op : Operator) (right : Ty) : Ty → Option Ty
  | .array element length _ => (spread? op right element).map (arrayOf · length)
  | left => scalarArithmetic? op left right

/-- Arithmetic on any operands.  Arrays are combined element by element, and the
lengths that are known have to be equal. -/
def arithmetic? (op : Operator) : Ty → Ty → Option Ty
  | .array a m _, .array b n _ =>
      if lengthsAgree m n then (arithmetic? op a b).map (arrayOf · (m.or n)) else none
  | .array a m _, right =>
      if right.isMixed then some mixed else (spread? op right a).map (arrayOf · m)
  | left, .array b n _ =>
      if left.isMixed then some mixed
      else if op.isCommutative then (spread? op left b).map (arrayOf · n)
      else none
  | left, right => scalarArithmetic? op left right

/-- The operands can be put in order. -/
def isOrdered : Ty → Ty → Bool
  | .basic .mixed _, _ | _, .basic .mixed _ => true
  | .basic .int _, .basic .int _ | .basic .int _, .basic .float _
  | .basic .float _, .basic .int _ | .basic .float _, .basic .float _ => true
  | .basic .string _, .basic .string _ | .basic .boolean _, .basic .boolean _
  | .basic .date _, .basic .date _ | .basic .duration _, .basic .duration _ => true
  | _, _ => false

/-- The operands can be compared for equality. -/
def isComparable (left right : Ty) : Bool :=
  left.accepts right || right.accepts left || left.isNull || right.isNull

/-- The type of an element taken out of an array.  It is a place where the array
is one. -/
def element? : Ty → Ty → Option Ty
  | .array element _ isFinal, .basic .int _ | .array element _ isFinal, .basic .mixed _ =>
      some (element.withFinal isFinal)
  | .basic .mixed isFinal, .basic .int _ | .basic .mixed isFinal, .basic .mixed _ =>
      some (.basic .mixed isFinal)
  | _, _ => none

/-- The type of a cast to the type that the right operand is. -/
def castResult? (left : Ty) : Ty → Option Ty
  | .typeLiteral target _ => if left.castableTo target then some (target.withFinal true) else none
  | _ => none

/-- The type of an assignment of `value` to a place. -/
def assignResult? (place value : Ty) : Option Ty :=
  if place.accepts value then some (place.withFinal true) else none

/-- The type of `left op right`; `none` if the operator is not defined there. -/
def binaryResult? (op : Operator) (left right : Ty) : Option Ty :=
  if left.isVoid || right.isVoid then none
  else
    match op with
    | .add | .sub | .mul | .div | .mod => arithmetic? op left right
    | .and | .or | .xor => some boolean
    | .eq | .notEq => if left.isComparable right then some boolean else none
    | .lt | .gt | .ltEq | .gtEq => if left.isOrdered right then some boolean else none
    | .typeCast => left.castResult? right
    | .index => left.element? right
    | .assign => left.assignResult? right
    | .addAssign => (arithmetic? .add left right).bind left.assignResult?
    | .subAssign => (arithmetic? .sub left right).bind left.assignResult?
    | .mulAssign => (arithmetic? .mul left right).bind left.assignResult?
    | .divAssign => (arithmetic? .div left right).bind left.assignResult?
    | .not | .neg | .call => none

/-- The type of a negated operand; arrays are negated element by element. -/
def negResult? : Ty → Option Ty
  | .basic .int _ => some int
  | .basic .float _ => some float
  | .basic .duration _ => some duration
  | .basic .mixed _ => some mixed
  | .array element length _ => element.negResult?.map (arrayOf · length)
  | _ => none

/-- The type of a prefix operator with its operand. -/
def unaryResult? (op : Operator) (operand : Ty) : Option Ty :=
  if operand.isVoid then none
  else
    match op with
    | .not => some boolean
    | .neg => operand.negResult?
    | _ => none

/-- The types tried for the right operand of a type. -/
def operandCandidates (left : Ty) : List Ty :=
  [int, float, boolean, string, .null true, date, duration, mixed]
    ++ (if left.isArray then [left.withFinal true] else [])

/-- The right operands that an operator takes after `left`, among the plain types
and, for an array, its own type. -/
def compatibleOperands (op : Operator) (left : Ty) : List Ty :=
  left.operandCandidates.filter fun right => (binaryResult? op left right).isSome

end Formulae.Ty
