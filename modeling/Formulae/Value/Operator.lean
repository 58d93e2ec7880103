import Formulae.Value.Fault
import Formulae.Value.Order

/-!
# Operators on values

Arithmetic follows the same plan as on types: rules for plain operands in one
order, the other order for commutative operators, and element by element on
arrays.  Arithmetic on integers and durations is exact or fails; division always
gives a float.
-/

namespace Formulae.Value

/-- A value or the reason why there is none. -/
abbrev Result := Except EvalFault Value

/-! ## Arithmetic -/

/-- An exact result, if it fits. -/
def exact (arithmetic : Checked) (wrap : α → Value) (result : Option α) : Result :=
  match result with
  | some x => .ok (wrap x)
  | none => .error (.overflow arithmetic)

/-- The operators have no meaning on values, as the evaluator gives them one of
their own. -/
def withoutRule (op : Operator) : Result :=
  .error (.bug (.operatorWithoutRule op))

/-- Arithmetic on integers. -/
def integerArithmetic (op : Operator) (a b : Int64) : Result :=
  match op with
  | .add => exact .addition .int (Number.add? a b)
  | .sub => exact .subtraction .int (Number.sub? a b)
  | .mul => exact .multiplication .int (Number.mul? a b)
  | .div =>
      if b = 0 then .error .divisionByZero
      else .ok (.float (Number.toFloat a / Number.toFloat b))
  | .mod =>
      if b = 0 then .error .divisionByZero else exact .remainder .int (Number.rem? a b)
  | _ => withoutRule op

/-- Arithmetic on floats. -/
def floatArithmetic (op : Operator) (x y : Float) : Result :=
  match op with
  | .add => .ok (.float (x + y))
  | .sub => .ok (.float (x - y))
  | .mul => .ok (.float (x * y))
  | .div => .ok (.float (x / y))
  | .mod => .ok (.float (Number.remainder x y))
  | _ => withoutRule op

/-- A date that may be out of range. -/
def shifted (date : Option Date) : Result :=
  match date with
  | some d => .ok (.date d)
  | none => .error .dateOutOfRange

/-- Arithmetic on operands that are no arrays, in this order; `none` if there is
no rule for them. -/
def plainArithmetic? (op : Operator) : Value → Value → Option Result
  | .int a, .int b => some (integerArithmetic op a b)
  | .int a, .float y => some (floatArithmetic op (Number.toFloat a) y)
  | .float x, .int b => some (floatArithmetic op x (Number.toFloat b))
  | .float x, .float y => some (floatArithmetic op x y)
  | .string a, .string b => if op = .add then some (.ok (.string (a ++ b))) else none
  | .date d, .duration p =>
      match op with
      | .add => some (shifted (d.add? p))
      | .sub => some (shifted (d.sub? p))
      | _ => none
  | .date a, .date b => if op = .sub then some (.ok (.duration (a.between b))) else none
  | .duration p, .duration q =>
      match op with
      | .add => some (exact .duration .duration (p.add? q))
      | .sub => some (exact .duration .duration (p.sub? q))
      | _ => none
  | .duration p, .int n =>
      if op = .mul then some (exact .duration .duration (p.mul? n)) else none
  | _, _ => none

/-- The operator does not combine the operands. -/
def mismatch (op : Operator) (left right : Value) : Result :=
  .error (.binaryMismatch op left.kind right.kind)

/-- Arithmetic on operands that are no arrays, in either order if the operator is
commutative. -/
def scalarArithmetic (op : Operator) (left right : Value) : Result :=
  match plainArithmetic? op left right with
  | some result => result
  | none =>
      if op.isCommutative then (plainArithmetic? op right left).getD (mismatch op left right)
      else mismatch op left right

mutual

/-- Arithmetic with the same right operand, no array, for every element on the
left. -/
def spread (op : Operator) (right : Value) : Value → Result
  | .array items => (spreadAll op right items).map .array
  | left => scalarArithmetic op left right

/-- Arithmetic with the same right operand for several left ones. -/
def spreadAll (op : Operator) (right : Value) : List Value → Except EvalFault (List Value)
  | [] => .ok []
  | left :: rest => do
      let first ← spread op right left
      let others ← spreadAll op right rest
      return first :: others

end

mutual

/-- Arithmetic on any operands.  Arrays of one length are combined element by
element. -/
def arithmetic (op : Operator) : Value → Value → Result
  | .array as, .array bs =>
      if as.length = bs.length then (arithmeticAll op as bs).map .array
      else .error (.lengthMismatch as.length bs.length)
  | .array as, right => (spreadAll op right as).map .array
  | left, .array bs =>
      if op.isCommutative then (spreadAll op left bs).map .array
      else mismatch op left (.array bs)
  | left, right => scalarArithmetic op left right

/-- Arithmetic on pairs of operands. -/
def arithmeticAll (op : Operator) : List Value → List Value → Except EvalFault (List Value)
  | left :: lefts, right :: rights => do
      let first ← arithmetic op left right
      let others ← arithmeticAll op lefts rights
      return first :: others
  | _, _ => .ok []

end

/-! ## Binary operators -/

/-- The comparison holds between operands in this order. -/
def ordered (op : Operator) (order : Ordering) : Bool :=
  match op with
  | .lt => order = .lt
  | .gt => order = .gt
  | .ltEq => order ≠ .gt
  | _ => order ≠ .lt

/-- The value of `left op right`. -/
def binary (op : Operator) (left right : Value) : Result :=
  match op with
  | .add | .sub | .mul | .div | .mod => arithmetic op left right
  | .and => .ok (.bool (left.isTruthy && right.isTruthy))
  | .or => .ok (.bool (left.isTruthy || right.isTruthy))
  | .xor => .ok (.bool (left.isTruthy ^^ right.isTruthy))
  | .eq => .ok (.bool (left.equals right))
  | .notEq => .ok (.bool (!left.equals right))
  | .lt | .gt | .ltEq | .gtEq =>
      match left.compare? right with
      | some order => .ok (.bool (ordered op order))
      | none => mismatch op left right
  | .assign | .addAssign | .subAssign | .mulAssign | .divAssign | .typeCast | .index | .call
  | .not | .neg => withoutRule op

/-! ## Prefix operators -/

/-- The prefix operator does not apply to the operand. -/
def unaryMismatch (op : Operator) (operand : Value) : Result :=
  .error (.unaryMismatch op operand.kind)

mutual

/-- The negated value; arrays are negated element by element. -/
def negated : Value → Result
  | .int n => exact .negation .int (Number.neg? n)
  | .float x => .ok (.float (-x))
  | .duration d => exact .negation .duration d.neg?
  | .array items => (negatedAll items).map .array
  | operand => unaryMismatch .neg operand

/-- Several values negated. -/
def negatedAll : List Value → Except EvalFault (List Value)
  | [] => .ok []
  | operand :: rest => do
      let first ← negated operand
      let others ← negatedAll rest
      return first :: others

end

/-- The value of a prefix operator with its operand. -/
def unary (op : Operator) (operand : Value) : Result :=
  match op with
  | .not => .ok (.bool !operand.isTruthy)
  | .neg => operand.negated
  | _ => unaryMismatch op operand

/-!
## Casts

How a value is converted to a type.  Every value has a truth value and a text;
floats lose their fraction, and strings are read as dates or durations.
-/

/-- The result of a conversion that may be impossible. -/
def converted (value : Value) (target : Ty) (result : Option Value) : Except EvalFault Value :=
  match result with
  | some converted => .ok converted
  | none => .error (.invalidCast value target)

/-- The value converted to a type that is no array type; `none` if there is no
conversion. -/
def plainCast? : Ty → Value → Option Value
  | .basic .mixed _, v => some v
  | .basic .boolean _, v => some (.bool v.isTruthy)
  | .basic .string _, .string text => some (.string text)
  | .basic .string _, v => some (.string v.render)
  | .basic .int _, .int n => some (.int n)
  | .basic .int _, .float x => (Number.truncate? x).map .int
  | .basic .int _, .bool b => some (.int (if b then 1 else 0))
  | .basic .float _, .float x => some (.float x)
  | .basic .float _, .int n => some (.float (Number.toFloat n))
  | .basic .date _, .date d => some (.date d)
  | .basic .date _, .string text => (Date.parse? text.toList).map .date
  | .basic .duration _, .duration d => some (.duration d)
  | .basic .duration _, .string text => (Duration.parse? text.toList).map .duration
  | .function _ _ _ _ _, .function f => some (.function f)
  | .enumeration name _, .enumeration type variant =>
      if type = name then some (.enumeration type variant) else none
  | _, _ => none

/-- The value converted to a type.  Arrays are converted element by element. -/
def cast (target : Ty) (value : Value) : Except EvalFault Value :=
  match target, value with
  | .array element _ _, .array items => (items.mapM (cast element)).map .array
  | target, value => converted value target (plainCast? target value)

end Formulae.Value
