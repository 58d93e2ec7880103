import Formulae.Value.Text

/-!
# Failures of evaluation

Why a value could not be computed (`EvalFault`), and where in the source that
happened (`EvalError`).
-/

namespace Formulae

/-- Arithmetic whose exact result may fail to fit. -/
inductive Checked
  | addition | subtraction | multiplication | remainder | negation | duration | absolute
deriving DecidableEq, Repr

namespace Checked

/-- The word for the arithmetic. -/
def word : Checked → String
  | .addition => "addition"
  | .subtraction => "subtraction"
  | .multiplication => "multiplication"
  | .remainder => "remainder"
  | .negation => "negation"
  | .duration => "duration"
  | .absolute => "abs"

end Checked

/-- What evaluation relies on and no checked program violates. -/
inductive EvalBug
  | operatorWithoutRule (op : Operator)
  | castWithoutTarget
  | typeAsValue
  | unparsableDate
  | unparsableDuration
  | finalAssigned (name : String)
  | invalidTarget
  | loopControlOutside
  | loopControlEscaped
deriving DecidableEq, Repr

namespace EvalBug

/-- The text shown to the user. -/
def message : EvalBug → String
  | .operatorWithoutRule op => "operator " ++ op.symbol ++ " has no value-level rule"
  | .castWithoutTarget => "cast without a target type"
  | .typeAsValue => "type used as a value"
  | .unparsableDate => "unparsable date literal"
  | .unparsableDuration => "unparsable duration literal"
  | .finalAssigned name => "assignment to final " ++ name
  | .invalidTarget => "invalid assignment target"
  | .loopControlOutside => "loop control outside a loop"
  | .loopControlEscaped => "loop control escaped a function"

end EvalBug

/-- Why evaluation stopped. -/
inductive EvalFault
  | unboundVariable (name : String)
  | unresolvedMethod (name : String)
  | outOfRange (position : Int64) (length : Nat)
  | invalidIndex (subscript : Value)
  | binaryMismatch (op : Operator) (left right : ValueKind)
  | unaryMismatch (op : Operator) (operand : ValueKind)
  | invalidCast (value : Value) (target : Ty)
  | divisionByZero
  | overflow (arithmetic : Checked)
  | dateOutOfRange
  | lengthMismatch (left right : Nat)
  | notCallable (kind : ValueKind)
  | notIterable (kind : ValueKind)
  | argumentCount (name : String) (expected found : Nat)
  | invalidArgument (function : Builtin) (args : List Value)
  | hostFailure (name reason : String)
  | callDepth (limit : Nat)
  | cancelled
  | bug (cause : EvalBug)
deriving Repr

namespace EvalFault

/-- A value as messages quote it: strings in quotes, enumeration variants with
their names. -/
def quoted : Value → String
  | .string text => (Value.string text).literal
  | v => v.render

/-- The text shown to the user. -/
def message : EvalFault → String
  | .unboundVariable name => "Variable " ++ name ++ " has no value"
  | .unresolvedMethod name => "No method provided for " ++ name
  | .outOfRange position length =>
      toString position.toInt ++ " not in range 0 - " ++ toString length
  | .invalidIndex subscript => subscript.literal ++ " is no valid array index"
  | .binaryMismatch op left right =>
      "Operator \"" ++ op.symbol ++ "\" cannot combine " ++ left.word ++ " and " ++ right.word
  | .unaryMismatch op operand =>
      "Operator \"" ++ op.symbol ++ "\" cannot be applied to " ++ operand.word
  | .invalidCast value target => "Cannot convert " ++ quoted value ++ " to " ++ target.render
  | .divisionByZero => "Division by zero"
  | .overflow arithmetic => "Integer overflow in " ++ arithmetic.word
  | .dateOutOfRange => "Date out of range"
  | .lengthMismatch left right =>
      "Array lengths differ: " ++ toString left ++ " and " ++ toString right
  | .notCallable kind => kind.word ++ " is not callable"
  | .notIterable kind => kind.word ++ " cannot be iterated"
  | .argumentCount name expected found =>
      name ++ " expects " ++ toString expected ++ " arguments, got " ++ toString found
  | .invalidArgument function args =>
      "Invalid argument for " ++ function.name ++ ": ("
        ++ ", ".intercalate (args.map Value.literal) ++ ")"
  | .hostFailure name reason => name ++ " failed: " ++ reason
  | .callDepth limit => "Maximum call depth of " ++ toString limit ++ " exceeded"
  | .cancelled => "Evaluation cancelled"
  | .bug cause => "Internal error: " ++ cause.message

end EvalFault

/-- A failure and the stretch of source whose evaluation failed. -/
structure EvalError where
  fault : EvalFault
  span : Span
deriving Repr

namespace EvalError

/-- The text shown to the user. -/
def message (e : EvalError) : String :=
  e.fault.message ++ " at position " ++ toString e.span.start

end EvalError

end Formulae
