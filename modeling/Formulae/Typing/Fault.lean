import Formulae.Operator
import Formulae.Text.Span
import Formulae.Ty.Basic

/-!
# Failures of checking

Why a formula was rejected before it was run (`TypeFault`), and where in the
source (`TypeError`).
-/

namespace Formulae

/-- What checking relies on and no parsed formula violates. -/
inductive TypeBug
  | castWithoutType
  | unwritableCast (target : Ty)
  | missingParameter (position : Nat) (function : String)
deriving Repr

namespace TypeBug

/-- The text shown to the user. -/
def message : TypeBug → String
  | .castWithoutType => "cast without a type operand"
  | .unwritableCast target => "no cast syntax for " ++ target.render
  | .missingParameter position function =>
      "no parameter " ++ toString position ++ " for " ++ function

end TypeBug

/-- The words that leave a loop or go on with its next round. -/
inductive LoopControl
  | brk | cont
deriving DecidableEq, Repr

namespace LoopControl

/-- The word as it is written. -/
def word : LoopControl → String
  | .brk => "break"
  | .cont => "continue"

end LoopControl

/-- Why a formula was rejected. -/
inductive TypeFault
  | unknownIdentifier (name : String)
  | binaryMismatch (op : Operator) (left right : Ty)
  | unaryMismatch (op : Operator) (operand : Ty)
  | notAssignable (target source : Ty)
  | invalidCast (source target : Ty)
  | finalAssignment (name : String)
  | invalidAssignmentTarget
  | notCallable (type : Ty)
  | argumentCount (name : String) (expected : Nat) (more : Bool) (found : Nat)
  | invalidArguments (name : String) (args : List Ty)
  | invalidIndex (subscript : String)
  | notIndexable (type : Ty)
  | notIterable (type : Ty)
  | duplicateDeclaration (name : String)
  | voidValue
  | outsideLoop (control : LoopControl)
  | missingReturn (name : String) (type : Ty)
  | bug (cause : TypeBug)
deriving Repr

namespace TypeFault

/-- The text shown to the user. -/
def message : TypeFault → String
  | .unknownIdentifier name => "Unknown identifier " ++ name
  | .binaryMismatch op left right =>
      "Operator \"" ++ op.symbol ++ "\" is not defined for " ++ left.render ++ " and "
        ++ right.render
  | .unaryMismatch op operand =>
      "Operator \"" ++ op.symbol ++ "\" is not defined for " ++ operand.render
  | .notAssignable target source => "Cannot assign " ++ source.render ++ " to " ++ target.render
  | .invalidCast source target => "Cannot cast " ++ source.render ++ " to " ++ target.render
  | .finalAssignment name => "Cannot assign to final value " ++ name
  | .invalidAssignmentTarget => "Expression is not assignable"
  | .notCallable type => type.render ++ " is not callable"
  | .argumentCount name expected more found =>
      name ++ " expects " ++ (if more then "at least " else "") ++ toString expected
        ++ " arguments, got " ++ toString found
  | .invalidArguments name args =>
      "Invalid arguments (" ++ ", ".intercalate (args.map Ty.render) ++ ") for " ++ name
  | .invalidIndex subscript => subscript ++ " is no valid array index"
  | .notIndexable type => type.render ++ " cannot be indexed"
  | .notIterable type => type.render ++ " cannot be iterated"
  | .duplicateDeclaration name => name ++ " is already declared in this scope"
  | .voidValue => "Void cannot be used as a value"
  | .outsideLoop control => control.word ++ " outside of a loop"
  | .missingReturn name type =>
      "Function " ++ name ++ " must return " ++ type.render ++ " on every path"
  | .bug cause => "Internal error: " ++ cause.message

end TypeFault

/-- A failure and the stretch of source that is at fault. -/
structure TypeError where
  fault : TypeFault
  span : Span
deriving Repr

namespace TypeError

/-- The text shown to the user. -/
def message (e : TypeError) : String :=
  e.fault.message ++ " at position " ++ toString e.span.start

end TypeError

end Formulae
