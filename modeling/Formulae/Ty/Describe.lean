import Formulae.Ty.Operator

/-!
# Types for tools

What an editor wants to know about a type: its shape, and for each binary
operator the right operands it takes.
-/

namespace Formulae

/-- An operator and the right operands it takes, in words. -/
structure OperatorDescription where
  symbol : String
  operands : List String
deriving DecidableEq, Repr

/-- The shape of a type. -/
structure TyDescription where
  kind : String
  isFinal : Bool
  element : Option TyDescription := none
  length : Option Nat := none
  params : List TyDescription := []
  variadic : Option TyDescription := none
  returns : Option TyDescription := none
  name : Option String := none
  operators : List OperatorDescription

namespace Ty

/-- The word for the form of a type. -/
def kindName : Ty → String
  | .basic type _ => type.word
  | .null _ => "null"
  | .array _ _ _ => "array"
  | .function _ _ _ _ _ => "function"
  | .enumeration _ _ => "enum"
  | .typeLiteral _ _ => "type"

/-- The operators that are described.  Assignments and casts depend on more than
the type. -/
def describedOperators : List Operator :=
  [.add, .sub, .mul, .div, .mod, .and, .or, .xor, .eq, .notEq, .lt, .gt, .ltEq, .gtEq]

/-- The operators that take the type as left operand. -/
def describeOperators (type : Ty) : List OperatorDescription :=
  describedOperators.filterMap fun op =>
    let operands := compatibleOperands op type
    if operands.isEmpty then none else some ⟨op.symbol, operands.map render⟩

mutual

/-- What there is to know about a type. -/
def describe : Ty → TyDescription
  | .array element length isFinal =>
      { kind := kindName (.array element length isFinal), isFinal
        element := some (describe element), length
        operators := describeOperators (.array element length isFinal) }
  | .function params variadic ret resolver isFinal =>
      { kind := kindName (.function params variadic ret resolver isFinal), isFinal
        params := describeAll params
        variadic := describeOption variadic
        returns := some (describe ret)
        operators := describeOperators (.function params variadic ret resolver isFinal) }
  | .enumeration name isFinal =>
      { kind := kindName (.enumeration name isFinal), isFinal, name := some name
        operators := describeOperators (.enumeration name isFinal) }
  | .typeLiteral inner isFinal =>
      { kind := kindName (.typeLiteral inner isFinal), isFinal
        element := some (describe inner)
        operators := describeOperators (.typeLiteral inner isFinal) }
  | .basic type isFinal =>
      { kind := kindName (.basic type isFinal), isFinal
        operators := describeOperators (.basic type isFinal) }
  | .null isFinal =>
      { kind := kindName (.null isFinal), isFinal
        operators := describeOperators (.null isFinal) }

/-- Several types described. -/
def describeAll : List Ty → List TyDescription
  | [] => []
  | type :: rest => describe type :: describeAll rest

/-- A type that may be missing described. -/
def describeOption : Option Ty → Option TyDescription
  | none => none
  | some type => some (describe type)

end

end Ty

end Formulae
