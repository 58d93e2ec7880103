/-!
# Types as written

The types that declarations, parameters and casts spell out.  They are syntax
only; `Ty` gives them their meaning.
-/

namespace Formulae

/-- The types that are a single reserved word. -/
inductive BasicType
  | int | float | boolean | string | date | duration | void | mixed
deriving DecidableEq, Repr, Inhabited

namespace BasicType

/-- The basic types, in the order in which they are reserved. -/
def all : List BasicType :=
  [.int, .float, .boolean, .string, .date, .duration, .void, .mixed]

/-- The reserved word. -/
def word : BasicType → String
  | .int => "int"
  | .float => "float"
  | .boolean => "boolean"
  | .string => "string"
  | .date => "date"
  | .duration => "duration"
  | .void => "void"
  | .mixed => "mixed"

end BasicType

/-- A type as it stands in the source.  A name that is no reserved word names
an enumeration. -/
inductive TypeExpr
  | basic (type : BasicType)
  | array (element : TypeExpr)
  | function (params : List TypeExpr) (ret : TypeExpr)
  | named (name : String)
deriving Repr, Inhabited

end Formulae
