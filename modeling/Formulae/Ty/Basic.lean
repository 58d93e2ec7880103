import Formulae.TypeExpr

/-!
# Types

The types of values and of the places that hold them.  A type says whether a
place of it is final, that is, whether it must not be assigned to.  Finality is
no part of what the type means: `Ty.equals` ignores it at every level.
-/

namespace Formulae

/-- How the result type of a call follows from the argument types, for
functions whose result depends on them. -/
inductive Resolver
  /-- The widest numeric argument, or the element type of a single array. -/
  | widestOrElement
  /-- The widest numeric argument. -/
  | widest
  /-- An array of what the arguments have in common. -/
  | arrayOf
deriving DecidableEq, Repr

/-- Types.  `basic .mixed` is any value but the void one and is looked into only
when the program runs; an array type may record the length of a literal. -/
inductive Ty
  | basic (type : BasicType) (isFinal : Bool)
  | null (isFinal : Bool)
  | array (element : Ty) (length : Option Nat) (isFinal : Bool)
  | function (params : List Ty) (variadic : Option Ty) (ret : Ty) (resolver : Option Resolver)
      (isFinal : Bool)
  | enumeration (name : String) (isFinal : Bool)
  | typeLiteral (inner : Ty) (isFinal : Bool)
deriving Repr, Inhabited

namespace Ty

/-! ## Common types

All of them final. -/

def int : Ty := .basic .int true
def float : Ty := .basic .float true
def boolean : Ty := .basic .boolean true
def string : Ty := .basic .string true
def date : Ty := .basic .date true
def duration : Ty := .basic .duration true
def void : Ty := .basic .void true
def mixed : Ty := .basic .mixed true

/-- A final array of elements of one type. -/
def arrayOf (element : Ty) (length : Option Nat) : Ty :=
  .array element length true

/-! ## Finality -/

/-- A place of the type must not be assigned to. -/
def isFinal : Ty → Bool
  | .basic _ isFinal | .null isFinal | .array _ _ isFinal | .function _ _ _ _ isFinal
  | .enumeration _ isFinal | .typeLiteral _ isFinal => isFinal

/-- The type with another finality. -/
def withFinal (isFinal : Bool) : Ty → Ty
  | .basic type _ => .basic type isFinal
  | .null _ => .null isFinal
  | .array element length _ => .array element length isFinal
  | .function params variadic ret resolver _ => .function params variadic ret resolver isFinal
  | .enumeration name _ => .enumeration name isFinal
  | .typeLiteral inner _ => .typeLiteral inner isFinal

/-! ## Kinds -/

/-- The type of no value. -/
def isVoid : Ty → Bool
  | .basic .void _ => true
  | _ => false

/-- The type of any value. -/
def isMixed : Ty → Bool
  | .basic .mixed _ => true
  | _ => false

/-- Integers and floats. -/
def isNumeric : Ty → Bool
  | .basic .int _ | .basic .float _ => true
  | _ => false

/-- The type of integers. -/
def isInt : Ty → Bool
  | .basic .int _ => true
  | _ => false

/-- The type of floats. -/
def isFloat : Ty → Bool
  | .basic .float _ => true
  | _ => false

/-- The type of the null value. -/
def isNull : Ty → Bool
  | .null _ => true
  | _ => false

/-- The type of arrays of some kind. -/
def isArray : Ty → Bool
  | .array _ _ _ => true
  | _ => false

/-! ## Equality -/

mutual

/-- The types have the same structure and, if asked, the same finality at every
level. -/
def agree (finality : Bool) : Ty → Ty → Bool
  | .basic a f, .basic b g => a = b && (!finality || f = g)
  | .null f, .null g => !finality || f = g
  | .array a m f, .array b n g => m = n && agree finality a b && (!finality || f = g)
  | .function ps v r c f, .function qs w s d g =>
      agreeAll finality ps qs && agreeOption finality v w && agree finality r s && c = d
        && (!finality || f = g)
  | .enumeration a f, .enumeration b g => a = b && (!finality || f = g)
  | .typeLiteral a f, .typeLiteral b g => agree finality a b && (!finality || f = g)
  | _, _ => false

/-- Types in equal number agree one by one. -/
def agreeAll (finality : Bool) : List Ty → List Ty → Bool
  | [], [] => true
  | a :: as, b :: bs => agree finality a b && agreeAll finality as bs
  | _, _ => false

/-- Both types are missing, or both are there and agree. -/
def agreeOption (finality : Bool) : Option Ty → Option Ty → Bool
  | none, none => true
  | some a, some b => agree finality a b
  | _, _ => false

end

/-- The types mean the same; finality is ignored. -/
def equals (a b : Ty) : Bool :=
  agree false a b

/-- The types are the same in every respect. -/
def same (a b : Ty) : Bool :=
  agree true a b

/-! ## Text -/

mutual

/-- The type in words, with the names of enumerations spelled by `spell`. -/
def renderWith (spell : String → String) : Ty → String
  | .basic type _ => type.word
  | .null _ => "null"
  | .array element _ _ => element.renderWith spell ++ "[]"
  | .function params variadic ret _ _ =>
      "function(" ++ ", ".intercalate (renderAll spell params ++ renderVariadic spell variadic)
        ++ ") -> " ++ ret.renderWith spell
  | .enumeration name _ => spell name
  | .typeLiteral inner _ => "type " ++ inner.renderWith spell

/-- Several types in words. -/
def renderAll (spell : String → String) : List Ty → List String
  | [] => []
  | type :: rest => type.renderWith spell :: renderAll spell rest

/-- The type of further arguments, if any, in words. -/
def renderVariadic (spell : String → String) : Option Ty → List String
  | none => []
  | some type => [type.renderWith spell ++ "..."]

end

/-- The type in words, as messages show it. -/
def render (type : Ty) : String :=
  type.renderWith id

/-- The type in words, with the names of enumerations left out. -/
def renderUnnamed (type : Ty) : String :=
  type.renderWith fun _ => ""

/-! ## Written types -/

mutual

/-- The meaning of a written type.  It is final at every level. -/
def ofExpr : TypeExpr → Ty
  | .basic type => .basic type true
  | .array element => .array (ofExpr element) none true
  | .function params ret => .function (ofExprs params) none (ofExpr ret) none true
  | .named name => .enumeration name true

/-- The meanings of several written types. -/
def ofExprs : List TypeExpr → List Ty
  | [] => []
  | type :: rest => ofExpr type :: ofExprs rest

end

mutual

/-- How the type is written.  The null type, functions with any number of
arguments and types of types cannot be written. -/
def toExpr? : Ty → Option TypeExpr
  | .basic type _ => some (.basic type)
  | .null _ => none
  | .array element _ _ => element.toExpr?.map .array
  | .function params none ret _ _ => do
      let params ← toExprs? params
      let ret ← ret.toExpr?
      return .function params ret
  | .function _ (some _) _ _ _ => none
  | .enumeration name _ => some (.named name)
  | .typeLiteral _ _ => none

/-- How several types are written. -/
def toExprs? : List Ty → Option (List TypeExpr)
  | [] => some []
  | type :: rest => do
      let first ← type.toExpr?
      let others ← toExprs? rest
      return first :: others

end

end Ty

end Formulae
