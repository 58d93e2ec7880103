import Formulae.Ty.Relation

/-!
# Signatures

What a function takes and gives: the types of its parameters, the type of any
further arguments, and the type of the result, which may depend on the types of
the arguments.
-/

namespace Formulae

namespace Resolver

/-- The result type for these argument types; `none` if they are refused. -/
def resolve? (resolver : Resolver) (args : List Ty) : Option Ty :=
  match resolver with
  | .widest => Ty.widestNumeric? args
  | .arrayOf => some (Ty.arrayOf ((Ty.common? args).getD Ty.mixed) (some args.length))
  | .widestOrElement =>
      match args with
      | [.array element _ _] =>
          if element.isNumeric || element.isMixed then some (element.withFinal true)
          else Ty.widestNumeric? args
      | _ => Ty.widestNumeric? args

end Resolver

/-- What a function takes and gives. -/
structure Signature where
  params : List Ty
  variadic : Option Ty := none
  ret : Ty
  resolver : Option Resolver := none
deriving Repr, Inhabited

namespace Signature

/-- The final type of the functions with this signature. -/
def type (s : Signature) : Ty :=
  .function s.params s.variadic s.ret s.resolver true

/-- So many arguments may be given. -/
def acceptsArity (s : Signature) (count : Nat) : Bool :=
  if s.variadic.isSome then s.params.length ≤ count else count = s.params.length

/-- The type that the argument at a position has to fit. -/
def param? (s : Signature) (position : Nat) : Option Ty :=
  s.params[position]?.or s.variadic

/-- The type of a call with arguments of these types. -/
def result? (s : Signature) (args : List Ty) : Option Ty :=
  match s.resolver with
  | some resolver => resolver.resolve? args
  | none => some (s.ret.withFinal true)

end Signature

/-- The signature of a function type. -/
def Ty.signature? : Ty → Option Signature
  | .function params variadic ret resolver _ => some ⟨params, variadic, ret, resolver⟩
  | _ => none

/-!
## Built-in functions

The functions that every formula can call, with their names and signatures.
-/

/-- The built-in functions. -/
inductive Builtin
  | min | max | pow | sqrt | floor | ceil | round | sin | cos | tan | abs | asVector | sizeof
deriving DecidableEq, Repr

namespace Builtin

/-- Every built-in function. -/
def all : List Builtin :=
  [.min, .max, .pow, .sqrt, .floor, .ceil, .round, .sin, .cos, .tan, .abs, .asVector, .sizeof]

/-- The name under which a function is called. -/
def name : Builtin → String
  | .min => "min"
  | .max => "max"
  | .pow => "pow"
  | .sqrt => "sqrt"
  | .floor => "floor"
  | .ceil => "ceil"
  | .round => "round"
  | .sin => "sin"
  | .cos => "cos"
  | .tan => "tan"
  | .abs => "abs"
  | .asVector => "asVector"
  | .sizeof => "sizeof"

/-- The function with a name. -/
def ofName? (name : String) : Option Builtin :=
  all.find? fun builtin => builtin.name == name

theorem ofName?_name (builtin : Builtin) : ofName? builtin.name = some builtin := by
  cases builtin <;> rfl

/-- What a function takes and gives. -/
def signature : Builtin → Signature
  | .min | .max =>
      { params := [], variadic := some Ty.mixed, ret := Ty.mixed,
        resolver := some .widestOrElement }
  | .abs => { params := [Ty.mixed], ret := Ty.mixed, resolver := some .widest }
  | .asVector =>
      { params := [], variadic := some Ty.mixed, ret := Ty.arrayOf Ty.mixed none,
        resolver := some .arrayOf }
  | .sizeof => { params := [Ty.arrayOf Ty.mixed none], ret := Ty.int }
  | .pow => { params := [Ty.float, Ty.float], ret := Ty.float }
  | .sqrt | .floor | .ceil | .round | .sin | .cos | .tan =>
      { params := [Ty.float], ret := Ty.float }

end Builtin

end Formulae
