import Formulae.Ty.Basic

/-!
# Relations between types

When a place of one type accepts values of another (`Ty.accepts`), when a value
can be cast (`Ty.castableTo`), and when storing it changes how it is
represented (`Ty.convertsFrom`).
-/

namespace Formulae.Ty

/-- Two recorded lengths do not contradict each other. -/
def lengthsAgree : Option Nat → Option Nat → Bool
  | some m, some n => m = n
  | _, _ => true

/-- `accepts` for types of which at least one is neither an array nor a
function: any value fits a mixed place, an integer fits a place for floats, and
else the types have to be equal.  No place takes a void value. -/
def acceptsPlain (target source : Ty) : Bool :=
  match target, source with
  | _, .basic .void _ | .basic .void _, _ => false
  | .basic .mixed _, _ => true
  | .basic .float _, .basic .int _ => true
  | target, source => target.equals source

mutual

/-- A value of the one type fits a place of the other: of the second type a
place of the first when `forward`, and the other way round when not.  The
direction turns around at the parameters of functions. -/
def fits (forward : Bool) : Ty → Ty → Bool
  | .array a m _, .array b n _ => lengthsAgree m n && fits forward a b
  | .function ps _ r _ _, .function qs _ s _ _ => fitsAll (!forward) ps qs && fits forward r s
  | a, b => if forward then a.acceptsPlain b else b.acceptsPlain a

/-- Types in equal number fit one by one. -/
def fitsAll (forward : Bool) : List Ty → List Ty → Bool
  | [], [] => true
  | a :: as, b :: bs => fits forward a b && fitsAll forward as bs
  | _, _ => false

end

/-- A value of type `source` may be stored in a place of type `target`. -/
def accepts (target source : Ty) : Bool :=
  fits true target source

/-- `castableTo` for types of which at least one is no array. -/
def castablePlain (source target : Ty) : Bool :=
  match source, target with
  | .basic .void _, _ | _, .basic .void _ => false
  | _, .basic .boolean _ | _, .basic .string _ | _, .basic .mixed _ => true
  | .basic .mixed _, _ => true
  | .basic .int _, .basic .float _ => true
  | .basic .float _, .basic .int _ | .basic .boolean _, .basic .int _ => true
  | .basic .string _, .basic .date _ | .basic .string _, .basic .duration _ => true
  | source, target => target.accepts source

/-- There is a cast from `source` to `target`. -/
def castableTo : Ty → Ty → Bool
  | .array a m _, .array b n _ => lengthsAgree m n && a.castableTo b
  | source, target => source.castablePlain target

/-- Storing a value of type `source` in a place of type `target` changes its
representation: an integer becomes a float. -/
def convertsFrom : Ty → Ty → Bool
  | .basic .float _, .basic .int _ => true
  | .array a _ _, .array b _ _ => a.convertsFrom b
  | _, _ => false

/-! ## Types of several values -/

/-- Mixed if some type is mixed, else float if some type is float, else int.
There must be at least one type, and no other. -/
def widestNumeric? (types : List Ty) : Option Ty :=
  if types.isEmpty || !types.all fun type => type.isNumeric || type.isMixed then none
  else if types.any isMixed then some mixed
  else if types.any isFloat then some float
  else some int

/-- The one type that all have, widening numbers; `none` if there is no such
type. -/
def common? (types : List Ty) : Option Ty :=
  match types with
  | [] => none
  | first :: _ =>
      if types.all (equals · first) then some (first.withFinal true)
      else if types.all isNumeric then widestNumeric? types
      else none

end Formulae.Ty
