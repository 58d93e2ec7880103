import Formulae.Value.Basic

/-!
# Order and equality of values

The comparisons of the language.  Integers and floats compare as numbers; all
other values are equal only to values of their own kind, and ordered only with
them.
-/

namespace Formulae.Value

/-- The order of two floats; there is none with a float that is no number. -/
def compareFloats (a b : Float) : Option Ordering :=
  if a < b then some .lt
  else if a == b then some .eq
  else if b < a then some .gt
  else none

/-- False comes before true. -/
def compareBools (a b : Bool) : Ordering :=
  compare a.toNat b.toNat

/-- The order of two values, for those that have one. -/
def compare? : Value → Value → Option Ordering
  | .int a, .int b => some (compare a.toInt b.toInt)
  | .int a, .float y => compareFloats (Number.toFloat a) y
  | .float x, .int b => compareFloats x (Number.toFloat b)
  | .float x, .float y => compareFloats x y
  | .string a, .string b => some (compare a b)
  | .bool a, .bool b => some (compareBools a b)
  | .date a, .date b => some (a.compare b)
  | .duration a, .duration b => some (a.compare b)
  | _, _ => none

/-- Equality of values that are no arrays. -/
def plainEquals (a b : Value) : Bool :=
  if a.isNumeric && b.isNumeric then a.compare? b = some .eq else a.same b

mutual

/-- The values are equal in the sense of `==`.  Arrays are equal when they are
equally long and their elements are equal. -/
def equals : Value → Value → Bool
  | .array as, .array bs => equalsAll as bs
  | a, b => plainEquals a b

/-- Values in equal number are equal one by one. -/
def equalsAll : List Value → List Value → Bool
  | [], [] => true
  | a :: as, b :: bs => a.equals b && equalsAll as bs
  | _, _ => false

end

end Formulae.Value
