import Formulae.Number.Integer

/-!
# Floating-point numbers as exact values

A finite double is a natural number times a power of two, with a sign.  This
view is what text, truncation and remainders are computed from, in exact
integer arithmetic.
-/

namespace Formulae.Number

/-- A double taken apart.  A finite one is `significand * 2 ^ exponent`, up to
its sign. -/
inductive Binary
  | nan
  | infinite (negative : Bool)
  | finite (negative : Bool) (significand : Nat) (exponent : Int)
deriving DecidableEq, Repr

namespace Binary

/-- The exponent of the smallest positive doubles. -/
def minExponent : Int := -1074

/-- The significand of every normal double has this many bits. -/
def precision : Nat := 53

/-- The first bit of the significand of a normal double, which is not stored. -/
def hiddenBit : Nat := 1 <<< 52

/-- The weight of the sign among the bits of a double. -/
def signBit : Nat := 1 <<< 63

/-- The stored exponent of the values that are no finite numbers. -/
def exponentMask : Nat := 0x7ff

/-- Take a double apart. -/
def ofFloat (x : Float) : Binary :=
  let bits := x.toBits.toNat
  let negative := bits / signBit = 1
  let exponent := bits / hiddenBit % (exponentMask + 1)
  let fraction := bits % hiddenBit
  if exponent = exponentMask then
    if fraction = 0 then .infinite negative else .nan
  else if exponent = 0 then .finite negative fraction minExponent
  else .finite negative (hiddenBit + fraction) (minExponent + (exponent - 1 : Nat))

/-- The double with these parts.  The significand of a finite number has to be
representable at its exponent after a shift; lower bits are dropped and larger
numbers become infinite. -/
def toFloat : Binary → Float
  | .nan => Float.ofBits 0x7ff8000000000000
  | .infinite negative =>
      Float.ofBits
        (UInt64.ofNat ((if negative then signBit else 0) + exponentMask * hiddenBit))
  | .finite negative significand exponent =>
      let sign := if negative then signBit else 0
      -- The exponent that leaves 53 bits, or the least one for small numbers.
      let target := max minExponent (exponent + significand.log2 + 1 - precision)
      let shifted :=
        if target ≤ exponent then significand <<< (exponent - target).toNat
        else significand >>> (target - exponent).toNat
      let bits :=
        if shifted < hiddenBit then shifted
        else (target - minExponent + 1).toNat * hiddenBit + (shifted - hiddenBit)
      Float.ofBits (UInt64.ofNat (sign + min bits (exponentMask * hiddenBit)))

/-- The sign bit; a number that is none has none. -/
def isNegative : Binary → Bool
  | .nan => false
  | .infinite negative => negative
  | .finite negative _ _ => negative

/-- The integer part of a finite number, toward zero. -/
def truncate? : Binary → Option Int
  | .finite negative significand exponent =>
      let magnitude : Nat :=
        if 0 ≤ exponent then significand <<< exponent.toNat
        else significand >>> (-exponent).toNat
      some (if negative then -(magnitude : Int) else magnitude)
  | _ => none

/-- The magnitude of a finite number without a fractional part. -/
def integer? : Binary → Option Nat
  | .finite _ significand exponent =>
      if 0 ≤ exponent then some (significand <<< exponent.toNat)
      else
        let whole := significand >>> (-exponent).toNat
        if whole <<< (-exponent).toNat = significand then some whole else none
  | _ => none

/-- The remainder of division toward zero, exactly.  It has the sign of the
dividend; there is none by zero or of an infinite number. -/
def remainder : Binary → Binary → Binary
  | .finite negative significand exponent, .finite _ divisor divisorExponent =>
      if divisor = 0 then .nan
      else
        let common := min exponent divisorExponent
        let scaled := significand <<< (exponent - common).toNat
        let scaledDivisor := divisor <<< (divisorExponent - common).toNat
        .finite negative (scaled % scaledDivisor) common
  | .finite negative significand exponent, .infinite _ =>
      .finite negative significand exponent
  | _, _ => .nan

end Binary

/-- The remainder of two doubles. -/
def remainder (x y : Float) : Float :=
  ((Binary.ofFloat x).remainder (Binary.ofFloat y)).toFloat

/-- The integer part of a double, if it is finite and fits in 64 bits. -/
def truncate? (x : Float) : Option Int64 :=
  (Binary.ofFloat x).truncate?.bind checked

end Formulae.Number
