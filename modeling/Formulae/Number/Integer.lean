/-!
# Bounded integers

The integers of the language have 64 bits.  Each operation gives the exact
result or nothing: `checked_eq_some_iff` says that nothing is given only where
the result does not fit.
-/

namespace Formulae.Number

/-- The integer has 64 bits. -/
def Fits (n : Int) : Prop :=
  -0x8000000000000000 ≤ n ∧ n < 0x8000000000000000

instance (n : Int) : Decidable (Fits n) :=
  inferInstanceAs (Decidable (_ ∧ _))

/-- The bounded integer with this value, if there is one. -/
def checked (n : Int) : Option Int64 :=
  if Fits n then some (Int64.ofInt n) else none

/-- The sum, if it fits. -/
def add? (a b : Int64) : Option Int64 :=
  checked (a.toInt + b.toInt)

/-- The difference, if it fits. -/
def sub? (a b : Int64) : Option Int64 :=
  checked (a.toInt - b.toInt)

/-- The product, if it fits. -/
def mul? (a b : Int64) : Option Int64 :=
  checked (a.toInt * b.toInt)

/-- The negation, if it fits. -/
def neg? (a : Int64) : Option Int64 :=
  checked (-a.toInt)

/-- The absolute value, if it fits. -/
def abs? (a : Int64) : Option Int64 :=
  checked a.toInt.natAbs

/-- The remainder of division toward zero.  The quotient has to fit too. -/
def rem? (a b : Int64) : Option Int64 :=
  (checked (a.toInt.tdiv b.toInt)).bind fun _ => checked (a.toInt.tmod b.toInt)

/-- The double nearest to the integer.  Of two that are equally near it is the even one. -/
def toFloat (a : Int64) : Float :=
  let magnitude := a.toInt.natAbs.toUInt64.toFloat
  if a < 0 then -magnitude else magnitude

/-! ## Exactness -/

theorem fits_toInt (a : Int64) : Fits a.toInt :=
  ⟨Int64.le_toInt a, Int64.toInt_lt a⟩

theorem toInt_ofInt_of_fits {n : Int} (h : Fits n) : (Int64.ofInt n).toInt = n :=
  Int64.toInt_ofInt_of_le h.1 h.2

theorem checked_eq_some_iff {n : Int} {a : Int64} : checked n = some a ↔ a.toInt = n := by
  unfold checked
  split
  · next fits =>
      constructor
      · intro equal
        rw [← Option.some.inj equal]
        exact toInt_ofInt_of_fits fits
      · intro equal
        rw [← equal, Int64.ofInt_toInt]
  · next overflow =>
      constructor
      · intro equal
        cases equal
      · intro equal
        exact absurd (equal ▸ fits_toInt a) overflow

theorem checked_eq_none_iff {n : Int} : checked n = none ↔ ¬Fits n := by
  unfold checked
  split <;> simp_all

@[simp]
theorem checked_toInt (a : Int64) : checked a.toInt = some a :=
  checked_eq_some_iff.mpr rfl

/-!
## Reading numbers

Integers are a sign and digits.  Decimal numbers may have a point and an
exponent; the names of the values that are no numbers are read in any case.
-/

/-- The value of a run of decimal digits. -/
def digitsValue (digits : List Char) : Nat :=
  digits.foldl (fun value digit => value * 10 + (digit.toNat - '0'.toNat)) 0

/-- The value of a non-empty text of digits only. -/
def natural? (text : List Char) : Option Nat :=
  if text ≠ [] ∧ text.all Char.isDigit then some (digitsValue text) else none

/-- A text apart from its sign, and whether the sign was a minus. -/
def splitSign : List Char → Bool × List Char
  | '-' :: rest => (true, rest)
  | '+' :: rest => (false, rest)
  | text => (false, text)

/-- An integer of 64 bits with an optional sign. -/
def integer? (text : List Char) : Option Int64 :=
  let (negative, digits) := splitSign text
  (natural? digits).bind fun n => checked (if negative then -(n : Int) else n)

/-- No finite double other than zero has an exponent beyond this one, so
exponents are cut to it once the digits are counted. -/
def exponentLimit : Nat := 400

/-- The double nearest to `digits * 10 ^ exponent`. -/
def nearest (digits : Nat) (exponent : Int) : Float :=
  let magnitude : Int := (Nat.toDigits 10 digits).length + exponent
  if digits = 0 ∨ magnitude < -(exponentLimit : Int) then 0.0
  else if (exponentLimit : Int) < magnitude then 1.0 / 0.0
  else if exponent < 0 then Float.ofScientific digits true exponent.natAbs
  else Float.ofScientific digits false exponent.natAbs

/-- The exponent part of a number; an absent one is zero. -/
def exponent? : List Char → Option Int
  | [] => some 0
  | mark :: rest =>
      if mark = 'e' ∨ mark = 'E' then
        let (negative, digits) := splitSign rest
        (natural? digits).map fun n => if negative then -(n : Int) else n
      else none

/-- A decimal number without its sign: digits with an optional point, at least
one digit in all, and an optional exponent. -/
def magnitude? (text : List Char) : Option Float :=
  let whole := text.takeWhile Char.isDigit
  let afterWhole := text.drop whole.length
  let (fraction, rest) :=
    match afterWhole with
    | '.' :: more => (more.takeWhile Char.isDigit, more.dropWhile Char.isDigit)
    | other => ([], other)
  if whole = [] ∧ fraction = [] then none
  else
    (exponent? rest).map fun exponent =>
      nearest (digitsValue (whole ++ fraction)) (exponent - fraction.length)

/-- A double with an optional sign. -/
def float? (text : List Char) : Option Float :=
  let (negative, body) := splitSign text
  let value :=
    match String.ofList (body.map Char.toLower) with
    | "inf" | "infinity" => some (1.0 / 0.0)
    | "nan" => some (0.0 / 0.0)
    | _ => magnitude? body
  value.map fun x => if negative then -x else x

end Formulae.Number
