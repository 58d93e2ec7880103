import Formulae.Number.Binary

/-!
# The fewest digits of a double

Among all decimal numbers that lie closer to a double than to its neighbours
the text of the double is one with the fewest digits, and of those the nearest.
The search works on decimal grids: for one digit, then two, and so on, it tests
the two grid points next to the value in exact arithmetic.
-/

namespace Formulae.Number

/-- The number `digits * 10 ^ exponent`. -/
structure Decimal where
  digits : Nat
  exponent : Int
deriving DecidableEq, Repr, Inhabited

namespace Decimal

/-- The positional text: no exponent, and no point when there is no fraction. -/
def render (d : Decimal) : String :=
  let text := (Nat.toDigits 10 d.digits)
  if 0 ≤ d.exponent then
    String.ofList (text ++ if d.digits = 0 then [] else List.replicate d.exponent.toNat '0')
  else
    let places := (-d.exponent).toNat
    let padded := List.replicate (places + 1 - text.length) '0' ++ text
    let whole := padded.take (padded.length - places)
    String.ofList (whole ++ '.' :: padded.drop (padded.length - places))

/-- The same number with no zero at the end of its digits.  The bound on the
number of steps is the number of digits. -/
def strip (d : Decimal) : Decimal :=
  let rec go : Nat → Nat → Int → Decimal
    | 0, digits, exponent => ⟨digits, exponent⟩
    | steps + 1, digits, exponent =>
        if digits ≠ 0 ∧ digits % 10 = 0 then go steps (digits / 10) (exponent + 1)
        else ⟨digits, exponent⟩
  go (Nat.toDigits 10 d.digits).length d.digits d.exponent

end Decimal

namespace Shortest

/-- The numbers that round to one double, in units of `2 ^ scale`; the two ends
belong to them when `closed`. -/
structure Interval where
  low : Nat
  value : Nat
  high : Nat
  scale : Int
  closed : Bool

/-- The interval of a positive double.  Below a power of two the neighbours
are twice as dense. -/
def interval (significand : Nat) (exponent : Int) : Interval where
  low := 4 * significand -
    (if significand = Binary.hiddenBit ∧ Binary.minExponent < exponent then 1 else 2)
  value := 4 * significand
  high := 4 * significand + 2
  scale := exponent - 2
  closed := significand % 2 = 0

/-- `n * 2 ^ scale` and `10 ^ grid`, multiplied by one factor that makes both
natural numbers. -/
def onGrid (n : Nat) (scale grid : Int) : Nat × Nat :=
  (n <<< scale.toNat * Nat.pow 10 (-grid).toNat, Nat.pow 10 grid.toNat <<< (-scale).toNat)

/-- The grid point `digits * 10 ^ grid` lies in the interval. -/
def contains (range : Interval) (digits : Nat) (grid : Int) : Bool :=
  let (low, unit) := onGrid range.low range.scale grid
  let (high, _) := onGrid range.high range.scale grid
  let point := digits * unit
  if range.closed then low ≤ point && point ≤ high else low < point && point < high

/-- The better of the two grid points next to the value, if one lies in the
interval.  Of two the nearer is better, and the upper one at a tie. -/
def candidate (range : Interval) (grid : Int) : Option Nat :=
  let (value, unit) := onGrid range.value range.scale grid
  let below := value / unit
  let lowerFits := contains range below grid
  let upperFits := contains range (below + 1) grid
  if lowerFits && upperFits then
    some (if 2 * (value - below * unit) < unit then below else below + 1)
  else if lowerFits then some below
  else if upperFits then some (below + 1)
  else none

/-- Decimal digits before the point of the greatest double are at most this
many, and so are the zeros after the point of the least one. -/
def decimalRange : Nat := 400

/-- The exponent `k` with the value in `10 ^ (k - 1)` up to `10 ^ k`. -/
def magnitude (range : Interval) : Int :=
  let (value, unit) := onGrid range.value range.scale (-decimalRange)
  (Nat.toDigits 10 (value / unit)).length - decimalRange

/-- Try grids of ever more digits. -/
def search (range : Interval) (top : Int) : Nat → Nat → Decimal
  | 0, count => ⟨0, top - count⟩
  | attempts + 1, count =>
      let grid := top - count
      match candidate range grid with
      | some digits => ⟨digits, grid⟩
      | none => search range top attempts (count + 1)

/-- Seventeen digits always suffice. -/
def maxDigits : Nat := 17

/-- The shortest decimal for a positive double. -/
def digits (significand : Nat) (exponent : Int) : Decimal :=
  let range := interval significand exponent
  (search range (magnitude range) maxDigits 1).strip

end Shortest

/-- The text of a double: its fewest digits in positional form. -/
def renderFloat (x : Float) : String :=
  match Binary.ofFloat x with
  | .nan => "NaN"
  | .infinite negative => if negative then "-inf" else "inf"
  | .finite negative significand exponent =>
      let text := if significand = 0 then "0" else (Shortest.digits significand exponent).render
      if negative then "-" ++ text else text

end Formulae.Number
