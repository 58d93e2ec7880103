import Formulae.Number.Integer

/-!
# Durations

A duration is a number of months and a number of seconds.  The two are kept
apart because a month has no fixed length.  Durations are written as in
`P1Y2M3DT4H5M6S`; every component may have a sign of its own, since months and
seconds may differ in sign.
-/

namespace Formulae

/-- Months and seconds, each of either sign. -/
structure Duration where
  months : Int64
  seconds : Int64
deriving DecidableEq, Repr, Inhabited

namespace Duration

open Number

/-- No time at all. -/
def zero : Duration :=
  ⟨0, 0⟩

/-- The duration is no time at all. -/
def isZero (d : Duration) : Bool :=
  d = zero

/-! ## Arithmetic -/

/-- The sum, if both components fit. -/
def add? (a b : Duration) : Option Duration := do
  return ⟨← Number.add? a.months b.months, ← Number.add? a.seconds b.seconds⟩

/-- The opposite, if both components fit. -/
def neg? (a : Duration) : Option Duration := do
  return ⟨← Number.neg? a.months, ← Number.neg? a.seconds⟩

/-- The difference, as the sum with the opposite. -/
def sub? (a b : Duration) : Option Duration := do
  a.add? (← b.neg?)

/-- A multiple, if both components fit. -/
def mul? (a : Duration) (factor : Int64) : Option Duration := do
  return ⟨← Number.mul? a.months factor, ← Number.mul? a.seconds factor⟩

/-- Durations are ordered by months, and by seconds where these are equal. -/
def compare (a b : Duration) : Ordering :=
  (Ord.compare a.months.toInt b.months.toInt).then
    (Ord.compare a.seconds.toInt b.seconds.toInt)

/-! ## Units -/

/-- The units of a component, each in the part it belongs to. -/
inductive DurationUnit
  | years | months | weeks | days | hours | minutes | seconds
deriving DecidableEq, Repr

namespace DurationUnit

/-- The letter after the number of a component. -/
def letter : DurationUnit → Char
  | .years => 'Y'
  | .months => 'M'
  | .weeks => 'W'
  | .days => 'D'
  | .hours => 'H'
  | .minutes => 'M'
  | .seconds => 'S'

/-- The units before the letter `T`, in order. -/
def dateUnits : List DurationUnit :=
  [.years, .months, .weeks, .days]

/-- The units after the letter `T`, in order. -/
def timeUnits : List DurationUnit :=
  [.hours, .minutes, .seconds]

/-- A number of units as a duration, if it fits. -/
def scale? (unit : DurationUnit) (count : Int64) : Option Duration :=
  let monthsOf (n : Int64) := (Number.mul? count n).map fun months => ⟨months, 0⟩
  let secondsOf (n : Int64) := (Number.mul? count n).map fun seconds => ⟨0, seconds⟩
  match unit with
  | .years => monthsOf 12
  | .months => some ⟨count, 0⟩
  | .weeks => secondsOf 604800
  | .days => secondsOf 86400
  | .hours => secondsOf 3600
  | .minutes => secondsOf 60
  | .seconds => some ⟨0, count⟩

end DurationUnit

/-! ## Reading -/

/-- A component: a number, its letter and the text after them. -/
def component? (text : List Char) : Option (Int64 × Char × List Char) :=
  let (negative, unsigned) :=
    match text with
    | '-' :: rest => (true, rest)
    | _ => (false, text)
  let digits := unsigned.takeWhile Char.isDigit
  match unsigned.dropWhile Char.isDigit with
  | [] => none
  | letter :: rest => do
      let magnitude ← natural? digits
      let value ← checked (if negative then -(magnitude : Int) else magnitude)
      return (value, letter, rest)

/-- Components with their units in the given order, up to the end of the
text.  Units may be left out. -/
def components? : List DurationUnit → List Char → Option (List (Int64 × DurationUnit))
  | [], text => if text = [] then some [] else none
  | unit :: later, text =>
      match component? text with
      | some (value, letter, rest) =>
          if letter = unit.letter then (components? later rest).map ((value, unit) :: ·)
          else components? later text
      | none => components? later text

/-- The sum of components, added up from the left. -/
def sum? (components : List (Int64 × DurationUnit)) : Option Duration :=
  components.foldlM (fun total (value, unit) => do total.add? (← unit.scale? value)) zero

/-- The components after the letter `P`.  At least one is needed, and at least
one after a `T`. -/
def body? (text : List Char) : Option Duration :=
  let datePart := text.takeWhile (· ≠ 'T')
  match text.dropWhile (· ≠ 'T') with
  | [] => do
      let components ← components? DurationUnit.dateUnits datePart
      if components.isEmpty then none else sum? components
  | _ :: timePart => do
      let components ← components? DurationUnit.dateUnits datePart
      let times ← components? DurationUnit.timeUnits timePart
      if times.isEmpty then none else sum? (components ++ times)

/-- The duration that a text stands for: `P` and components, with a sign before
it for all of them. -/
def parse? (text : List Char) : Option Duration :=
  match text with
  | '-' :: 'P' :: rest => (body? rest).bind neg?
  | 'P' :: rest => body? rest
  | _ => none

/-! ## Writing -/

/-- A component, if it is not zero. -/
def renderComponent (value : Int) (letter : Char) : String :=
  if value = 0 then "" else toString value ++ letter.toString

/-- The components of a duration that is not zero, after the letter `P`. -/
def renderComponents (months seconds : Int) : String :=
  let rest := seconds.tmod 86400
  let time :=
    renderComponent (rest.tdiv 3600) 'H' ++ renderComponent ((rest.tmod 3600).tdiv 60) 'M'
      ++ renderComponent (rest.tmod 60) 'S'
  renderComponent (months.tdiv 12) 'Y' ++ renderComponent (months.tmod 12) 'M'
    ++ renderComponent (seconds.tdiv 86400) 'D'
    ++ (if time = "" then "" else "T" ++ time)

/-- The text of a duration.  A duration without a positive part has one sign for
the whole of it, any other one a sign at each component that needs one. -/
def render (d : Duration) : String :=
  if d.isZero then "PT0S"
  else if d.months ≤ 0 ∧ d.seconds ≤ 0 then
    "-P" ++ renderComponents (-d.months.toInt) (-d.seconds.toInt)
  else
    "P" ++ renderComponents d.months.toInt d.seconds.toInt

end Duration

end Formulae
