import Formulae.Calendar.Date
import Formulae.Text.CodeRange

/-!
# Dates in text

A date is read in three ways, tried in turn: the strict form of internet
timestamps, a loose form with blanks before numbers and an offset that may lack
its colon, and a loose day alone, which means midnight in universal time.  Dates
are written in the strict form.
-/

namespace Formulae.Date

open Number Text

/-! ## Small readers

Each takes a text and gives what it read with the text after it. -/

/-- One given character. -/
def char? (c : Char) : List Char → Option (List Char)
  | first :: rest => if first = c then some rest else none
  | [] => none

/-- One of several characters. -/
def oneOf? (allowed : List Char) : List Char → Option (List Char)
  | first :: rest => if first ∈ allowed then some rest else none
  | [] => none

/-- At least `least` digits, and `most` at most. -/
def digits? (least most : Nat) (text : List Char) : Option (Nat × List Char) :=
  let digits := (text.takeWhile Char.isDigit).take most
  if digits.length < least then none
  else some (digitsValue digits, text.drop digits.length)

/-- The text after its leading blanks. -/
def skipBlanks (text : List Char) : List Char :=
  text.dropWhile isBlank

/-- A number after blanks, with at most two digits. -/
def looseNumber? (text : List Char) : Option (Nat × List Char) :=
  digits? 1 2 (skipBlanks text)

/-- A year after blanks: four digits at most, or a sign and any number of
digits. -/
def looseYear? (text : List Char) : Option (Int × List Char) :=
  match skipBlanks text with
  | '-' :: rest => (digits? 1 rest.length rest).map fun (year, after) => (-(year : Int), after)
  | '+' :: rest => (digits? 1 rest.length rest).map fun (year, after) => ((year : Int), after)
  | unsigned => (digits? 1 4 unsigned).map fun (year, after) => ((year : Int), after)

/-- Minus signs that an offset may have. -/
def minusSigns : List Char :=
  ['-', '\u2212']

/-- An offset in seconds: a sign, two digits of hours, what `separator` passes
over, and two digits of minutes. -/
def offset? (separator : List Char → Option (List Char)) (text : List Char) :
    Option (Int × List Char) :=
  match text with
  | [] => none
  | sign :: rest =>
      if sign = '+' ∨ sign ∈ minusSigns then do
        let (hours, afterHours) ← digits? 2 2 rest
        let (minutes, after) ← digits? 2 2 (← separator afterHours)
        if 60 ≤ minutes then none
        else
          let seconds : Int := hours * 3600 + minutes * 60
          return (if sign = '+' then seconds else -seconds, after)
      else none

/-! ## Forms of a date -/

/-- What was read of a day and a time of day. -/
structure Fields where
  day : Day
  hour : Nat
  minute : Nat
  second : Nat
  nanos : Nat
  offset : Int

/-- The date with these fields, if all of them are in their ranges.  The second
60 is a leap second. -/
def ofFields? (f : Fields) : Option Date :=
  if f.day.isValid ∧ f.hour < 24 ∧ f.minute < 60 ∧ f.second ≤ 60
      ∧ -daySeconds < f.offset ∧ f.offset < daySeconds then
    let second := min f.second 59
    let nanos := if f.second = 60 then f.nanos + secondNanos else f.nanos
    ofLocal? f.day (f.hour * 3600 + f.minute * 60 + second : Nat) nanos f.offset
  else none

/-- A fraction of a second in nanoseconds, after its point.  Digits beyond the
ninth are passed over. -/
def fraction? (text : List Char) : Option (Nat × List Char) := do
  let (value, _) ← digits? 1 9 text
  let count := (text.takeWhile Char.isDigit).length
  return (value * Nat.pow 10 (9 - count), text.drop count)

/-- The fraction, if there is a point. -/
def optionalFraction? (text : List Char) : Option (Nat × List Char) :=
  match text with
  | '.' :: rest => fraction? rest
  | _ => some (0, text)

/-- The offset of the strict form; `Z` is none. -/
def strictOffset? (text : List Char) : Option (Int × List Char) :=
  match text with
  | 'Z' :: rest | 'z' :: rest => some (0, rest)
  | _ => offset? (char? ':') text

/-- The strict form, such as `2020-01-15T10:00:00.5+01:00`. -/
def strict? (text : List Char) : Option Date := do
  let (year, text) ← digits? 4 4 text
  let (month, text) ← digits? 2 2 (← char? '-' text)
  let (day, text) ← digits? 2 2 (← char? '-' text)
  let (hour, text) ← digits? 2 2 (← oneOf? ['T', 't', ' '] text)
  let (minute, text) ← digits? 2 2 (← char? ':' text)
  let (second, text) ← digits? 2 2 (← char? ':' text)
  let (nanos, text) ← optionalFraction? text
  let (offset, text) ← strictOffset? text
  if text = [] then ofFields? ⟨⟨year, month, day⟩, hour, minute, second, nanos, offset⟩ else none

/-- Colons and blanks, any number of them. -/
def looseSeparator (text : List Char) : Option (List Char) :=
  some (text.dropWhile fun c => c = ':' || isBlank c)

/-- A day in the loose form, such as `2020-1-5`. -/
def looseDay? (text : List Char) : Option (Day × List Char) := do
  let (year, text) ← looseYear? text
  let (month, text) ← looseNumber? (← char? '-' text)
  let (day, text) ← looseNumber? (← char? '-' text)
  return (⟨year, month, day⟩, text)

/-- A day and a time in the loose form, such as `2020-1-5T10:00:00 +0100`. -/
def looseTime? (text : List Char) : Option Date := do
  let (day, text) ← looseDay? text
  let (hour, text) ← looseNumber? (← char? 'T' text)
  let (minute, text) ← looseNumber? (← char? ':' text)
  let (second, text) ← looseNumber? (← char? ':' text)
  let (offset, text) ← offset? looseSeparator (skipBlanks text)
  if text = [] then ofFields? ⟨day, hour, minute, second, 0, offset⟩ else none

/-- A day alone, at midnight in universal time. -/
def midnight? (text : List Char) : Option Date := do
  let (day, text) ← looseDay? text
  if text = [] then ofFields? ⟨day, 0, 0, 0, 0, 0⟩ else none

/-- The date that a text stands for. -/
def parse? (text : List Char) : Option Date :=
  (strict? text).or ((looseTime? text).or (midnight? text))

/-! ## Writing -/

/-- A number with at least so many digits. -/
def padded (width n : Nat) : String :=
  let digits := Nat.toDigits 10 n
  String.ofList (List.replicate (width - digits.length) '0' ++ digits)

/-- A year has four digits at least, and a sign unless it has just four. -/
def renderYear (year : Int) : String :=
  if 0 ≤ year ∧ year ≤ 9999 then padded 4 year.toNat
  else (if year < 0 then "-" else "+") ++ padded 4 year.natAbs

/-- The fraction of a second in three, six or nine digits, whichever is enough;
nothing when it is zero. -/
def renderFraction (nanos : Nat) : String :=
  if nanos = 0 then ""
  else if nanos % 1000000 = 0 then "." ++ padded 3 (nanos / 1000000)
  else if nanos % 1000 = 0 then "." ++ padded 6 (nanos / 1000)
  else "." ++ padded 9 nanos

/-- A sign, hours and minutes. -/
def renderOffset (offset : Int) : String :=
  let minutes := offset.natAbs / 60
  (if offset < 0 then "-" else "+") ++ padded 2 (minutes / 60) ++ ":" ++ padded 2 (minutes % 60)

/-- The text of a date. -/
def render (d : Date) : String :=
  let day := d.localDay
  let time := (d.localSeconds % daySeconds).toNat
  let second := if d.isLeapSecond then time % 60 + 1 else time % 60
  renderYear day.year ++ "-" ++ padded 2 day.month ++ "-" ++ padded 2 day.day ++ "T"
    ++ padded 2 (time / 3600) ++ ":" ++ padded 2 (time / 60 % 60) ++ ":" ++ padded 2 second
    ++ renderFraction (d.nanos % secondNanos) ++ renderOffset d.offset

end Formulae.Date
