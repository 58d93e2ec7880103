import Formulae.Calendar.Duration
import Formulae.Proofs.Token.Grammar
import Mathlib.Data.List.TakeWhile

/-!
# How durations are written

The form that the text of a duration has (`Duration.Written`), and what it stands for as sums
of integers without bounds.  Reading accepts the texts of this form in which nothing overflows
on the way, and no others, and gives the sums (`Duration.parse?_eq_some_iff`).
-/

namespace Formulae

namespace Duration

open Number

/-! ## Amounts -/

namespace DurationUnit

/-- The months that one unit has. -/
@[simp]
def monthsEach : DurationUnit → Int
  | .years => 12
  | .months => 1
  | .weeks | .days | .hours | .minutes | .seconds => 0

/-- The seconds that one unit has. -/
@[simp]
def secondsEach : DurationUnit → Int
  | .years | .months => 0
  | .weeks => 604800
  | .days => 86400
  | .hours => 3600
  | .minutes => 60
  | .seconds => 1

end DurationUnit

/-- A number of units, however large. -/
structure Amount where
  count : Int
  unit : DurationUnit

namespace Amount

/-- The months of an amount. -/
def months (a : Amount) : Int :=
  a.count * a.unit.monthsEach

/-- The seconds of an amount. -/
def seconds (a : Amount) : Int :=
  a.count * a.unit.secondsEach

/-- The months of several amounts. -/
def monthsIn (amounts : List Amount) : Int :=
  (amounts.map months).sum

/-- The seconds of several amounts. -/
def secondsIn (amounts : List Amount) : Int :=
  (amounts.map seconds).sum

@[simp]
theorem monthsIn_cons (a : Amount) (rest : List Amount) :
    monthsIn (a :: rest) = a.months + monthsIn rest := by
  simp [monthsIn]

@[simp]
theorem secondsIn_cons (a : Amount) (rest : List Amount) :
    secondsIn (a :: rest) = a.seconds + secondsIn rest := by
  simp [secondsIn]

/-- Nothing overflows when the amounts are added up from the left: neither an amount nor a sum
of the first ones. -/
structure Summable (amounts : List Amount) : Prop where
  counts : ∀ a ∈ amounts, Fits a.count
  products : ∀ a ∈ amounts, Fits a.months ∧ Fits a.seconds
  sums : ∀ n, Fits (monthsIn (amounts.take n)) ∧ Fits (secondsIn (amounts.take n))

end Amount

/-! ## Texts -/

/-- A component as it is written: a sign or none, digits, and the letter of a unit. -/
structure Component where
  negative : Bool
  digits : List Char
  unit : DurationUnit
  nonempty : digits ≠ []
  decimal : ∀ c ∈ digits, c.isDigit

namespace Component

/-- The number that is written. -/
def count (c : Component) : Int :=
  if c.negative then -(Lexer.decimalNumber c.digits : Int) else Lexer.decimalNumber c.digits

/-- What is written. -/
def amount (c : Component) : Amount :=
  ⟨c.count, c.unit⟩

/-- The letters of the component. -/
def chars (c : Component) : List Char :=
  (if c.negative then ['-'] else []) ++ c.digits ++ [c.unit.letter]

end Component

/-- A text of the form of durations: a sign or none, the letter `P`, components for the date,
and after a `T` components for the time if there are any.  Units stand in order, and any of
them may be left out, but not all. -/
structure Written where
  negative : Bool
  date : List Component
  time : List Component
  dateInOrder : (date.map Component.unit).Sublist DurationUnit.dateUnits
  timeInOrder : (time.map Component.unit).Sublist DurationUnit.timeUnits
  nonempty : date ++ time ≠ []

namespace Written

/-- The text after the letter `P`. -/
def body (w : Written) : List Char :=
  w.date.flatMap Component.chars
    ++ if w.time = [] then [] else 'T' :: w.time.flatMap Component.chars

/-- The text. -/
def chars (w : Written) : List Char :=
  (if w.negative then ['-'] else []) ++ 'P' :: w.body

/-- All that is written, in order. -/
def amounts (w : Written) : List Amount :=
  (w.date ++ w.time).map Component.amount

/-- The sign before the whole text, as a factor. -/
def sign (w : Written) : Int :=
  if w.negative then -1 else 1

/-- Nothing overflows: the amounts can be added up, and so the sums can be negated if there is
a sign before the text. -/
def Fitting (w : Written) : Prop :=
  Amount.Summable w.amounts ∧
    Fits (w.sign * Amount.monthsIn w.amounts) ∧ Fits (w.sign * Amount.secondsIn w.amounts)

end Written

/-! ## Sums -/

section

variable {a b d total : Duration}

theorem eq_iff :
    a = b ↔ a.months.toInt = b.months.toInt ∧ a.seconds.toInt = b.seconds.toInt := by
  rw [Int64.toInt_inj, Int64.toInt_inj]
  constructor
  · rintro rfl
    exact ⟨rfl, rfl⟩
  · intro same
    cases a
    cases b
    simp_all

theorem add?_eq_some_iff : a.add? b = some d ↔
    d.months.toInt = a.months.toInt + b.months.toInt ∧
      d.seconds.toInt = a.seconds.toInt + b.seconds.toInt := by
  simp only [add?, Number.add?, bind, pure, Option.bind_eq_some_iff, checked_eq_some_iff,
    Option.some.injEq]
  constructor
  · rintro ⟨months, sum, seconds, sum', rfl⟩
    exact ⟨sum, sum'⟩
  · rintro ⟨sum, sum'⟩
    exact ⟨d.months, sum, d.seconds, sum', rfl⟩

theorem neg?_eq_some_iff : a.neg? = some d ↔
    d.months.toInt = -a.months.toInt ∧ d.seconds.toInt = -a.seconds.toInt := by
  simp only [neg?, Number.neg?, bind, pure, Option.bind_eq_some_iff, checked_eq_some_iff,
    Option.some.injEq]
  constructor
  · rintro ⟨months, opposite, seconds, opposite', rfl⟩
    exact ⟨opposite, opposite'⟩
  · rintro ⟨opposite, opposite'⟩
    exact ⟨d.months, opposite, d.seconds, opposite', rfl⟩

/-- Two integers of 64 bits are the parts of a duration. -/
theorem exists_of_fits {months seconds : Int} (fits : Fits months) (fits' : Fits seconds) :
    ∃ d : Duration, d.months.toInt = months ∧ d.seconds.toInt = seconds :=
  ⟨⟨Int64.ofInt months, Int64.ofInt seconds⟩,
    toInt_ofInt_of_fits fits, toInt_ofInt_of_fits fits'⟩

theorem scale?_eq_some_iff {unit : DurationUnit} {count : Int64} : unit.scale? count = some d ↔
    d.months.toInt = (Amount.mk count.toInt unit).months ∧
      d.seconds.toInt = (Amount.mk count.toInt unit).seconds := by
  have ofMonths (factor : Int64) :
      ((Number.mul? count factor).map fun months => (⟨months, 0⟩ : Duration)) = some d ↔
        d.months.toInt = count.toInt * factor.toInt ∧ d.seconds.toInt = 0 := by
    simp only [Option.map_eq_some_iff, Number.mul?, checked_eq_some_iff]
    constructor
    · rintro ⟨months, product, rfl⟩
      exact ⟨product, rfl⟩
    · rintro ⟨product, none⟩
      exact ⟨d.months, product, eq_iff.mpr ⟨rfl, none.symm⟩⟩
  have ofSeconds (factor : Int64) :
      ((Number.mul? count factor).map fun seconds => (⟨0, seconds⟩ : Duration)) = some d ↔
        d.months.toInt = 0 ∧ d.seconds.toInt = count.toInt * factor.toInt := by
    simp only [Option.map_eq_some_iff, Number.mul?, checked_eq_some_iff]
    constructor
    · rintro ⟨seconds, product, rfl⟩
      exact ⟨rfl, product⟩
    · rintro ⟨none, product⟩
      exact ⟨d.seconds, product, eq_iff.mpr ⟨none.symm, rfl⟩⟩
  simp only [Amount.months, Amount.seconds]
  cases unit with
  | months | seconds =>
      simp [DurationUnit.scale?, eq_comm (b := d), eq_iff]
  | years => simpa [DurationUnit.scale?] using ofMonths 12
  | weeks => simpa [DurationUnit.scale?] using ofSeconds 604800
  | days => simpa [DurationUnit.scale?] using ofSeconds 86400
  | hours => simpa [DurationUnit.scale?] using ofSeconds 3600
  | minutes => simpa [DurationUnit.scale?] using ofSeconds 60

/-- One step of a sum. -/
def plus (total : Duration) (value : Int64 × DurationUnit) : Option Duration := do
  total.add? (← value.2.scale? value.1)

/-- A number that was read, as an amount. -/
def amountOf (value : Int64 × DurationUnit) : Amount :=
  ⟨value.1.toInt, value.2⟩

theorem plus_eq_some_iff {value : Int64 × DurationUnit} : total.plus value = some d ↔
    Fits (amountOf value).months ∧ Fits (amountOf value).seconds ∧
      d.months.toInt = total.months.toInt + (amountOf value).months ∧
      d.seconds.toInt = total.seconds.toInt + (amountOf value).seconds := by
  simp only [plus, bind, Option.bind_eq_some_iff, scale?_eq_some_iff, add?_eq_some_iff]
  constructor
  · rintro ⟨part, ⟨months, seconds⟩, sum, sum'⟩
    rw [months] at sum
    rw [seconds] at sum'
    exact ⟨months ▸ fits_toInt _, seconds ▸ fits_toInt _, sum, sum'⟩
  · rintro ⟨fits, fits', sum, sum'⟩
    rcases exists_of_fits fits fits' with ⟨part, months, seconds⟩
    exact ⟨part, ⟨months, seconds⟩, by rw [months, sum], by rw [seconds, sum']⟩

/-- Adding up values from a total on succeeds if nothing overflows. -/
theorem foldlM_plus_eq_some_iff {values : List (Int64 × DurationUnit)} :
    values.foldlM plus total = some d ↔
      (∀ a ∈ values.map amountOf, Fits a.months ∧ Fits a.seconds) ∧
      (∀ n, Fits (total.months.toInt + Amount.monthsIn ((values.map amountOf).take n)) ∧
        Fits (total.seconds.toInt + Amount.secondsIn ((values.map amountOf).take n))) ∧
      d.months.toInt = total.months.toInt + Amount.monthsIn (values.map amountOf) ∧
      d.seconds.toInt = total.seconds.toInt + Amount.secondsIn (values.map amountOf) := by
  induction values generalizing total with
  | nil =>
      simp [Amount.monthsIn, Amount.secondsIn, fits_toInt, eq_comm (b := d), eq_iff]
  | cons value rest inductionHypothesis =>
      simp only [List.foldlM_cons, bind, Option.bind_eq_some_iff, plus_eq_some_iff,
        inductionHypothesis, List.map_cons, List.forall_mem_cons, Amount.monthsIn_cons,
        Amount.secondsIn_cons]
      constructor
      · rintro ⟨next, ⟨fits, fits', sum, sum'⟩, products, sums, months, seconds⟩
        rw [sum, sum'] at sums
        refine ⟨⟨⟨fits, fits'⟩, products⟩, fun n => ?_, by omega, by omega⟩
        cases n with
        | zero => simp [Amount.monthsIn, Amount.secondsIn, fits_toInt]
        | succ n =>
            simp only [List.take_succ_cons, Amount.monthsIn_cons, Amount.secondsIn_cons,
              ← Int.add_assoc]
            exact sums n
      · rintro ⟨⟨⟨fits, fits'⟩, products⟩, sums, months, seconds⟩
        have first := sums 1
        simp only [List.take_succ_cons, List.take_zero, Amount.monthsIn_cons,
          Amount.secondsIn_cons] at first
        rcases exists_of_fits first.1 first.2 with ⟨next, sum, sum'⟩
        simp only [Amount.monthsIn, Amount.secondsIn, List.map_nil, List.sum_nil,
          Int.add_zero] at sum sum'
        refine ⟨next, ⟨fits, fits', sum, sum'⟩, products, fun n => ?_, by omega, by omega⟩
        have later := sums (n + 1)
        simp only [List.take_succ_cons, Amount.monthsIn_cons, Amount.secondsIn_cons,
          ← Int.add_assoc] at later
        rwa [sum, sum']

end

/-! ## Components -/

/-- The number of a component with its unit, if it has 64 bits. -/
def Component.read? (c : Component) : Option (Int64 × DurationUnit) :=
  (checked c.count).map fun value => (value, c.unit)

section

variable {c : Component} {components : List Component} {units : List DurationUnit}
  {rest text : List Char}

theorem not_isDigit_letter (unit : DurationUnit) : unit.letter.isDigit = false := by
  cases unit <;> rfl

/-- Where a sign stands before digits, it is split off. -/
theorem component?_chars_append (c : Component) (rest : List Char) :
    component? (c.chars ++ rest)
      = c.read?.map fun value => (value.1, c.unit.letter, rest) := by
  obtain ⟨negative, digits, unit, nonempty, decimal⟩ := c
  obtain ⟨first, more, rfl⟩ := List.exists_cons_of_ne_nil nonempty
  have plain : first ≠ '-' := by
    rintro rfl
    exact absurd (decimal '-' List.mem_cons_self) (by decide)
  have stop : ∀ c ∈ (unit.letter :: rest).head?, c.isDigit = false := by
    rintro c ⟨⟩
    exact not_isDigit_letter unit
  have taken := Lexer.takeWhile_append_of_stop decimal stop
  have dropped : (first :: more ++ unit.letter :: rest).dropWhile Char.isDigit
      = unit.letter :: rest := by
    rw [List.dropWhile_append_of_pos decimal, List.dropWhile_cons_of_neg]
    simp [not_isDigit_letter unit]
  have natural : natural? (first :: more) = some (Lexer.decimalNumber (first :: more)) := by
    rw [natural?, if_pos ⟨nonempty, List.all_eq_true.mpr decimal⟩,
      Lexer.Form.digitsValue_eq_decimalNumber]
  have joined : (Component.mk negative (first :: more) unit nonempty decimal).chars ++ rest
      = (if negative then ['-'] else []) ++ (first :: more ++ unit.letter :: rest) := by
    simp [Component.chars]
  rw [joined]
  unfold component?
  split
  next isNegative unsigned signed =>
    have apart : isNegative = negative ∧ unsigned = first :: more ++ unit.letter :: rest := by
      cases negative with
      | true =>
          cases signed
          exact ⟨rfl, rfl⟩
      | false =>
          rw [if_neg Bool.false_ne_true, List.nil_append] at signed
          split at signed
          · next isSign => exact absurd (List.cons.inj isSign).1 plain
          · cases signed
            exact ⟨rfl, rfl⟩
    rw [apart.1, apart.2, taken, dropped]
    dsimp only
    rw [natural]
    simp only [bind, pure, Option.bind_some, Component.read?, Component.count]
    cases checked _ <;> rfl

theorem takeWhile_append_dropWhile_cons {p : Char → Bool} {next : Char}
    (stopped : text.dropWhile p = next :: rest) : text = text.takeWhile p ++ next :: rest := by
  rw [← stopped, List.takeWhile_append_dropWhile]

/-- What is read as a component has the form of one, but for its letter. -/
theorem exists_of_component? {value : Int64} {letter : Char}
    (read : component? text = some (value, letter, rest)) :
    ∃ (negative : Bool) (digits : List Char), digits ≠ [] ∧ (∀ c ∈ digits, c.isDigit) ∧
      text = (if negative then ['-'] else []) ++ digits ++ letter :: rest := by
  unfold component? at read
  split at read
  next negative unsigned signed =>
    have apart : text = (if negative then ['-'] else []) ++ unsigned := by
      split at signed <;> cases signed <;> rfl
    split at read
    · cases read
    · next stopped =>
        simp only [bind, pure, Option.bind_eq_some_iff, Option.some.injEq, Prod.mk.injEq] at read
        rcases read with ⟨magnitude, natural, value, -, -, rfl, rfl⟩
        unfold natural? at natural
        split at natural
        · next isNatural =>
            refine ⟨negative, unsigned.takeWhile Char.isDigit, isNatural.1,
              List.all_eq_true.mp isNatural.2, ?_⟩
            rw [apart, List.append_assoc]
            exact congrArg _ (takeWhile_append_dropWhile_cons stopped)
        · cases natural

/-- A text that starts with no component is one of components only if it is empty. -/
theorem components?_of_unreadable (units : List DurationUnit) (nonempty : text ≠ [])
    (unreadable : component? text = none) : components? units text = none := by
  induction units with
  | nil => exact if_neg nonempty
  | cons unit later inductionHypothesis => rw [components?, unreadable, inductionHypothesis]

theorem components?_nil (units : List DurationUnit) : components? units [] = some [] := by
  induction units with
  | nil => rfl
  | cons unit later inductionHypothesis => exact inductionHypothesis

/-- Components in order are read one after the other. -/
theorem components?_flatMap (distinct : (units.map DurationUnit.letter).Nodup)
    (inOrder : (components.map Component.unit).Sublist units) :
    components? units (components.flatMap Component.chars)
      = components.mapM Component.read? := by
  induction units generalizing components with
  | nil =>
      cases components with
      | nil => rfl
      | cons c others => cases inOrder
  | cons unit later inductionHypothesis =>
      rw [List.map_cons, List.nodup_cons] at distinct
      cases components with
      | nil => exact components?_nil _
      | cons c others =>
          rw [List.flatMap_cons, List.mapM_cons]
          cases read : c.read? with
          | none =>
              have nonempty : c.chars ++ others.flatMap Component.chars ≠ [] := by
                simp [Component.chars]
              rw [components?_of_unreadable _ nonempty (by rw [component?_chars_append, read]; rfl)]
              rfl
          | some value =>
              rw [components?, component?_chars_append, read]
              dsimp only [Option.map_some]
              cases inOrder with
              | cons _ skipped =>
                  have other : c.unit.letter ≠ unit.letter := fun same =>
                    distinct.1 (same ▸ List.mem_map_of_mem
                      (skipped.subset List.mem_cons_self))
                  have rest := inductionHypothesis distinct.2 skipped
                  rw [List.flatMap_cons, List.mapM_cons, read] at rest
                  rw [if_neg other, rest]
              | cons_cons _ kept =>
                  rcases Option.map_eq_some_iff.mp read with ⟨count, -, rfl⟩
                  rw [if_pos rfl, inductionHypothesis distinct.2 kept]
                  cases others.mapM Component.read? <;> rfl

/-- What is read as components is made of components in order. -/
theorem exists_of_components? {values : List (Int64 × DurationUnit)}
    (read : components? units text = some values) :
    ∃ components : List Component, (components.map Component.unit).Sublist units ∧
      text = components.flatMap Component.chars := by
  induction units generalizing text values with
  | nil =>
      rw [components?] at read
      split at read
      · next isEmpty => exact ⟨[], List.nil_sublist _, isEmpty⟩
      · cases read
  | cons unit later inductionHypothesis =>
      have skip {values} (read : components? later text = some values) :
          ∃ components : List Component,
            (components.map Component.unit).Sublist (unit :: later) ∧
              text = components.flatMap Component.chars := by
        rcases inductionHypothesis read with ⟨components, inOrder, written⟩
        exact ⟨components, inOrder.cons _, written⟩
      rw [components?] at read
      split at read
      · next value letter rest first =>
          split at read
          · next isUnit =>
              rcases Option.map_eq_some_iff.mp read with ⟨others, readOthers, -⟩
              rcases inductionHypothesis readOthers with ⟨components, inOrder, rfl⟩
              rcases exists_of_component? first with ⟨negative, digits, nonempty, decimal, rfl⟩
              refine ⟨⟨negative, digits, unit, nonempty, decimal⟩ :: components,
                inOrder.cons_cons _, ?_⟩
              simp [Component.chars, isUnit]
          · exact skip read
      · exact skip read

/-- The numbers of components are read if they have 64 bits. -/
theorem mapM_read?_eq_some_iff {values : List (Int64 × DurationUnit)} :
    components.mapM Component.read? = some values ↔
      values.map amountOf = components.map Component.amount := by
  induction components generalizing values with
  | nil => simp [eq_comm (b := values)]
  | cons c others inductionHypothesis =>
      simp only [List.mapM_cons, bind, pure, Option.bind_eq_some_iff, inductionHypothesis,
        Option.some.injEq, Component.read?, Option.map_eq_some_iff, checked_eq_some_iff,
        List.map_cons]
      constructor
      · rintro ⟨_, ⟨count, counted, rfl⟩, values, rest, rfl⟩
        rw [List.map_cons, rest, amountOf, counted]
        rfl
      · intro same
        cases values with
        | nil => cases same
        | cons value values =>
            rcases List.cons.inj same with ⟨first, rest⟩
            rcases Amount.mk.inj first with ⟨counted, unit⟩
            exact ⟨_, ⟨value.1, counted, rfl⟩, values, rest, by rw [← unit]⟩

theorem notMem_chars (c : Component) : 'T' ∉ c.chars := by
  obtain ⟨negative, digits, unit, nonempty, decimal⟩ := c
  have noDigit : 'T' ∉ digits := fun member => absurd (decimal _ member) (by decide)
  have noLetter : 'T' ≠ unit.letter := by cases unit <;> decide
  cases negative <;> simp [Component.chars, noDigit, noLetter]

theorem ne_of_mem_flatMap_chars {letter : Char}
    (member : letter ∈ components.flatMap Component.chars) : decide (letter ≠ 'T') := by
  rcases List.mem_flatMap.mp member with ⟨c, -, inside⟩
  rw [decide_eq_true_eq]
  rintro rfl
  exact notMem_chars c inside

end

/-! ## Whole texts -/

section

variable {text : List Char} {d : Duration}

/-- The sum of the components of a text, if nothing overflows. -/
def Written.sum? (w : Written) : Option Duration :=
  ((w.date ++ w.time).mapM Component.read?).bind Duration.sum?

theorem body?_body (w : Written) : body? w.body = w.sum? := by
  obtain ⟨negative, date, time, dateInOrder, timeInOrder, nonempty⟩ := w
  have dateRead := components?_flatMap (by decide) dateInOrder
  have timeRead := components?_flatMap (by decide) timeInOrder
  have length {components : List Component} {values : List (Int64 × DurationUnit)}
      (read : components.mapM Component.read? = some values) :
      values.length = components.length := by
    simpa using congrArg List.length (mapM_read?_eq_some_iff.mp read)
  have inside (c) : c ∈ date.flatMap Component.chars → decide (c ≠ 'T') :=
    ne_of_mem_flatMap_chars
  unfold body? Written.sum? Written.body
  dsimp only
  by_cases noTime : time = []
  · subst noTime
    rw [if_pos rfl, List.append_nil, List.append_nil, List.takeWhile_eq_self_iff.mpr inside,
      List.dropWhile_eq_nil_iff.mpr inside, dateRead]
    cases read : date.mapM Component.read? with
    | none => rfl
    | some values =>
        have some : values ≠ [] := by
          rintro rfl
          exact nonempty (by simpa using (length read).symm)
        simp [some]
  · have stop : ∀ c ∈ ('T' :: time.flatMap Component.chars).head?,
        decide (c ≠ 'T') = false := by
      rintro c ⟨⟩
      rfl
    rw [if_neg noTime, Lexer.takeWhile_append_of_stop inside stop,
      List.dropWhile_append_of_pos inside, List.dropWhile_cons_of_neg (by decide), dateRead,
      List.mapM_append]
    dsimp only
    rw [timeRead]
    cases date.mapM Component.read? with
    | none => rfl
    | some dates =>
        cases read : time.mapM Component.read? with
        | none => rfl
        | some values =>
            have some : values ≠ [] := by
              rintro rfl
              exact noTime (by simpa using (length read).symm)
            simp [some]

theorem parse?_chars (w : Written) :
    parse? w.chars = w.sum?.bind fun total => if w.negative then total.neg? else some total := by
  rw [← body?_body, Written.chars]
  cases w.negative with
  | true => rfl
  | false =>
      change body? w.body = _
      cases body? w.body <;> rfl

theorem sum?_eq_some_iff {w : Written} : w.sum? = some d ↔
    Amount.Summable w.amounts ∧ d.months.toInt = Amount.monthsIn w.amounts ∧
      d.seconds.toInt = Amount.secondsIn w.amounts := by
  have added (values : List (Int64 × DurationUnit)) : Duration.sum? values = some d ↔
      (∀ a ∈ values.map amountOf, Fits a.months ∧ Fits a.seconds) ∧
      (∀ n, Fits (Amount.monthsIn ((values.map amountOf).take n)) ∧
        Fits (Amount.secondsIn ((values.map amountOf).take n))) ∧
      d.months.toInt = Amount.monthsIn (values.map amountOf) ∧
      d.seconds.toInt = Amount.secondsIn (values.map amountOf) := by
    have fromZero := @foldlM_plus_eq_some_iff d zero values
    simp only [zero, Int64.toInt_zero, Int.zero_add] at fromZero
    exact fromZero
  simp only [Written.sum?, Option.bind_eq_some_iff, mapM_read?_eq_some_iff, added]
  constructor
  · rintro ⟨values, read, products, sums, months, seconds⟩
    have all : values.map amountOf = w.amounts := read
    rw [all] at products sums months seconds
    refine ⟨⟨fun a member => ?_, products, sums⟩, months, seconds⟩
    rw [← all] at member
    rcases List.mem_map.mp member with ⟨value, -, rfl⟩
    exact fits_toInt value.1
  · rintro ⟨⟨counts, products, sums⟩, months, seconds⟩
    have read : ((w.amounts.map fun a => (Int64.ofInt a.count, a.unit)).map amountOf)
        = w.amounts := by
      have each : ∀ a ∈ w.amounts,
          (amountOf ∘ fun a => (Int64.ofInt a.count, a.unit)) a = id a := by
        intro a member
        rw [Function.comp_apply, amountOf, toInt_ofInt_of_fits (counts a member), id]
      rw [List.map_map, List.map_congr_left each, List.map_id]
    refine ⟨_, read, ?_⟩
    rw [read]
    exact ⟨products, sums, months, seconds⟩

/-- A text of the form of durations stands for its sums, if nothing overflows. -/
theorem parse?_chars_eq_some_iff {w : Written} : parse? w.chars = some d ↔
    w.Fitting ∧ d.months.toInt = w.sign * Amount.monthsIn w.amounts ∧
      d.seconds.toInt = w.sign * Amount.secondsIn w.amounts := by
  rw [parse?_chars, Option.bind_eq_some_iff]
  simp only [sum?_eq_some_iff, Written.Fitting, Written.sign]
  cases w.negative with
  | true =>
      simp only [if_true, neg?_eq_some_iff, Int.neg_mul, Int.one_mul]
      constructor
      · rintro ⟨total, ⟨summable, months, seconds⟩, opposite, opposite'⟩
        rw [← months, ← seconds, ← opposite, ← opposite']
        exact ⟨⟨summable, fits_toInt _, fits_toInt _⟩, rfl, rfl⟩
      · rintro ⟨⟨summable, fits, fits'⟩, months, seconds⟩
        have all := summable.sums w.amounts.length
        rw [List.take_length] at all
        rcases exists_of_fits all.1 all.2 with ⟨total, isMonths, isSeconds⟩
        exact ⟨total, ⟨summable, isMonths, isSeconds⟩, by rw [isMonths, months],
          by rw [isSeconds, seconds]⟩
  | false =>
      simp only [Bool.false_eq_true, if_false, Option.some.injEq, Int.one_mul]
      constructor
      · rintro ⟨total, ⟨summable, months, seconds⟩, rfl⟩
        rw [← months, ← seconds]
        exact ⟨⟨summable, fits_toInt _, fits_toInt _⟩, rfl, rfl⟩
      · rintro ⟨⟨summable, -, -⟩, months, seconds⟩
        exact ⟨d, ⟨summable, months, seconds⟩, rfl⟩

/-- What is read as a duration has the form of one. -/
theorem exists_of_parse? (read : parse? text = some d) : ∃ w : Written, text = w.chars := by
  have ofBody {text : List Char} {d : Duration} (read : body? text = some d) (negative : Bool) :
      ∃ w : Written, w.negative = negative ∧ text = w.body := by
    unfold body? at read
    have parts := List.takeWhile_append_dropWhile (p := (· ≠ 'T')) (l := text)
    dsimp only at read
    split at read
    · next noTime =>
        rw [noTime, List.append_nil] at parts
        simp only [bind, Option.bind_eq_some_iff] at read
        rcases read with ⟨values, read, more⟩
        rcases exists_of_components? read with ⟨date, inOrder, written⟩
        have some : date ≠ [] := by
          rintro rfl
          rw [written, List.flatMap_nil, components?_nil] at read
          cases read
          cases more
        refine ⟨⟨negative, date, [], inOrder, List.nil_sublist _, by simpa using some⟩,
          rfl, ?_⟩
        rw [← parts, written, Written.body, if_pos rfl, List.append_nil]
    · next letter timePart hasTime =>
        have isT : letter = 'T' := by
          have stopped := List.head?_dropWhile_not (fun c => decide (c ≠ 'T')) text
          rw [hasTime] at stopped
          simpa using stopped
        simp only [bind, Option.bind_eq_some_iff] at read
        rcases read with ⟨dates, readDates, times, readTimes, more⟩
        rcases exists_of_components? readDates with ⟨date, inOrder, writtenDate⟩
        rcases exists_of_components? readTimes with ⟨time, inOrder', writtenTime⟩
        have some : time ≠ [] := by
          rintro rfl
          rw [writtenTime, List.flatMap_nil, components?_nil] at readTimes
          cases readTimes
          cases more
        refine ⟨⟨negative, date, time, inOrder, inOrder', by simp [some]⟩, rfl, ?_⟩
        rw [← parts, hasTime, isT, writtenDate, writtenTime, Written.body, if_neg some]
  unfold parse? at read
  split at read
  · next rest =>
      rcases Option.bind_eq_some_iff.mp read with ⟨total, read, -⟩
      rcases ofBody read true with ⟨w, negative, rfl⟩
      exact ⟨w, by rw [Written.chars, negative]; rfl⟩
  · next rest =>
      rcases ofBody read false with ⟨w, negative, rfl⟩
      exact ⟨w, by rw [Written.chars, negative]; rfl⟩
  · cases read

/-- Reading accepts the texts of the form of durations in which nothing overflows, and no
others, and gives the sums of what is written. -/
theorem parse?_eq_some_iff (text : List Char) (d : Duration) : parse? text = some d ↔
    ∃ w : Written, text = w.chars ∧ w.Fitting ∧
      d.months.toInt = w.sign * Amount.monthsIn w.amounts ∧
      d.seconds.toInt = w.sign * Amount.secondsIn w.amounts := by
  constructor
  · intro read
    rcases exists_of_parse? read with ⟨w, rfl⟩
    exact ⟨w, rfl, parse?_chars_eq_some_iff.mp read⟩
  · rintro ⟨w, rfl, stands⟩
    exact parse?_chars_eq_some_iff.mpr stands

end

end Duration

end Formulae
