import Formulae.Proofs.Calendar.DurationGrammar

/-!
# Reading the text of a duration

A duration is written as components of one sign for its months and of one for its seconds
(`Duration.toList_renderComponents`).  No component has another sign than its part, so no sum on
the way is further from zero than the part itself, and the text is read as the duration again.
The exceptions are the durations that have one sign for the whole text and a part that is the
least number: its opposite is no number of 64 bits (`Duration.parse?_render`).
-/

namespace Formulae

namespace Duration

open Number

/-! ## Parts of a number -/

/-- A number that does not go against another one: it is zero or of the same sign. -/
def IsPart (whole part : Int) : Prop :=
  (0 ≤ whole → 0 ≤ part) ∧ (whole ≤ 0 → part ≤ 0)

namespace IsPart

variable {whole part other : Int}

theorem refl (whole : Int) : IsPart whole whole :=
  ⟨id, id⟩

theorem zero (whole : Int) : IsPart whole 0 :=
  ⟨fun _ => le_rfl, fun _ => le_rfl⟩

theorem add (isPart : IsPart whole part) (isPart' : IsPart whole other) :
    IsPart whole (part + other) :=
  ⟨fun positive => Int.add_nonneg (isPart.1 positive) (isPart'.1 positive),
    fun negative => Int.add_nonpos (isPart.2 negative) (isPart'.2 negative)⟩

/-- What holds of numbers that are not negative holds of parts if it holds of opposites. -/
theorem of_nonneg (isPart : IsPart whole part) {f : Int → Int} (odd : ∀ n, f (-n) = -f n)
    (nonneg : ∀ n, 0 ≤ n → 0 ≤ f n) : IsPart whole (f part) := by
  constructor
  · intro above
    exact nonneg part (isPart.1 above)
  · intro below
    have opposite := nonneg (-part) (Int.neg_nonneg_of_nonpos (isPart.2 below))
    rw [odd] at opposite
    exact Int.nonpos_of_neg_nonneg opposite

theorem tdiv_mul (isPart : IsPart whole part) {divisor : Int} (positive : 0 ≤ divisor) :
    IsPart whole (part.tdiv divisor * divisor) :=
  isPart.of_nonneg (f := fun n => n.tdiv divisor * divisor)
    (fun n => by rw [Int.neg_tdiv, Int.neg_mul])
    fun _ above => Int.mul_nonneg (Int.tdiv_nonneg above positive) positive

theorem tmod (isPart : IsPart whole part) (divisor : Int) : IsPart whole (part.tmod divisor) :=
  isPart.of_nonneg (f := (Int.tmod · divisor)) (fun n => Int.neg_tmod n divisor)
    fun _ above => Int.tmod_nonneg divisor above

/-- Some of several parts, and the others, are parts again. -/
theorem sum_of_sublist {some all : List Int} (sublist : some.Sublist all)
    (parts : ∀ part ∈ all, IsPart whole part) :
    IsPart whole some.sum ∧ IsPart whole (all.sum - some.sum) := by
  induction sublist with
  | slnil => exact ⟨zero whole, zero whole⟩
  | cons part sublist inductionHypothesis =>
      rw [List.forall_mem_cons] at parts
      rcases inductionHypothesis parts.2 with ⟨taken, left⟩
      rw [List.sum_cons, Int.add_sub_assoc]
      exact ⟨taken, parts.1.add left⟩
  | cons_cons part sublist inductionHypothesis =>
      rw [List.forall_mem_cons] at parts
      rcases inductionHypothesis parts.2 with ⟨taken, left⟩
      rw [List.sum_cons, List.sum_cons, Int.add_sub_add_left]
      exact ⟨parts.1.add taken, left⟩

/-- Some parts of a number are no larger than it. -/
theorem fits_of_sublist {some all : List Int} (sublist : some.Sublist all)
    (parts : ∀ part ∈ all, IsPart all.sum part) (fits : Fits all.sum) : Fits some.sum := by
  have split := sum_of_sublist sublist parts
  simp only [IsPart, Fits] at split fits ⊢
  omega

end IsPart

namespace Amount

/-- The number of units has 64 bits if the parts do. -/
theorem fits_count {a : Amount} (fits : Fits a.months) (fits' : Fits a.seconds) :
    Fits a.count := by
  obtain ⟨count, unit⟩ := a
  simp only [Fits, months, seconds] at fits fits' ⊢
  cases unit <;> simp only [DurationUnit.monthsEach, DurationUnit.secondsEach] at fits fits' <;>
    omega

/-- Nothing overflows on the way to sums that none of the amounts goes against. -/
theorem summable_of_isPart {amounts : List Amount}
    (parts : ∀ a ∈ amounts, IsPart (monthsIn amounts) a.months)
    (parts' : ∀ a ∈ amounts, IsPart (secondsIn amounts) a.seconds)
    (fits : Fits (monthsIn amounts)) (fits' : Fits (secondsIn amounts)) : Summable amounts := by
  have some {chosen : List Amount} (sublist : chosen.Sublist amounts) :
      Fits (monthsIn chosen) ∧ Fits (secondsIn chosen) :=
    ⟨IsPart.fits_of_sublist (sublist.map months) (List.forall_mem_map.mpr parts) fits,
      IsPart.fits_of_sublist (sublist.map seconds) (List.forall_mem_map.mpr parts') fits'⟩
  have products (a) (member : a ∈ amounts) : Fits a.months ∧ Fits a.seconds := by
    simpa [monthsIn, secondsIn] using some (List.singleton_sublist.mpr member)
  exact ⟨fun a member => fits_count (products a member).1 (products a member).2, products,
    fun n => some (List.take_sublist n amounts)⟩

/-- The amounts that are written: all but those of nothing. -/
def present (amounts : List Amount) : List Amount :=
  amounts.filter (·.count ≠ 0)

theorem sums_present (amounts : List Amount) :
    monthsIn (present amounts) = monthsIn amounts ∧
      secondsIn (present amounts) = secondsIn amounts := by
  induction amounts with
  | nil => exact ⟨rfl, rfl⟩
  | cons a rest inductionHypothesis =>
      unfold present at inductionHypothesis ⊢
      by_cases none : a.count = 0
      · rw [List.filter_cons_of_neg (by simpa using none), monthsIn_cons, secondsIn_cons]
        simpa [months, seconds, none] using inductionHypothesis
      · rw [List.filter_cons_of_pos (by simpa using none)]
        simpa using inductionHypothesis

end Amount

/-! ## Components -/

/-- The component for an amount. -/
def Component.ofAmount (a : Amount) : Component where
  negative := a.count < 0
  digits := Nat.toDigits 10 a.count.natAbs
  unit := a.unit
  nonempty := Nat.toDigits_ne_nil
  decimal _ member := isDigit_of_mem_toDigits member

theorem Component.amount_ofAmount (a : Amount) : (Component.ofAmount a).amount = a := by
  have magnitude : Lexer.decimalNumber (Nat.toDigits 10 a.count.natAbs) = a.count.natAbs := by
    rw [← Lexer.Form.digitsValue_eq_decimalNumber, Token.Kind.digitsValue_toDigits]
  have count : (Component.ofAmount a).count = a.count := by
    simp only [Component.count, Component.ofAmount, magnitude, decide_eq_true_eq]
    by_cases negative : a.count < 0
    · rw [if_pos negative, Int.ofNat_natAbs_of_nonpos negative.le, Int.neg_neg]
    · rw [if_neg negative, Int.natAbs_of_nonneg (Int.not_lt.mp negative)]
  rw [Component.amount, count]
  rfl

/-- The components for amounts. -/
def written (amounts : List Amount) : List Component :=
  (Amount.present amounts).map Component.ofAmount

theorem map_amount_written (amounts : List Amount) :
    (written amounts).map Component.amount = Amount.present amounts := by
  have each : Component.amount ∘ Component.ofAmount = id := funext Component.amount_ofAmount
  rw [written, List.map_map, each, List.map_id]

theorem written_nil : written [] = [] :=
  rfl

theorem written_append (amounts more : List Amount) :
    written (amounts ++ more) = written amounts ++ written more := by
  rw [written, Amount.present, List.filter_append, List.map_append]
  rfl

theorem map_unit_written_sublist (amounts : List Amount) :
    ((written amounts).map Component.unit).Sublist (amounts.map Amount.unit) := by
  rw [written, List.map_map]
  exact List.filter_sublist.map Amount.unit

theorem toList_repr (n : Int) :
    n.repr.toList = (if n < 0 then ['-'] else []) ++ Nat.toDigits 10 n.natAbs := by
  cases n with
  | ofNat n => exact Nat.toList_repr
  | negSucc n =>
      change ("-" ++ (n + 1).repr).toList = _
      simp [Nat.toList_repr]

theorem toList_renderComponent (count : Int) (unit : DurationUnit) :
    (renderComponent count unit.letter).toList
      = (written [⟨count, unit⟩]).flatMap Component.chars := by
  unfold renderComponent written Amount.present
  by_cases none : count = 0
  · simp [none]
  · simp [none, toList_repr, Component.chars, Component.ofAmount, Char.toString]

theorem chars_written_cons (a : Amount) (rest : List Amount) :
    (written (a :: rest)).flatMap Component.chars
      = (renderComponent a.count a.unit.letter).toList
        ++ (written rest).flatMap Component.chars := by
  rw [toList_renderComponent, ← List.flatMap_append, ← written_append]
  rfl

/-! ## Splitting the parts -/

/-- The amounts of days and longer units. -/
def dates (months seconds : Int) : List Amount :=
  [⟨months.tdiv 12, .years⟩, ⟨months.tmod 12, .months⟩, ⟨seconds.tdiv 86400, .days⟩]

/-- The amounts of units that are shorter than days. -/
def times (seconds : Int) : List Amount :=
  let rest := seconds.tmod 86400
  [⟨rest.tdiv 3600, .hours⟩, ⟨(rest.tmod 3600).tdiv 60, .minutes⟩, ⟨rest.tmod 60, .seconds⟩]

theorem toList_renderComponents (months seconds : Int) :
    (renderComponents months seconds).toList
      = (written (dates months seconds)).flatMap Component.chars
        ++ if written (times seconds) = [] then []
          else 'T' :: (written (times seconds)).flatMap Component.chars := by
  unfold renderComponents
  extract_lets rest time
  have spelled : time.toList = (written (times seconds)).flatMap Component.chars := by
    simp [time, rest, times, chars_written_cons, DurationUnit.letter, written_nil]
  have empty : time = "" ↔ written (times seconds) = [] := by
    rw [← String.toList_inj, spelled, String.toList_empty, List.flatMap_eq_nil_iff]
    constructor
    · intro none
      refine List.eq_nil_iff_forall_not_mem.mpr fun c member => ?_
      exact absurd (none c member) (by simp [Component.chars])
    · rintro none c member
      rw [none] at member
      cases member
  by_cases none : written (times seconds) = []
  · simp [dates, chars_written_cons, DurationUnit.letter, written_nil, empty, none]
  · simp [dates, chars_written_cons, DurationUnit.letter, written_nil, empty, none, spelled]

section

variable (months seconds : Int)

theorem monthsIn_dates_append_times :
    Amount.monthsIn (dates months seconds ++ times seconds) = months := by
  have split := Int.tmod_add_mul_tdiv months 12
  simp [dates, times, Amount.monthsIn, Amount.months]
  omega

theorem secondsIn_dates_append_times :
    Amount.secondsIn (dates months seconds ++ times seconds) = seconds := by
  have days := Int.tmod_add_mul_tdiv seconds 86400
  have hours := Int.tmod_add_mul_tdiv (seconds.tmod 86400) 3600
  have minutes := Int.tmod_add_mul_tdiv (seconds.tmod 3600) 60
  simp [dates, times, Amount.secondsIn, Amount.seconds] at hours minutes ⊢
  omega

theorem isPart_months :
    ∀ a ∈ dates months seconds ++ times seconds, IsPart months a.months := by
  have whole := IsPart.refl months
  simpa [dates, times, Amount.months, IsPart.zero] using
    ⟨whole.tdiv_mul (by decide : (0 : Int) ≤ 12), whole.tmod 12⟩

theorem isPart_seconds :
    ∀ a ∈ dates months seconds ++ times seconds, IsPart seconds a.seconds := by
  have whole := IsPart.refl seconds
  simpa [dates, times, Amount.seconds, IsPart.zero] using
    ⟨whole.tdiv_mul (by decide : (0 : Int) ≤ 86400),
      (whole.tmod 86400).tdiv_mul (by decide : (0 : Int) ≤ 3600),
      (whole.tmod 3600).tdiv_mul (by decide : (0 : Int) ≤ 60), whole.tmod 60⟩

end

/-! ## Whole texts -/

/-- The text for parts that are not both zero, with a sign before it or none. -/
def inWords (negative : Bool) (months seconds : Int) (nonzero : months ≠ 0 ∨ seconds ≠ 0) :
    Written where
  negative := negative
  date := written (dates months seconds)
  time := written (times seconds)
  dateInOrder := (map_unit_written_sublist _).trans
    (by decide : [.years, .months, .days].Sublist DurationUnit.dateUnits)
  timeInOrder := (map_unit_written_sublist _).trans
    (by decide : [.hours, .minutes, .seconds].Sublist DurationUnit.timeUnits)
  nonempty := by
    intro none
    rw [← written_append, written, List.map_eq_nil_iff] at none
    have sums := Amount.sums_present (dates months seconds ++ times seconds)
    rw [none, monthsIn_dates_append_times, secondsIn_dates_append_times] at sums
    rcases nonzero with nonzero | nonzero
    · exact nonzero sums.1.symm
    · exact nonzero sums.2.symm

section

variable {negative : Bool} {months seconds : Int} {nonzero : months ≠ 0 ∨ seconds ≠ 0}
  {d : Duration}

theorem amounts_inWords : (inWords negative months seconds nonzero).amounts
    = Amount.present (dates months seconds ++ times seconds) := by
  rw [← map_amount_written, written_append]
  rfl

/-- The text for parts is read as these parts if it can be. -/
theorem parse?_inWords :
    parse? (inWords negative months seconds nonzero).chars = some d ↔
      Fits months ∧ Fits seconds ∧
        d.months.toInt = (if negative then -1 else 1) * months ∧
        d.seconds.toInt = (if negative then -1 else 1) * seconds := by
  have sums := Amount.sums_present (dates months seconds ++ times seconds)
  rw [monthsIn_dates_append_times, secondsIn_dates_append_times] at sums
  rw [parse?_chars_eq_some_iff, Written.Fitting, amounts_inWords, sums.1, sums.2, Written.sign]
  constructor
  · rintro ⟨⟨summable, -, -⟩, isMonths, isSeconds⟩
    have all := summable.sums (Amount.present (dates months seconds ++ times seconds)).length
    rw [List.take_length, sums.1, sums.2] at all
    exact ⟨all.1, all.2, isMonths, isSeconds⟩
  · rintro ⟨fits, fits', isMonths, isSeconds⟩
    refine ⟨⟨Amount.summable_of_isPart ?_ ?_ ?_ ?_, ?_, ?_⟩, isMonths, isSeconds⟩
    · intro a member
      rw [sums.1]
      exact isPart_months months seconds a (List.mem_filter.mp member |>.1)
    · intro a member
      rw [sums.2]
      exact isPart_seconds months seconds a (List.mem_filter.mp member |>.1)
    · rwa [sums.1]
    · rwa [sums.2]
    · exact isMonths ▸ fits_toInt _
    · exact isSeconds ▸ fits_toInt _

end

section

variable {d : Duration}

theorem isZero_iff : d.isZero ↔ ¬(d.months.toInt ≠ 0 ∨ d.seconds.toInt ≠ 0) := by
  rw [isZero, decide_eq_true_eq, eq_iff]
  simp [zero]

theorem toList_render_of_nonpos (nonzero : d.months.toInt ≠ 0 ∨ d.seconds.toInt ≠ 0)
    (nonpos : d.months ≤ 0 ∧ d.seconds ≤ 0) :
    d.render.toList
      = (inWords true (-d.months.toInt) (-d.seconds.toInt) (by simpa using nonzero)).chars := by
  rw [render, if_neg (fun zero => isZero_iff.mp zero nonzero), if_pos nonpos,
    String.toList_append, toList_renderComponents]
  rfl

theorem toList_render_of_pos (nonzero : d.months.toInt ≠ 0 ∨ d.seconds.toInt ≠ 0)
    (pos : ¬(d.months ≤ 0 ∧ d.seconds ≤ 0)) :
    d.render.toList = (inWords false d.months.toInt d.seconds.toInt nonzero).chars := by
  rw [render, if_neg (fun zero => isZero_iff.mp zero nonzero), if_neg pos,
    String.toList_append, toList_renderComponents]
  rfl

end

/-- The opposite of a number of 64 bits has 64 bits but for the least one. -/
theorem fits_neg_iff {n : Int64} : Fits (-n.toInt) ↔ n ≠ Int64.minValue := by
  rw [Ne, ← Int64.toInt_inj, Int64.toInt_minValue]
  have lower := Int64.le_toInt n
  have upper := Int64.toInt_lt n
  unfold Fits
  omega

/-- The text of a duration is read as that duration, unless it has one sign for the whole of it
and one of its parts is the least number. -/
theorem parse?_render (d : Duration) : parse? d.render.toList =
    if d.months ≤ 0 ∧ d.seconds ≤ 0 ∧ (d.months = Int64.minValue ∨ d.seconds = Int64.minValue)
    then none else some d := by
  by_cases nonzero : d.months.toInt ≠ 0 ∨ d.seconds.toInt ≠ 0
  case neg =>
    have isZero := isZero_iff.mpr nonzero
    rw [Duration.isZero, decide_eq_true_eq] at isZero
    subst isZero
    decide
  by_cases nonpos : d.months ≤ 0 ∧ d.seconds ≤ 0
  · rw [toList_render_of_nonpos nonzero nonpos]
    by_cases least : d.months = Int64.minValue ∨ d.seconds = Int64.minValue
    · rw [if_pos ⟨nonpos.1, nonpos.2, least⟩, Option.eq_none_iff_forall_ne_some]
      intro other read
      rcases parse?_inWords.mp read with ⟨fits, fits', -⟩
      rw [fits_neg_iff] at fits fits'
      exact least.elim fits fits'
    · rw [if_neg fun both => least both.2.2, parse?_inWords, fits_neg_iff, fits_neg_iff]
      rw [not_or] at least
      simp [least]
  · rw [toList_render_of_pos nonzero nonpos, if_neg fun both => nonpos ⟨both.1, both.2.1⟩,
      parse?_inWords]
    simp [fits_toInt]

example : (render ⟨-14, 90000⟩).toList = "P-1Y-2M1DT1H".toList := by
  decide

theorem parse?_render_least : parse? (render ⟨Int64.minValue, 0⟩).toList = none := by
  decide

end Duration

end Formulae
