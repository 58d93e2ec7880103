import Formulae.Proofs.Calendar.DurationText

/-!
# Durations calculated exactly

Sums, opposites and multiples of durations are the exact ones wherever both components of these
have 64 bits, and there is no result elsewhere.  A difference is a sum with an opposite.  It is
missing for every subtrahend without an opposite, though the exact difference may fit
(`sub?_least`); with all others it is exact, too, and undoes a sum (`arithmetic_exact`).
-/

namespace Formulae.Duration

open Number

/-- The duration with these components, if both have 64 bits. -/
def exactly? (months seconds : Int) : Option Duration :=
  if Fits months ∧ Fits seconds then some ⟨Int64.ofInt months, Int64.ofInt seconds⟩ else none

/-- A component is the least integer of 64 bits, so the duration has no opposite. -/
def HasLeast (d : Duration) : Prop :=
  d.months = Int64.minValue ∨ d.seconds = Int64.minValue

instance (d : Duration) : Decidable d.HasLeast :=
  inferInstanceAs (Decidable (_ ∨ _))

section

variable {a b d : Duration} {months seconds : Int} {factor : Int64}

theorem exactly?_eq_some_iff :
    exactly? months seconds = some d ↔ d.months.toInt = months ∧ d.seconds.toInt = seconds := by
  rw [exactly?, Option.ite_none_right_eq_some]
  constructor
  · rintro ⟨⟨fits, fits'⟩, equal⟩
    cases equal
    exact ⟨toInt_ofInt_of_fits fits, toInt_ofInt_of_fits fits'⟩
  · rintro ⟨rfl, rfl⟩
    exact ⟨⟨fits_toInt _, fits_toInt _⟩, by simp⟩

/-- A result is told by its components, and so is that there is none. -/
theorem eq_exactly?_iff {result : Option Duration} : result = exactly? months seconds ↔
    ∀ d, result = some d ↔ d.months.toInt = months ∧ d.seconds.toInt = seconds := by
  rw [Option.ext_iff]
  simp only [exactly?_eq_some_iff]

theorem add?_eq_exactly? (a b : Duration) : a.add? b =
    exactly? (a.months.toInt + b.months.toInt) (a.seconds.toInt + b.seconds.toInt) :=
  eq_exactly?_iff.mpr fun _ => add?_eq_some_iff

theorem neg?_eq_exactly? (a : Duration) :
    a.neg? = exactly? (-a.months.toInt) (-a.seconds.toInt) :=
  eq_exactly?_iff.mpr fun _ => neg?_eq_some_iff

theorem mul?_eq_some_iff : a.mul? factor = some d ↔
    d.months.toInt = a.months.toInt * factor.toInt ∧
      d.seconds.toInt = a.seconds.toInt * factor.toInt := by
  simp only [mul?, Number.mul?, bind, pure, Option.bind_eq_some_iff, checked_eq_some_iff,
    Option.some.injEq]
  constructor
  · rintro ⟨months, product, seconds, product', rfl⟩
    exact ⟨product, product'⟩
  · rintro ⟨product, product'⟩
    exact ⟨d.months, product, d.seconds, product', rfl⟩

theorem mul?_eq_exactly? (a : Duration) (factor : Int64) : a.mul? factor =
    exactly? (a.months.toInt * factor.toInt) (a.seconds.toInt * factor.toInt) :=
  eq_exactly?_iff.mpr fun _ => mul?_eq_some_iff

/-! ## Differences -/

theorem fits_neg_iff_not_hasLeast :
    (Fits (-b.months.toInt) ∧ Fits (-b.seconds.toInt)) ↔ ¬b.HasLeast := by
  rw [fits_neg_iff, fits_neg_iff, HasLeast, not_or]

theorem sub?_of_hasLeast (a : Duration) (least : b.HasLeast) : a.sub? b = none := by
  have unopposed : b.neg? = none := by
    rw [neg?_eq_exactly?]
    exact if_neg fun fits => fits_neg_iff_not_hasLeast.mp fits least
  rw [sub?, unopposed]
  rfl

theorem sub?_of_not_hasLeast (a : Duration) (opposed : ¬b.HasLeast) : a.sub? b =
    exactly? (a.months.toInt - b.months.toInt) (a.seconds.toInt - b.seconds.toInt) := by
  have fits := fits_neg_iff_not_hasLeast.mpr opposed
  rcases exists_of_fits fits.1 fits.2 with ⟨opposite, months, seconds⟩
  have isSum : a.sub? b = a.add? opposite := by
    rw [sub?, neg?_eq_some_iff.mpr ⟨months, seconds⟩]
    rfl
  rw [isSum, add?_eq_exactly?, months, seconds, Int.sub_eq_add_neg, Int.sub_eq_add_neg]

theorem sub?_of_add? (opposed : ¬b.HasLeast) (sum : a.add? b = some d) : d.sub? b = some a := by
  rw [add?_eq_some_iff] at sum
  rw [sub?_of_not_hasLeast d opposed, exactly?_eq_some_iff, sum.1, sum.2]
  exact ⟨(Int.add_sub_cancel _ _).symm, (Int.add_sub_cancel _ _).symm⟩

end

/-- Sums, opposites and multiples are exact up to the limit of 64 bits.  So are differences, and
they undo sums, except where the subtrahend has no opposite: then there is none at all. -/
theorem arithmetic_exact (a b : Duration) (factor : Int64) :
    a.add? b = exactly? (a.months.toInt + b.months.toInt) (a.seconds.toInt + b.seconds.toInt) ∧
    a.neg? = exactly? (-a.months.toInt) (-a.seconds.toInt) ∧
    a.mul? factor
      = exactly? (a.months.toInt * factor.toInt) (a.seconds.toInt * factor.toInt) ∧
    a.sub? b = (if b.HasLeast then none
      else exactly? (a.months.toInt - b.months.toInt) (a.seconds.toInt - b.seconds.toInt)) ∧
    (a.add? b).bind (·.sub? b) = (if b.HasLeast then none else (a.add? b).map fun _ => a) := by
  refine ⟨add?_eq_exactly? a b, neg?_eq_exactly? a, mul?_eq_exactly? a factor, ?_, ?_⟩
  · split
    · next least => exact sub?_of_hasLeast a least
    · next opposed => exact sub?_of_not_hasLeast a opposed
  · cases sum : a.add? b with
    | none => split <;> rfl
    | some total =>
        split
        · next least => exact sub?_of_hasLeast total least
        · next opposed => exact sub?_of_add? opposed sum

/-- The least number of months cannot be subtracted, though the difference has 64 bits, not even
from a sum with it. -/
theorem sub?_least :
    sub? ⟨-1, 0⟩ ⟨Int64.minValue, 0⟩ = none ∧
    exactly? ((-1 : Int64).toInt - Int64.minValue.toInt) ((0 : Int64).toInt - (0 : Int64).toInt)
      = some ⟨Int64.maxValue, 0⟩ ∧
    (add? zero ⟨Int64.minValue, 0⟩).isSome ∧
    (add? zero ⟨Int64.minValue, 0⟩).bind (·.sub? ⟨Int64.minValue, 0⟩) = none := by
  decide

end Formulae.Duration
