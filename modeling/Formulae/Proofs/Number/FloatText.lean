import Formulae.Token.Piece
import Mathlib.Tactic.Ring

/-!
# The text of a double

A finite double without a sign is written as digits, a point, and digits
(`floatLiteral_eq_of_finite`).  Whole numbers get their point from the printer.
Any other double gets it from the fewest digits: an exponent that is not negative
would put a whole number strictly between the neighbours of a double that is none.
-/

namespace Formulae.Number

/-! ## The fewest digits of a double with a fraction -/

namespace Decimal

/-- Stripping zeros moves them to the exponent. -/
theorem strip_go_eq (steps digits : Nat) (exponent : Int) :
    ∃ zeros : Nat, (strip.go steps digits exponent).exponent = exponent + zeros ∧
      (strip.go steps digits exponent).digits * 10 ^ zeros = digits := by
  induction steps generalizing digits exponent with
  | zero => exact ⟨0, by simp [strip.go]⟩
  | succ steps inductionHypothesis =>
      unfold strip.go
      split
      · next divisible =>
          rcases inductionHypothesis (digits / 10) (exponent + 1) with ⟨zeros, shifted, scaled⟩
          refine ⟨zeros + 1, by rw [shifted]; omega, ?_⟩
          rw [Nat.pow_succ, ← Nat.mul_assoc, scaled]
          omega
      · exact ⟨0, by simp⟩

theorem strip_zero (exponent : Int) : (strip ⟨0, exponent⟩) = ⟨0, exponent⟩ := by
  simp [strip, strip.go]

theorem strip_eq (d : Decimal) :
    ∃ zeros : Nat, d.strip.exponent = d.exponent + zeros ∧
      d.strip.digits * 10 ^ zeros = d.digits :=
  strip_go_eq _ _ _

end Decimal

namespace Shortest

/-- What the search gives lies in the interval, or it is the zero after the last
grid. -/
theorem search_eq (range : Interval) (top : Int) (attempts count : Nat) :
    (contains range (search range top attempts count).digits
        (search range top attempts count).exponent = true) ∨
      search range top attempts count = ⟨0, top - (count + attempts : Nat)⟩ := by
  induction attempts generalizing count with
  | zero => exact .inr rfl
  | succ attempts inductionHypothesis =>
      simp only [search]
      cases chosen : candidate range (top - count) with
      | none =>
          rcases inductionHypothesis (count + 1) with inside | failed
          · exact .inl inside
          · have counts : count + 1 + attempts = count + (attempts + 1) := by omega
            exact .inr (by rw [failed, counts])
      | some digits =>
          left
          simp only [candidate] at chosen
          split at chosen
          · next both =>
              rw [Bool.and_eq_true] at both
              split at chosen <;> cases chosen
              · exact both.1
              · exact both.2
          · split at chosen
            · next lower => cases chosen; exact lower
            · split at chosen
              · next upper => cases chosen; exact upper
              · cases chosen

/-- A whole number in the interval of a double is the double itself. -/
theorem whole_of_contains {significand places whole zeros : Nat} {digits : Nat} {grid : Int}
    (inside : contains (interval significand (-(places : Int))) digits grid)
    (scaled : whole * 10 ^ zeros = digits) (shifted : 0 ≤ grid + zeros) :
    whole * 10 ^ (grid + zeros).toNat * 2 ^ places = significand := by
  have exponents : zeros + grid.toNat = (grid + zeros).toNat + (-grid).toNat := by omega
  have aligned : digits * 10 ^ grid.toNat
      = whole * 10 ^ (grid + zeros).toNat * 10 ^ (-grid).toNat := by
    rw [← scaled, Nat.mul_assoc, ← Nat.pow_add, exponents, Nat.pow_add, Nat.mul_assoc]
  have unit : (-(-(places : Int) - 2)).toNat = places + 2 := by omega
  have units : (-(places : Int) - 2).toNat = 0 := by omega
  have point : digits * (10 ^ grid.toNat * 2 ^ (places + 2))
      = 4 * (whole * 10 ^ (grid + zeros).toNat * 2 ^ places) * 10 ^ (-grid).toNat := by
    have four : 2 ^ 2 = 4 := rfl
    rw [← Nat.mul_assoc, aligned, Nat.pow_add, four]
    ring
  have low : (interval significand (-(places : Int))).low ≤
      4 * (whole * 10 ^ (grid + zeros).toNat * 2 ^ places) ∧
      4 * (whole * 10 ^ (grid + zeros).toNat * 2 ^ places) ≤
        (interval significand (-(places : Int))).high := by
    have positive : 0 < 10 ^ (-grid).toNat := Nat.pow_pos (by decide)
    simp only [contains, onGrid, interval, units, unit, Nat.shiftLeft_eq, Nat.pow_eq, Nat.pow_zero,
      Nat.mul_one, point] at inside
    split at inside <;>
      simp only [Bool.and_eq_true, decide_eq_true_eq] at inside
    · exact ⟨Nat.le_of_mul_le_mul_right inside.1 positive,
        Nat.le_of_mul_le_mul_right inside.2 positive⟩
    · exact ⟨Nat.le_of_lt (Nat.lt_of_mul_lt_mul_right inside.1),
        Nat.le_of_lt (Nat.lt_of_mul_lt_mul_right inside.2)⟩
  simp only [interval] at low
  split at low <;> omega

/-- Doubles below `2 ^ 52` have at most sixteen digits before the point. -/
theorem magnitude_interval_le {significand places : Nat} (bound : significand < 2 ^ 53)
    (positive : 0 < places) : magnitude (interval significand (-(places : Int))) ≤ 16 := by
  have unit : (-(-(places : Int) - 2)).toNat = places + 2 := by omega
  have units : (-(places : Int) - 2).toNat = 0 := by omega
  have grid : (- -(decimalRange : Int)).toNat = decimalRange := by omega
  have grids : (-(decimalRange : Int)).toNat = 0 := by omega
  simp only [magnitude, onGrid, interval, units, unit, grid, grids, Nat.shiftLeft_eq, Nat.pow_eq,
    Nat.pow_zero, Nat.mul_one, Nat.one_mul]
  have quotient : 4 * significand * 10 ^ decimalRange / 2 ^ (places + 2)
      < 10 ^ (decimalRange + 16) := by
    apply Nat.div_lt_of_lt_mul
    calc 4 * significand * 10 ^ decimalRange < 2 ^ 3 * 10 ^ 16 * 10 ^ decimalRange :=
          Nat.mul_lt_mul_of_pos_right (by omega) (Nat.pow_pos (by decide))
      _ = 2 ^ 3 * 10 ^ (decimalRange + 16) := by rw [Nat.pow_add]; ac_rfl
      _ ≤ 2 ^ (places + 2) * 10 ^ (decimalRange + 16) :=
          Nat.mul_le_mul_right _ (Nat.pow_le_pow_right (by decide) (by omega))
  have short := (Nat.length_toDigits_le_iff (b := 10) (by decide) (by omega)).mpr quotient
  clear quotient
  generalize (Nat.toDigits 10 _).length = count at short ⊢
  omega

/-- The fewest digits of a double with a fraction go on behind the point. -/
theorem digits_exponent_neg {significand places : Nat} (bound : significand < 2 ^ 53)
    (positive : 0 < places) (fraction : ∀ whole, whole * 2 ^ places ≠ significand) :
    (digits significand (-(places : Int))).exponent < 0 := by
  simp only [digits]
  rcases search_eq (interval significand (-(places : Int)))
    (magnitude (interval significand (-(places : Int)))) maxDigits 1 with inside | failed
  · rcases Decimal.strip_eq (search (interval significand (-(places : Int)))
      (magnitude (interval significand (-(places : Int)))) maxDigits 1) with
      ⟨zeros, shifted, scaled⟩
    rw [shifted]
    by_cases whole : 0 ≤ (search (interval significand (-(places : Int)))
      (magnitude (interval significand (-(places : Int)))) maxDigits 1).exponent + zeros
    · exact absurd (whole_of_contains inside scaled whole) (fraction _)
    · omega
  · rw [failed, Decimal.strip_zero]
    have := magnitude_interval_le bound positive
    simp only [maxDigits]
    omega

end Shortest

/-! ## Positional text -/

/-- Digits, a point, and digits. -/
def IsDecimalText (text : List Char) : Prop :=
  ∃ whole fraction : List Char, text = whole ++ '.' :: fraction ∧ whole ≠ [] ∧ fraction ≠ [] ∧
    (∀ c ∈ whole, c.isDigit) ∧ ∀ c ∈ fraction, c.isDigit

theorem isDigit_of_mem_toDigits {n : Nat} {c : Char} (h : c ∈ Nat.toDigits 10 n) : c.isDigit :=
  Nat.isDigit_of_mem_toDigits (by decide) (by decide) h

theorem Decimal.isDecimalText_render {d : Decimal} (h : d.exponent < 0) :
    IsDecimalText d.render.toList := by
  have places : 0 < (-d.exponent).toNat := by omega
  simp only [Decimal.render, Int.not_le.mpr h, if_false, String.toList_ofList]
  have digits : ∀ c ∈ List.replicate ((-d.exponent).toNat + 1 - (Nat.toDigits 10 d.digits).length)
      '0' ++ Nat.toDigits 10 d.digits, c.isDigit := by
    intro c member
    rcases List.mem_append.mp member with zero | digit
    · rw [List.eq_of_mem_replicate zero]; decide
    · exact isDigit_of_mem_toDigits digit
  have length : (-d.exponent).toNat < (List.replicate ((-d.exponent).toNat + 1
      - (Nat.toDigits 10 d.digits).length) '0' ++ Nat.toDigits 10 d.digits).length := by
    simp only [List.length_append, List.length_replicate]
    omega
  refine ⟨_, _, rfl, ?_, ?_, fun c h => digits c (List.mem_of_mem_take h),
    fun c h => digits c (List.mem_of_mem_drop h)⟩
  · simp only [ne_eq, List.take_eq_nil_iff]
    rintro (none | empty)
    · omega
    · simp [empty] at length
  · simp only [ne_eq, List.drop_eq_nil_iff]
    omega

theorem Binary.significand_lt {x : Float} {negative : Bool} {significand : Nat} {exponent : Int}
    (h : Binary.ofFloat x = .finite negative significand exponent) : significand < 2 ^ 53 := by
  have fraction : x.toBits.toNat % hiddenBit < 2 ^ 52 := Nat.mod_lt _ (by decide)
  have hidden : hiddenBit = 2 ^ 52 := by decide
  simp only [Binary.ofFloat] at h
  split at h
  · split at h <;> cases h
  · split at h <;> cases h
    · omega
    · omega

/-- A finite double without a sign is digits, a point, and digits. -/
theorem isDecimalText_floatLiteral {x : Float} {significand : Nat} {exponent : Int}
    (finite : Binary.ofFloat x = .finite false significand exponent) :
    IsDecimalText (floatLiteral x).toList := by
  have bound := Binary.significand_lt finite
  simp only [floatLiteral, finite]
  cases whole : (Binary.finite false significand exponent).integer? with
  | some magnitude =>
      refine ⟨Nat.toDigits 10 magnitude, ['0'], ?_, Nat.toDigits_ne_nil, by simp,
        fun _ => isDigit_of_mem_toDigits, by simp⟩
      simp [Binary.isNegative]
  | none =>
      simp only [Binary.integer?] at whole
      split at whole
      · cases whole
      · next negative =>
          split at whole
          · cases whole
          · next fraction =>
              obtain ⟨places, rfl⟩ : ∃ places : Nat, exponent = -(places : Int) :=
                ⟨(-exponent).toNat, by omega⟩
              have noWhole : ∀ n, n * 2 ^ places ≠ significand := by
                rintro n rfl
                apply fraction
                have : (- -(places : Int)).toNat = places := by omega
                rw [this, Nat.shiftRight_eq_div_pow, Nat.shiftLeft_eq,
                  Nat.mul_div_cancel _ (Nat.pow_pos (by decide))]
              have nonzero : significand ≠ 0 := fun zero => noWhole 0 (by simp [zero])
              simp only [renderFloat, finite, nonzero, if_false, Bool.false_eq_true]
              exact Decimal.isDecimalText_render
                (Shortest.digits_exponent_neg bound (by omega) noWhole)

end Formulae.Number
