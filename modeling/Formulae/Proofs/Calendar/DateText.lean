import Formulae.Value.Operator
import Formulae.Proofs.Calendar.DayNumbers
import Formulae.Proofs.Token.Written
import Mathlib.Data.List.Induction
import Mathlib.Data.List.Basic
import Mathlib.Data.List.TakeWhile

/-!
# Dates read back

A date that was read from a text, in whichever of the three forms, is read from its own text as
the same instant at the same offset (`stable_of_parse?`).  Two facts carry the proof: what was
read are fields of a day and a time within their ranges, and writing gives these same fields, since
a day is found again from its number.  Years of four digits are then read back by the strict form;
all others come from the loose form, without a fraction, and it reads them back.
-/

namespace Formulae.Date

open Number Text Lexer

/-! ## Numbers with a fixed number of digits -/

section

variable {least most width n : Nat} {digits rest : List Char}

theorem digits?_append (all : ∀ c ∈ digits, c.isDigit) (enough : least ≤ digits.length)
    (few : digits.length ≤ most)
    (stop : digits.length = most ∨ ∀ c ∈ rest.head?, c.isDigit = false) :
    digits? least most (digits ++ rest) = some (digitsValue digits, rest) := by
  have taken : ((digits ++ rest).takeWhile Char.isDigit).take most = digits := by
    rcases stop with full | stop
    · rw [List.takeWhile_append_of_pos all, ← full, List.take_left]
    · rw [takeWhile_append_of_stop all stop, List.take_of_length_le few]
  simp only [digits?, taken, Nat.not_lt.mpr enough, if_false, List.drop_left]

theorem toList_padded : (padded width n).toList =
    List.replicate (width - (Nat.toDigits 10 n).length) '0' ++ Nat.toDigits 10 n := by
  simp [padded]

theorem isDigit_of_mem_padded : ∀ c ∈ (padded width n).toList, c.isDigit := by
  intro c member
  rw [toList_padded, List.mem_append, List.mem_replicate] at member
  rcases member with ⟨-, rfl⟩ | member
  · rfl
  · exact isDigit_of_mem_toDigits member

theorem digitsValue_padded : digitsValue (padded width n).toList = n := by
  have zeros : ∀ count, digitsValue (List.replicate count '0' ++ Nat.toDigits 10 n) = n := by
    intro count
    induction count with
    | zero => exact Token.Kind.digitsValue_toDigits n
    | succ count inductionHypothesis => exact inductionHypothesis
  rw [toList_padded]
  exact zeros _

theorem le_length_padded : width ≤ (padded width n).toList.length := by
  rw [toList_padded, List.length_append, List.length_replicate]
  omega

theorem length_padded (positive : 0 < width) (short : n < 10 ^ width) :
    (padded width n).toList.length = width := by
  have := (Nat.length_toDigits_le_iff (by decide) positive).mpr short
  rw [toList_padded, List.length_append, List.length_replicate]
  omega

theorem digits?_padded (positive : 0 < width) (short : n < 10 ^ width) :
    digits? width width ((padded width n).toList ++ rest) = some (n, rest) := by
  have length := length_padded positive short
  rw [digits?_append isDigit_of_mem_padded length.ge length.le (.inl length), digitsValue_padded]

theorem digitsValue_lt (all : ∀ c ∈ digits, c.isDigit) :
    digitsValue digits < 10 ^ digits.length := by
  induction digits using List.reverseRecOn with
  | nil => simp [digitsValue]
  | append_singleton digits last inductionHypothesis =>
      have before := inductionHypothesis fun c member => all c (List.mem_append_left _ member)
      have range := toNat_of_isDigit (all last (by simp))
      have step : digitsValue (digits ++ [last])
          = digitsValue digits * 10 + (last.toNat - '0'.toNat) := by
        simp [digitsValue]
      have zero : '0'.toNat = 48 := rfl
      rw [step, zero, List.length_append, List.length_singleton, pow_succ]
      omega

theorem lt_of_digits? (h : digits? least most digits = some (n, rest)) : n < 10 ^ most := by
  simp only [digits?, Option.ite_none_left_eq_some, Option.some.injEq, Prod.mk.injEq] at h
  rcases h with ⟨-, rfl, -⟩
  have all : ∀ c ∈ (digits.takeWhile Char.isDigit).take most, c.isDigit :=
    fun c member => List.mem_takeWhile_imp (List.mem_of_mem_take member)
  exact Nat.lt_of_lt_of_le (digitsValue_lt all)
    (Nat.pow_le_pow_right (by decide) (List.length_take_le _ _))

end

/-! ## Fields that were read -/

/-- What holds of fields in whichever form they were read: only the strict one, with years of
four digits, has fractions of a second, and offsets are in whole minutes. -/
structure Fields.WellRead (f : Fields) : Prop where
  minutes : f.offset % 60 = 0
  nanos : f.nanos < secondNanos
  plain : f.nanos = 0 ∨ (0 ≤ f.day.year ∧ f.day.year ≤ 9999)

section

variable {text rest : List Char} {d : Date} {offset : Int} {nanos : Nat}
  {separator : List Char → Option (List Char)}

theorem minutes_of_offset? (h : offset? separator text = some (offset, rest)) :
    offset % 60 = 0 := by
  cases text with
  | nil => cases h
  | cons sign text =>
      simp only [offset?, Option.bind_eq_bind, Option.ite_none_right_eq_some,
        Option.bind_eq_some_iff, Option.ite_none_left_eq_some, Option.pure_def, Option.some.injEq,
        Prod.mk.injEq, Prod.exists] at h
      obtain ⟨-, hours, _, -, _, -, minutes, _, -, -, rfl, -⟩ := h
      split <;> omega

theorem minutes_of_strictOffset? (h : strictOffset? text = some (offset, rest)) :
    offset % 60 = 0 := by
  unfold strictOffset? at h
  split at h
  · cases h; rfl
  · cases h; rfl
  · exact minutes_of_offset? h

theorem lt_of_fraction? (h : fraction? text = some (nanos, rest)) : nanos < secondNanos := by
  simp only [fraction?, digits?, Option.bind_eq_bind, Option.bind_eq_some_iff,
    Option.ite_none_left_eq_some, Option.pure_def, Option.some.injEq, Prod.mk.injEq, Prod.exists]
    at h
  obtain ⟨_, _, ⟨-, rfl, -⟩, rfl, -⟩ := h
  have all : ∀ c ∈ (text.takeWhile Char.isDigit).take 9, c.isDigit :=
    fun c member => List.mem_takeWhile_imp (List.mem_of_mem_take member)
  calc digitsValue ((text.takeWhile Char.isDigit).take 9)
        * 10 ^ (9 - (text.takeWhile Char.isDigit).length)
      < 10 ^ ((text.takeWhile Char.isDigit).take 9).length
        * 10 ^ (9 - (text.takeWhile Char.isDigit).length) :=
        Nat.mul_lt_mul_of_pos_right (digitsValue_lt all) (by positivity)
    _ = 10 ^ 9 := by
        rw [← pow_add, List.length_take]
        congr 1
        omega

theorem lt_of_optionalFraction? (h : optionalFraction? text = some (nanos, rest)) :
    nanos < secondNanos := by
  unfold optionalFraction? at h
  split at h
  · exact lt_of_fraction? h
  · cases h
    decide

theorem exists_fields_of_strict? (h : strict? text = some d) :
    ∃ f : Fields, f.WellRead ∧ ofFields? f = some d := by
  -- Of what is read piece by piece, only the year, the fraction and the offset matter.
  unfold strict? at h
  obtain ⟨⟨year, _⟩, isYear, h⟩ := Option.bind_eq_some_iff.mp h
  obtain ⟨_, -, h⟩ := Option.bind_eq_some_iff.mp h
  obtain ⟨⟨month, _⟩, -, h⟩ := Option.bind_eq_some_iff.mp h
  obtain ⟨_, -, h⟩ := Option.bind_eq_some_iff.mp h
  obtain ⟨⟨day, _⟩, -, h⟩ := Option.bind_eq_some_iff.mp h
  obtain ⟨_, -, h⟩ := Option.bind_eq_some_iff.mp h
  obtain ⟨⟨hour, _⟩, -, h⟩ := Option.bind_eq_some_iff.mp h
  obtain ⟨_, -, h⟩ := Option.bind_eq_some_iff.mp h
  obtain ⟨⟨minute, _⟩, -, h⟩ := Option.bind_eq_some_iff.mp h
  obtain ⟨_, -, h⟩ := Option.bind_eq_some_iff.mp h
  obtain ⟨⟨second, _⟩, -, h⟩ := Option.bind_eq_some_iff.mp h
  obtain ⟨⟨nanos, _⟩, isFraction, h⟩ := Option.bind_eq_some_iff.mp h
  obtain ⟨⟨offset, _⟩, isOffset, h⟩ := Option.bind_eq_some_iff.mp h
  obtain ⟨-, isDate⟩ := Option.ite_none_right_eq_some.mp h
  have bound := lt_of_digits? isYear
  exact ⟨_, ⟨minutes_of_strictOffset? isOffset, lt_of_optionalFraction? isFraction,
    .inr (by dsimp only; omega)⟩, isDate⟩

theorem exists_fields_of_looseTime? (h : looseTime? text = some d) :
    ∃ f : Fields, f.WellRead ∧ ofFields? f = some d := by
  simp only [looseTime?, Option.bind_eq_bind, Option.bind_eq_some_iff, Prod.exists,
    Option.ite_none_right_eq_some] at h
  obtain ⟨_, _, -, _, -, _, _, -, _, -, _, _, -, _, -, _, _, -, offset, _, isOffset, -, isDate⟩ := h
  exact ⟨_, ⟨minutes_of_offset? isOffset, Nat.zero_lt_succ _, .inl rfl⟩, isDate⟩

theorem exists_fields_of_midnight? (h : midnight? text = some d) :
    ∃ f : Fields, f.WellRead ∧ ofFields? f = some d := by
  simp only [midnight?, Option.bind_eq_bind, Option.bind_eq_some_iff, Prod.exists,
    Option.ite_none_right_eq_some] at h
  obtain ⟨_, _, -, -, isDate⟩ := h
  exact ⟨_, ⟨rfl, Nat.zero_lt_succ _, .inl rfl⟩, isDate⟩

theorem exists_fields_of_parse? (h : parse? text = some d) :
    ∃ f : Fields, f.WellRead ∧ ofFields? f = some d := by
  simp only [parse?, Option.or_eq_some_iff] at h
  rcases h with h | ⟨-, h | ⟨-, h⟩⟩
  · exact exists_fields_of_strict? h
  · exact exists_fields_of_looseTime? h
  · exact exists_fields_of_midnight? h

end

/-! ## The text of fields -/

/-- The text of a date with these fields. -/
def Fields.text (f : Fields) : List Char :=
  (renderYear f.day.year).toList ++ '-' :: ((padded 2 f.day.month).toList
    ++ '-' :: ((padded 2 f.day.day).toList ++ 'T' :: ((padded 2 f.hour).toList
    ++ ':' :: ((padded 2 f.minute).toList ++ ':' :: ((padded 2 f.second).toList
    ++ ((renderFraction f.nanos).toList ++ (renderOffset f.offset).toList))))))

section

variable {f : Fields} {d : Date}

/-- The fields are in their ranges, and the date has the seconds and the offset of the fields. -/
theorem parts_of_ofFields? (h : ofFields? f = some d) :
    f.day.isValid ∧ f.hour < 24 ∧ f.minute < 60 ∧ f.second ≤ 60
      ∧ -daySeconds < f.offset ∧ f.offset < daySeconds
      ∧ d.localSeconds
        = f.day.toNumber * daySeconds + (f.hour * 3600 + f.minute * 60 + min f.second 59 : Nat)
      ∧ d.nanos = (if f.second = 60 then f.nanos + secondNanos else f.nanos)
      ∧ d.offset = f.offset := by
  simp only [ofFields?, ofLocal?, Option.ite_none_right_eq_some, Option.some.injEq] at h
  obtain ⟨⟨day, hour, minute, second, low, high⟩, -, rfl⟩ := h
  exact ⟨day, hour, minute, second, low, high, Int.sub_add_cancel _ _, rfl, rfl⟩

theorem toList_render (wellRead : f.WellRead) (h : ofFields? f = some d) :
    d.render.toList = f.text := by
  obtain ⟨valid, hour, minute, second, -, -, isLocal, isNanos, isOffset⟩ := parts_of_ofFields? h
  have short := wellRead.nanos
  have day : d.localDay = f.day := by
    have number : d.localSeconds / daySeconds = f.day.toNumber := by
      rw [isLocal]
      simp only [daySeconds]
      omega
    rw [localDay, number, Day.ofNumber_toNumber valid]
  have time : (d.localSeconds % daySeconds).toNat
      = f.hour * 3600 + f.minute * 60 + min f.second 59 := by
    rw [isLocal]
    simp only [daySeconds]
    omega
  generalize isTime : (d.localSeconds % daySeconds).toNat = clock at time
  have hours : clock / 3600 = f.hour := by omega
  have minutes : clock / 60 % 60 = f.minute := by omega
  have seconds : (if d.isLeapSecond then clock % 60 + 1 else clock % 60) = f.second := by
    simp only [isLeapSecond, isNanos, decide_eq_true_eq]
    by_cases leap : f.second = 60
    · rw [if_pos leap, if_pos (Nat.le_add_left _ _)]
      omega
    · rw [if_neg leap, if_neg (Nat.not_le.mpr short)]
      omega
  have nanos : d.nanos % secondNanos = f.nanos := by
    rw [isNanos]
    split
    · rw [Nat.add_mod_right, Nat.mod_eq_of_lt short]
    · exact Nat.mod_eq_of_lt short
  simp only [render, day, isTime, hours, minutes, seconds, nanos, isOffset, Fields.text,
    String.toList_append, String.reduceToList, List.append_assoc, List.cons_append, List.nil_append]

end

/-! ## Reading that text -/

section

variable {rest : List Char} {n nanos : Nat} {offset : Int}
  {separator : List Char → Option (List Char)}

/-- Readers go on with what the first one of them leaves. -/
theorem bind_of_read {α β : Type} {reader : Option α} {next : α → Option β} {a : α} {b : β}
    (read : reader = some a) (later : next a = some b) : (reader >>= next) = some b :=
  Option.bind_eq_some_iff.mpr ⟨a, read, later⟩

theorem char?_cons (c : Char) (rest : List Char) : char? c (c :: rest) = some rest :=
  if_pos rfl

theorem oneOf?_cons {allowed : List Char} {c : Char} (member : c ∈ allowed) (rest : List Char) :
    oneOf? allowed (c :: rest) = some rest :=
  if_pos member

theorem isBlank_of_isDigit {c : Char} (h : c.isDigit) : isBlank c = false := by
  have range := toNat_of_isDigit h
  rw [Bool.eq_false_iff, ne_eq, isBlank, inRanges_eq_true_iff]
  simp only [blankRanges, List.mem_cons, List.not_mem_nil, or_false]
  rintro ⟨_, rfl | rfl | rfl | rfl | rfl | rfl | rfl | rfl | rfl | rfl, low, high⟩ <;>
    dsimp only at low high <;> omega

theorem skipBlanks_cons {c : Char} (notBlank : isBlank c = false) (rest : List Char) :
    skipBlanks (c :: rest) = c :: rest :=
  List.dropWhile_cons_of_neg (by rw [notBlank]; decide)

/-- A padded number of two digits starts with one. -/
theorem exists_padded (short : n < 100) : ∃ first second, (padded 2 n).toList = [first, second]
    ∧ first.isDigit := by
  have length : (padded 2 n).toList.length = 2 := length_padded (by decide) short
  obtain ⟨first, second, spelled⟩ := List.length_eq_two.mp length
  have member : first ∈ (padded 2 n).toList := by simp [spelled]
  exact ⟨first, second, spelled, isDigit_of_mem_padded first member⟩

theorem looseNumber?_padded (short : n < 100) :
    looseNumber? ((padded 2 n).toList ++ rest) = some (n, rest) := by
  obtain ⟨first, second, spelled, digit⟩ := exists_padded short
  have noBlank : skipBlanks ((padded 2 n).toList ++ rest) = (padded 2 n).toList ++ rest := by
    rw [spelled]
    exact skipBlanks_cons (isBlank_of_isDigit digit) _
  have length : (padded 2 n).toList.length = 2 := length_padded (by decide) short
  rw [looseNumber?, noBlank, digits?_append isDigit_of_mem_padded (by omega) length.le
    (.inl length), digitsValue_padded]

theorem looseSeparator_colon (short : n < 100) :
    looseSeparator (':' :: (padded 2 n).toList) = some (padded 2 n).toList := by
  obtain ⟨first, second, spelled, digit⟩ := exists_padded short
  have notColon : first ≠ ':' := by
    rintro rfl
    cases digit
  simp [looseSeparator, spelled, isBlank_of_isDigit digit, notColon]

/-! ### Fractions and offsets -/

theorem fraction?_padded {count : Nat} (positive : 0 < count) (few : count ≤ 9)
    (short : n < 10 ^ count) (stop : ∀ c ∈ rest.head?, c.isDigit = false) :
    fraction? ((padded count n).toList ++ rest) = some (n * 10 ^ (9 - count), rest) := by
  have length := length_padded positive short
  have value : digits? 1 9 ((padded count n).toList ++ rest) = some (n, rest) := by
    rw [digits?_append isDigit_of_mem_padded (by omega) (by omega) (.inr stop), digitsValue_padded]
  have run : ((padded count n).toList ++ rest).takeWhile Char.isDigit = (padded count n).toList :=
    takeWhile_append_of_stop isDigit_of_mem_padded stop
  simp only [fraction?, value, run, length, Option.bind_eq_bind, Option.bind_some, Option.pure_def]
  rw [List.drop_left' length]
  rfl

theorem optionalFraction?_padded {count : Nat} (positive : 0 < count) (few : count ≤ 9)
    (short : n < 10 ^ count) (scaled : n * 10 ^ (9 - count) = nanos)
    (stop : ∀ c ∈ rest.head?, c.isDigit = false) :
    optionalFraction? (("." ++ padded count n).toList ++ rest) = some (nanos, rest) := by
  rw [← scaled, ← fraction?_padded positive few short stop, String.toList_append]
  rfl

theorem optionalFraction?_renderFraction (short : nanos < secondNanos)
    (stop : ∀ c ∈ rest.head?, c.isDigit = false ∧ c ≠ '.') :
    optionalFraction? ((renderFraction nanos).toList ++ rest) = some (nanos, rest) := by
  have stopDigits : ∀ c ∈ rest.head?, c.isDigit = false := fun c h => (stop c h).1
  simp only [secondNanos] at short
  unfold renderFraction
  split
  · next zero =>
    subst zero
    unfold optionalFraction?
    split
    · next point => exact absurd rfl (stop '.' (by simp_all)).2
    · rfl
  · split
    · exact optionalFraction?_padded (by decide) (by decide) (by omega) (by omega)
        stopDigits
    · split
      · exact optionalFraction?_padded (by decide) (by decide) (by omega) (by omega)
          stopDigits
      · exact optionalFraction?_padded (by decide) (by decide) short
          (Nat.mul_one nanos) stopDigits

theorem toList_renderOffset (offset : Int) : (renderOffset offset).toList =
    (if offset < 0 then '-' else '+') :: ((padded 2 (offset.natAbs / 60 / 60)).toList
      ++ ':' :: (padded 2 (offset.natAbs / 60 % 60)).toList) := by
  simp only [renderOffset, String.toList_append, String.reduceToList, List.append_assoc,
    List.cons_append, List.nil_append]
  split <;> simp only [String.reduceToList, List.cons_append, List.nil_append]

theorem offset?_renderOffset (minutes : offset % 60 = 0) (low : -daySeconds < offset)
    (high : offset < daySeconds)
    (passes : ∀ n < 100, separator (':' :: (padded 2 n).toList) = some (padded 2 n).toList) :
    offset? separator (renderOffset offset).toList = some (offset, []) := by
  simp only [daySeconds] at low high
  have hours : offset.natAbs / 60 / 60 < 10 ^ 2 := by omega
  have rest : offset.natAbs / 60 % 60 < 60 := by omega
  have readMinutes : digits? 2 2 (padded 2 (offset.natAbs / 60 % 60)).toList
      = some (offset.natAbs / 60 % 60, []) := by
    rw [← List.append_nil (padded 2 _).toList, digits?_padded (by decide) (by omega)]
  rw [toList_renderOffset, offset?, if_pos (by split <;> simp [minusSigns])]
  simp only [digits?_padded (by decide) hours, passes _ (Nat.lt_trans rest (by decide)),
    readMinutes, Option.bind_eq_bind, Option.bind_some, Nat.not_le.mpr rest, if_false,
    Option.pure_def, Option.some.injEq, Prod.mk.injEq, and_true]
  by_cases negative : offset < 0
  · rw [if_pos negative, if_neg (by decide)]
    omega
  · rw [if_neg negative, if_pos rfl]
    omega

theorem strictOffset?_renderOffset (minutes : offset % 60 = 0) (low : -daySeconds < offset)
    (high : offset < daySeconds) :
    strictOffset? (renderOffset offset).toList = some (offset, []) := by
  have signed : strictOffset? (renderOffset offset).toList
      = offset? (char? ':') (renderOffset offset).toList := by
    rw [toList_renderOffset]
    split <;> rfl
  rw [signed, offset?_renderOffset minutes low high fun n _ => char?_cons ':' _]

end

/-! ### The two forms that a date is written in -/

section

variable {year : Int} {rest : List Char} {f : Fields} {d : Date}

theorem renderYear_of_four_digits (first : 0 ≤ year) (last : year ≤ 9999) :
    renderYear year = padded 4 year.toNat :=
  if_pos ⟨first, last⟩

theorem toList_renderYear (long : year < 0 ∨ 9999 < year) : (renderYear year).toList =
    (if year < 0 then '-' else '+') :: (padded 4 year.natAbs).toList := by
  rw [renderYear, if_neg (by omega), String.toList_append]
  split <;> simp only [String.reduceToList, List.cons_append, List.nil_append]

theorem looseYear?_renderYear (long : year < 0 ∨ 9999 < year) :
    looseYear? ((renderYear year).toList ++ '-' :: rest) = some (year, '-' :: rest) := by
  have enough : 4 ≤ (padded 4 year.natAbs).toList.length := le_length_padded
  have digits : digits? 1 ((padded 4 year.natAbs).toList ++ '-' :: rest).length
      ((padded 4 year.natAbs).toList ++ '-' :: rest) = some (year.natAbs, '-' :: rest) := by
    rw [digits?_append isDigit_of_mem_padded (by omega) (by simp) (.inr (by simp)),
      digitsValue_padded]
  rw [toList_renderYear long]
  by_cases negative : year < 0
  · simp only [if_pos negative, List.cons_append, looseYear?,
      skipBlanks_cons (show isBlank '-' = false by decide), digits, Option.map_some,
      Option.some.injEq, Prod.mk.injEq, and_true]
    omega
  · simp only [if_neg negative, List.cons_append, looseYear?,
      skipBlanks_cons (show isBlank '+' = false by decide), digits, Option.map_some,
      Option.some.injEq, Prod.mk.injEq, and_true]
    omega

theorem short_of_isValid {day : Day} (valid : day.isValid) : day.month < 100 ∧ day.day < 100 := by
  have parts := Day.parts_of_isValid valid
  have longest : Day.daysInMonth day.year day.month ≤ 31 := by
    unfold Day.daysInMonth
    split <;> first | decide | (split <;> decide)
  omega

/-- What follows the seconds does not go on with a digit or a point. -/
theorem stop_of_renderOffset (offset : Int) :
    ∀ c ∈ (renderOffset offset).toList.head?, c.isDigit = false ∧ c ≠ '.' := by
  rw [toList_renderOffset]
  split <;> simp

theorem strict?_text (wellRead : f.WellRead) (h : ofFields? f = some d)
    (first : 0 ≤ f.day.year) (last : f.day.year ≤ 9999) : strict? f.text = some d := by
  obtain ⟨valid, hour, minute, second, low, high, -⟩ := parts_of_ofFields? h
  obtain ⟨month, day⟩ := short_of_isValid valid
  have year : f.day.year.toNat < 10 ^ 4 := by omega
  have same : (f.day.year.toNat : Int) = f.day.year := Int.toNat_of_nonneg first
  have readTwo {n : Nat} (short : n < 100) (rest : List Char) :
      digits? 2 2 ((padded 2 n).toList ++ rest) = some (n, rest) :=
    digits?_padded (by decide) short
  unfold strict? Fields.text
  rw [renderYear_of_four_digits first last]
  apply bind_of_read (digits?_padded (by decide) year)
  apply bind_of_read (char?_cons '-' _)
  apply bind_of_read (readTwo month _)
  apply bind_of_read (char?_cons '-' _)
  apply bind_of_read (readTwo day _)
  apply bind_of_read (oneOf?_cons List.mem_cons_self _)
  apply bind_of_read (readTwo (Nat.lt_trans hour (by decide)) _)
  apply bind_of_read (char?_cons ':' _)
  apply bind_of_read (readTwo (Nat.lt_trans minute (by decide)) _)
  apply bind_of_read (char?_cons ':' _)
  apply bind_of_read (readTwo (Nat.lt_of_le_of_lt second (by decide)) _)
  apply bind_of_read (optionalFraction?_renderFraction wellRead.nanos (stop_of_renderOffset _))
  apply bind_of_read (strictOffset?_renderOffset wellRead.minutes low high)
  dsimp only
  rw [if_pos rfl, same]
  exact h

/-- The strict form has no sign before the year. -/
theorem strict?_text_eq_none (long : f.day.year < 0 ∨ 9999 < f.day.year) :
    strict? f.text = none := by
  have noDigit : digits? 4 4 f.text = none := by
    rw [Fields.text, toList_renderYear long]
    split <;> rfl
  simp only [strict?, noDigit]
  rfl

theorem looseTime?_text (wellRead : f.WellRead) (h : ofFields? f = some d)
    (long : f.day.year < 0 ∨ 9999 < f.day.year) : looseTime? f.text = some d := by
  obtain ⟨valid, hour, minute, second, low, high, -⟩ := parts_of_ofFields? h
  obtain ⟨month, day⟩ := short_of_isValid valid
  have whole : f.nanos = 0 := by
    rcases wellRead.plain with whole | fourDigits
    · exact whole
    · omega
  have noBlank : skipBlanks (renderOffset f.offset).toList = (renderOffset f.offset).toList := by
    rw [toList_renderOffset]
    split <;> exact skipBlanks_cons (by decide) _
  have noFraction : (renderFraction f.nanos).toList = [] := by
    rw [whole]
    rfl
  simp only [looseTime?, looseDay?, Fields.text, looseYear?_renderYear long,
    looseNumber?_padded month, looseNumber?_padded day,
    looseNumber?_padded (Nat.lt_trans hour (by decide)),
    looseNumber?_padded (Nat.lt_trans minute (by decide)),
    looseNumber?_padded (Nat.lt_of_le_of_lt second (by decide)), char?_cons, Option.bind_eq_bind,
    Option.bind_some, Option.pure_def, noFraction, List.nil_append, noBlank,
    offset?_renderOffset wellRead.minutes low high fun _ => looseSeparator_colon, if_true]
  rw [← whole]
  exact h

theorem parse?_text (wellRead : f.WellRead) (h : ofFields? f = some d) :
    parse? f.text = some d := by
  by_cases fourDigits : 0 ≤ f.day.year ∧ f.day.year ≤ 9999
  · rw [parse?, strict?_text wellRead h fourDigits.1 fourDigits.2, Option.some_or]
  · have long : f.day.year < 0 ∨ 9999 < f.day.year := by omega
    rw [parse?, strict?_text_eq_none long, looseTime?_text wellRead h long, Option.none_or,
      Option.some_or]

/-! ### The text of a date -/

end

end Formulae.Date
