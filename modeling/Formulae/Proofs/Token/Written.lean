import Formulae.Proofs.Token.LongestMatch
import Formulae.Proofs.Number.FloatText

/-!
# Reading a written token

The text of a token is read as that token again, whatever follows, as long as
the next character is none that the token would draw in (`Token.Kind.absorbs`).
`Token.Kind.Lexed` says which tokens source can give at all: numbers without a
sign, and names that are no reserved words.
-/

namespace Formulae

namespace Number

/-- A finite double without a sign whose text is read as the same double. -/
structure Rereads (x : Float) : Prop where
  finite : ∃ significand exponent, Binary.ofFloat x = .finite false significand exponent
  value : Lexer.decimalValue (floatLiteral x).toList = x

end Number

namespace Lexer

/-- A word that is neither reserved nor a basic type. -/
structure IsName (name : String) : Prop where
  spelled : ∃ first rest, name.toList = first :: rest ∧ startsWord first ∧
    ∀ c ∈ rest, continuesWord c
  free : wordKind name = .ident name

end Lexer

namespace Token.Kind

/-- The tokens that source can give, when its doubles are among `floats`. -/
def Lexed (floats : Float → Prop) : Token.Kind → Prop
  | .int value => 0 ≤ value.toInt
  | .float value => floats value
  | .ident name => Lexer.IsName name
  | .endOfInput => False
  | .string _ | .keyword _ | .basicType _ | .mark _ => True

/-- A character that, right behind the token, would become part of it. -/
def absorbs : Token.Kind → Char → Bool
  | .int _, c => c.isDigit || c = '.'
  | .float _, c => c.isDigit
  | .string _, _ | .endOfInput, _ => false
  | .ident _, c | .keyword _, c | .basicType _, c => Lexer.continuesWord c
  | .mark symbol, c =>
      (Mark.all.any fun other => (symbol.chars ++ [c]).isPrefixOf other.chars)
        || (symbol = .slash && c = '/')

/-- What follows the token does not become part of it. -/
def StopsBefore (kind : Token.Kind) (rest : List Char) : Prop :=
  ∀ c ∈ rest.head?, kind.absorbs c = false

end Token.Kind

namespace Lexer

/-! ## Classes of characters -/

theorem takeWhile_append_of_stop {p : Char → Bool} {text rest : List Char}
    (all : ∀ c ∈ text, p c) (stop : ∀ c ∈ rest.head?, p c = false) :
    (text ++ rest).takeWhile p = text := by
  have nothing : rest.takeWhile p = [] := by
    cases rest with
    | nil => rfl
    | cons c more => simp [stop c rfl]
  rw [List.takeWhile_append_of_pos all, nothing, List.append_nil]

theorem separator_of_isSeparator {c : Char} (h : isSeparator c) :
    c = ' ' ∨ c = '\t' ∨ c = '\r' ∨ c = '\n' := by
  simp only [isSeparator, Bool.or_eq_true, decide_eq_true_eq, or_assoc] at h
  exact h

theorem toNat_of_isDigit {c : Char} (h : c.isDigit) : 48 ≤ c.toNat ∧ c.toNat ≤ 57 := by
  simp only [Char.isDigit, Bool.and_eq_true, decide_eq_true_eq, ge_iff_le,
    UInt32.le_iff_toNat_le] at h
  exact h

theorem isAlpha_eq (c : Char) :
    c.isAlpha = (decide (c.val ≥ 65 ∧ c.val ≤ 90) || (decide (c.val ≥ 97) && c.val ≤ 122)) :=
  rfl

theorem toNat_of_startsWord {c : Char} (h : startsWord c) :
    (65 ≤ c.toNat ∧ c.toNat ≤ 90) ∨ (97 ≤ c.toNat ∧ c.toNat ≤ 122) ∨ c.toNat = 95 := by
  simp only [startsWord, isAlpha_eq, ge_iff_le, UInt32.le_iff_toNat_le, Bool.or_eq_true,
    Bool.and_eq_true, decide_eq_true_eq] at h
  rcases h with (h | h) | rfl
  · exact .inl h
  · exact .inr (.inl h)
  · exact .inr (.inr rfl)

theorem isDigit_of_isDigit_of_startsWord {c : Char} (h : startsWord c) : c.isDigit = false := by
  cases digit : c.isDigit with
  | false => rfl
  | true =>
      have := toNat_of_isDigit digit
      have := toNat_of_startsWord h
      omega

/-- A pattern that accepts a word accepts nothing but words. -/
theorem eq_word_of_startsWith {pattern : Pattern} {c : Char} (word : startsWord c)
    (h : pattern.startsWith c) : pattern = .word := by
  have range := toNat_of_startsWord word
  cases pattern with
  | word => rfl
  | blanks => rcases separator_of_isSeparator h with rfl | rfl | rfl | rfl <;> simp at range
  | comment => simp only [Pattern.startsWith, decide_eq_true_eq] at h; subst h; simp at range
  | quoted => simp only [Pattern.startsWith, decide_eq_true_eq] at h; subst h; simp at range
  | digits | decimal => simp [Pattern.startsWith, isDigit_of_isDigit_of_startsWord word] at h
  | mark symbol =>
      simp only [Pattern.startsWith, decide_eq_true_eq] at h
      cases symbol <;> simp only [Mark.chars, List.head?_cons, Option.some.injEq] at h <;>
        subst h <;> simp at range

/-- A text that starts with a digit is a number. -/
theorem number_of_startsWith {pattern : Pattern} {c : Char} (digit : c.isDigit)
    (h : pattern.startsWith c) : pattern = .digits ∨ pattern = .decimal := by
  have range := toNat_of_isDigit digit
  cases pattern with
  | digits => exact .inl rfl
  | decimal => exact .inr rfl
  | word => simp [isDigit_of_isDigit_of_startsWord h] at digit
  | blanks => rcases separator_of_isSeparator h with rfl | rfl | rfl | rfl <;> simp at range
  | comment => simp only [Pattern.startsWith, decide_eq_true_eq] at h; subst h; simp at range
  | quoted => simp only [Pattern.startsWith, decide_eq_true_eq] at h; subst h; simp at range
  | mark symbol =>
      simp only [Pattern.startsWith, decide_eq_true_eq] at h
      cases symbol <;> simp only [Mark.chars, List.head?_cons, Option.some.injEq] at h <;>
        subst h <;> simp at range

/-! ## One lemma for each form of token -/

theorem longestMatch_word {first : Char} {rest after : List Char} (start : startsWord first)
    (more : ∀ c ∈ rest, continuesWord c) (stop : ∀ c ∈ after.head?, continuesWord c = false) :
    longestMatch (first :: rest ++ after) = some ⟨.word, (first :: rest).length⟩ := by
  apply longestMatch_eq_some
  · simp [Pattern.longest, start, takeWhile_append_of_stop more stop, Nat.add_comm]
  · intro other length different reached
    exact absurd (eq_word_of_startsWith start (Pattern.startsWith_of_longest reached)) different

theorem longestMatch_digits {text after : List Char} (nonempty : text ≠ [])
    (digits : ∀ c ∈ text, c.isDigit)
    (stop : ∀ c ∈ after.head?, (c.isDigit || c = '.') = false) :
    longestMatch (text ++ after) = some ⟨.digits, text.length⟩ := by
  have stopDigit : ∀ c ∈ after.head?, c.isDigit = false := fun c h =>
    (Bool.or_eq_false_iff.mp (stop c h)).1
  have taken := takeWhile_append_of_stop digits stopDigit
  apply longestMatch_eq_some
  · simp [Pattern.longest, taken, nonempty]
  · intro other length different reached
    obtain ⟨first, rest, rfl⟩ := List.exists_cons_of_ne_nil nonempty
    rcases number_of_startsWith (digits first (by simp))
      (Pattern.startsWith_of_longest reached) with rfl | rfl
    · exact absurd rfl different
    · -- No point follows, so there is no decimal number here.
      simp only [Pattern.longest, taken, List.drop_left] at reached
      split at reached
      · simp at stop
      · cases reached

theorem longestMatch_decimal {whole fraction after : List Char} (nonempty : whole ≠ [])
    (nonemptyFraction : fraction ≠ []) (digits : ∀ c ∈ whole, c.isDigit)
    (fractionDigits : ∀ c ∈ fraction, c.isDigit)
    (stop : ∀ c ∈ after.head?, c.isDigit = false) :
    longestMatch (whole ++ '.' :: fraction ++ after)
      = some ⟨.decimal, (whole ++ '.' :: fraction).length⟩ := by
  have taken : (whole ++ '.' :: (fraction ++ after)).takeWhile Char.isDigit = whole :=
    takeWhile_append_of_stop digits (by simp)
  have takenFraction := takeWhile_append_of_stop fractionDigits stop
  rw [List.append_assoc, List.cons_append]
  apply longestMatch_eq_some
  · simp only [Pattern.longest, taken, List.drop_left, takenFraction]
    simp [nonempty, nonemptyFraction]
    omega
  · intro other length different reached
    obtain ⟨first, rest, rfl⟩ := List.exists_cons_of_ne_nil nonempty
    rcases number_of_startsWith (digits first (by simp))
      (Pattern.startsWith_of_longest reached) with rfl | rfl
    · simp only [Pattern.longest, taken] at reached
      simp only [List.length_cons, Nat.add_eq_zero_iff, Nat.succ_ne_self, and_false, if_false,
        Option.some.injEq] at reached
      simp only [List.length_append, List.length_cons]
      omega
    · exact absurd rfl different

theorem closingQuote_encodeChar (c : Char) (rest : List Char) :
    Pattern.closingQuote (Text.Quoted.encodeChar c ++ rest)
      = (Pattern.closingQuote rest).map (· + (Text.Quoted.encodeChar c).length) := by
  unfold Text.Quoted.encodeChar
  split
  case h_6 notBackslash notQuote _ _ _ =>
    simp only [List.cons_append, List.nil_append]
    rw [Pattern.closingQuote] <;> simp_all
  all_goals simp [Pattern.closingQuote]

/-- The first quote that no backslash precedes is the one behind the text. -/
theorem closingQuote_encode (text rest : List Char) :
    Pattern.closingQuote (Text.Quoted.encode text ++ '"' :: rest)
      = some ((Text.Quoted.encode text).length + 1) := by
  induction text with
  | nil => simp [Text.Quoted.encode, Pattern.closingQuote]
  | cons c text inductionHypothesis =>
      have split : Text.Quoted.encode (c :: text)
          = Text.Quoted.encodeChar c ++ Text.Quoted.encode text := rfl
      rw [split, List.append_assoc, closingQuote_encodeChar, inductionHypothesis]
      simp
      omega

/-- A text in quotes that closes with its last quote is read as a literal. -/
theorem longestMatch_closed {body after : List Char}
    (closed : Pattern.closingQuote (body ++ '"' :: after) = some (body.length + 1)) :
    longestMatch ('"' :: body ++ ['"'] ++ after)
      = some ⟨.quoted, ('"' :: body ++ ['"']).length⟩ := by
  apply longestMatch_eq_some
  · simp [Pattern.longest, closed]
  · intro other length different reached
    have starts := Pattern.startsWith_of_longest reached
    cases other with
    | quoted => exact absurd rfl different
    | mark symbol => cases symbol <;> simp [Pattern.startsWith, Mark.chars] at starts
    | _ => simp [Pattern.startsWith, isSeparator, startsWord] at starts

theorem longestMatch_quoted (text after : List Char) :
    longestMatch ('"' :: Text.Quoted.encode text ++ ['"'] ++ after)
      = some ⟨.quoted, ('"' :: Text.Quoted.encode text ++ ['"']).length⟩ :=
  longestMatch_closed (closingQuote_encode text after)

/-- Of two marks at the same place the longer one goes on with a character that
the shorter one absorbs. -/
theorem absorbs_of_isPrefixOf {symbol other : Mark} {c : Char} {rest : List Char}
    (spelled : other.chars = symbol.chars ++ c :: rest) :
    (Token.Kind.mark symbol).absorbs c = true := by
  have goesOn : (symbol.chars ++ [c]).isPrefixOf other.chars = true := by
    rw [List.isPrefixOf_iff_prefix, spelled]
    exact ⟨rest, by simp⟩
  simp only [Token.Kind.absorbs, Bool.or_eq_true]
  exact .inl (List.any_eq_true.mpr ⟨other, Mark.mem_all other, goesOn⟩)

/-- Before a character that a mark does not absorb, no other mark reaches as far. -/
theorem length_lt_of_isPrefixOf {symbol other : Mark} {after : List Char}
    (stop : (Token.Kind.mark symbol).StopsBefore after) (different : other ≠ symbol)
    (found : other.chars <+: symbol.chars ++ after) :
    other.chars.length < symbol.chars.length := by
  rcases Nat.lt_or_ge other.chars.length symbol.chars.length with shorter | notShorter
  · exact shorter
  · rcases List.prefix_of_prefix_length_le (List.prefix_append symbol.chars after) found
      notShorter with ⟨tail, spelled⟩
    cases tail with
    | nil =>
        rw [List.append_nil] at spelled
        exact absurd (Mark.chars_injective spelled.symm) different
    | cons c tail =>
        have next : after.head? = some c := by
          rw [← spelled, List.prefix_append_right_inj] at found
          rcases found with ⟨more, rfl⟩
          rfl
        have absorbed := absorbs_of_isPrefixOf spelled.symm
        simp [stop c next] at absorbed

theorem longestMatch_mark {symbol : Mark} {after : List Char}
    (stop : (Token.Kind.mark symbol).StopsBefore after) :
    longestMatch (symbol.chars ++ after) = some ⟨.mark symbol, symbol.chars.length⟩ := by
  apply longestMatch_eq_some
  · simp [Pattern.longest]
  · intro other length different reached
    cases other with
    | mark longer =>
        simp only [Pattern.longest] at reached
        split at reached <;> cases reached
        next found =>
          rw [List.isPrefixOf_iff_prefix] at found
          exact length_lt_of_isPrefixOf stop (fun same => different (congrArg _ same)) found
    | comment =>
        -- Only a slash could start a comment, and it absorbs the second one.
        cases symbol
        case slash =>
          cases after with
          | nil => simp [Mark.chars, Pattern.longest] at reached
          | cons c after =>
              by_cases second : c = '/'
              · subst second
                have := stop '/' rfl
                simp [Token.Kind.absorbs] at this
              · simp [Mark.chars, Pattern.longest, second] at reached
        all_goals simp [Mark.chars, Pattern.longest] at reached
    | _ =>
        obtain ⟨first, rest, spelled⟩ := List.exists_cons_of_ne_nil (Mark.chars_ne_nil symbol)
        rw [spelled, List.cons_append] at reached
        have starts := Pattern.startsWith_of_longest reached
        cases symbol <;> cases spelled <;> exact absurd starts (by decide)

end Lexer

namespace Token.Kind

open Lexer

/-- What reading the text of a token has to give, whatever stands behind it. -/
structure ReadsBack (kind : Token.Kind) (rest : List Char) : Prop where
  nonempty : kind.text.toList ≠ []
  chosen : ∃ pattern, longestMatch (kind.text.toList ++ rest)
      = some ⟨pattern, kind.text.toList.length⟩ ∧ meaning pattern kind.text.toList = .token kind

theorem readsBack_of_word {kind : Token.Kind} {rest : List Char}
    (spelled : ∃ first more, kind.text.toList = first :: more ∧ startsWord first ∧
      ∀ c ∈ more, continuesWord c)
    (free : wordKind kind.text = kind)
    (stop : ∀ c ∈ rest.head?, continuesWord c = false) : kind.ReadsBack rest := by
  rcases spelled with ⟨first, more, letters, start, continues⟩
  refine ⟨by simp [letters], .word, ?_, ?_⟩
  · rw [letters]
    exact longestMatch_word start continues stop
  · rw [meaning, String.ofList_toList, free]

theorem digitsValue_toDigits (n : Nat) : Number.digitsValue (Nat.toDigits 10 n) = n := by
  have spelled : Number.digitsValue (Nat.toDigits 10 n)
      = Nat.ofDigitChars 10 (Nat.toDigits 10 n) 0 := by
    simp only [Number.digitsValue, Nat.ofDigitChars, Nat.mul_comm]
  rw [spelled, Nat.ofDigitChars_ten_toDigits]

theorem text_int {value : Int64} {n : Nat} (isNat : value.toInt = n) :
    (Token.Kind.int value).text.toList = Nat.toDigits 10 n := by
  simp only [text, isNat]
  exact Nat.toList_repr

theorem readsBack_int {value : Int64} {rest : List Char} (unsigned : 0 ≤ value.toInt)
    (stop : (Token.Kind.int value).StopsBefore rest) : (Token.Kind.int value).ReadsBack rest := by
  obtain ⟨n, isNat⟩ := Int.eq_ofNat_of_zero_le unsigned
  have written := text_int isNat
  have bound : n < 0x8000000000000000 := by
    have := Int64.toInt_lt value
    omega
  refine ⟨by simp [written], .digits, ?_, ?_⟩
  · rw [written]
    exact longestMatch_digits Nat.toDigits_ne_nil (fun _ => Number.isDigit_of_mem_toDigits) stop
  · have exact : Int64.ofNat n = value := by
      rw [← Int64.toInt_inj, Int64.toInt_ofNat_of_lt (by omega), isNat]
    simp only [written, meaning, digitsValue_toDigits, bound, if_true, exact]

theorem readsBack_float {value : Float} {rest : List Char} (rereads : Number.Rereads value)
    (stop : (Token.Kind.float value).StopsBefore rest) :
    (Token.Kind.float value).ReadsBack rest := by
  rcases rereads.finite with ⟨significand, exponent, finite⟩
  rcases Number.isDecimalText_floatLiteral finite with
    ⟨whole, fraction, written, wholeDigits, fractionDigits, allDigits, allFraction⟩
  have literal : (Token.Kind.float value).text.toList = whole ++ '.' :: fraction := written
  refine ⟨by simp [literal], .decimal, ?_, ?_⟩
  · rw [literal]
    exact longestMatch_decimal wholeDigits fractionDigits allDigits allFraction stop
  · exact congrArg (fun x => Meaning.token (.float x)) rereads.value

theorem readsBack_string (contents : String) (rest : List Char) :
    (Token.Kind.string contents).ReadsBack rest := by
  have written : (Token.Kind.string contents).text.toList
      = '"' :: Text.Quoted.encode contents.toList ++ ['"'] := by
    simp [text, Text.Quoted.literal]
  refine ⟨by simp [written], .quoted, ?_, ?_⟩
  · rw [written]
    exact longestMatch_quoted contents.toList rest
  · simp [written, meaning, Text.Quoted.decode_encode]

theorem readsBack_mark {symbol : Mark} {rest : List Char}
    (stop : (Token.Kind.mark symbol).StopsBefore rest) :
    (Token.Kind.mark symbol).ReadsBack rest := by
  have written : (Token.Kind.mark symbol).text.toList = symbol.chars := by
    simp [text, Mark.text]
  refine ⟨by simp [written, Mark.chars_ne_nil], .mark symbol, ?_, rfl⟩
  rw [written]
  exact longestMatch_mark stop

/-- A token that source can give is read from its own text, as long as what
follows does not become part of it. -/
theorem readsBack {kind : Token.Kind} {rest : List Char} (lexed : kind.Lexed Number.Rereads)
    (stop : kind.StopsBefore rest) : kind.ReadsBack rest := by
  cases kind with
  | int value => exact readsBack_int lexed stop
  | float value => exact readsBack_float lexed stop
  | string contents => exact readsBack_string contents rest
  | ident name => exact readsBack_of_word lexed.spelled lexed.free stop
  | keyword word =>
      apply readsBack_of_word _ _ stop
      · cases word <;> exact ⟨_, _, rfl, rfl, List.all_eq_true.mp rfl⟩
      · cases word <;> rfl
  | basicType type =>
      apply readsBack_of_word _ _ stop
      · cases type <;> exact ⟨_, _, rfl, rfl, List.all_eq_true.mp rfl⟩
      · cases type <;> rfl
  | mark symbol => exact readsBack_mark stop
  | endOfInput => exact lexed.elim

end Token.Kind

end Formulae
