import Formulae.Proofs.Token.Lexed
import Mathlib.Data.List.Induction
import Mathlib.Data.Nat.Digits.Defs

/-!
# The lexical grammar

The forms that tokens, and what stands between them, may have: `Form.Accepts` says which
texts have a form and `Form.Means` for which token a text of a form stands.  The patterns
find these forms and no others: a pattern reaches at least as far as any text of its forms
(`Form.le_longest_of_accepts`), and what it reaches over has a form
(`Form.exists_accepts_of_longest`).
-/

namespace Formulae

namespace Text.Quoted

/-- What a string literal is made of: characters other than the quote and the backslash, and
any character but a line feed behind a backslash. -/
inductive Item
  | plain (c : Char) (ordinary : c ≠ '"' ∧ c ≠ '\\')
  | escaped (c : Char) (sameLine : c ≠ '\n')

namespace Item

/-- The item as written. -/
def chars : Item → List Char
  | .plain c _ => [c]
  | .escaped c _ => ['\\', c]

/-- What the item stands for.  An escape without a meaning stands for itself. -/
def value : Item → List Char
  | .plain c _ => [c]
  | .escaped c _ =>
      if c = 'n' then ['\n'] else if c = 'r' then ['\r'] else if c = 't' then ['\t']
      else if c = '\\' ∨ c = '"' then [c] else ['\\', c]

end Item

theorem decode_plain_cons {c : Char} (noBackslash : c ≠ '\\') (rest : List Char) :
    decode (c :: rest) = c :: decode rest := by
  rw [decode] <;> simp_all

theorem decode_chars_append (item : Item) (rest : List Char) :
    decode (item.chars ++ rest) = item.value ++ decode rest := by
  cases item with
  | plain c ordinary => exact decode_plain_cons ordinary.2 rest
  | escaped c _ =>
      change decode ('\\' :: c :: rest) = (if c = 'n' then _ else _) ++ decode rest
      split_ifs with isFeed isReturn isTab stands
      · subst isFeed; rfl
      · subst isReturn; rfl
      · subst isTab; rfl
      · rcases stands with rfl | rfl <;> rfl
      · rw [not_or] at stands
        have kept : decode ('\\' :: c :: rest) = '\\' :: decode (c :: rest) := by
          rw [decode] <;> simp_all
        rw [kept, decode_plain_cons stands.1]
        rfl

/-- The contents of a literal are what its items stand for. -/
theorem decode_flatMap_chars (items : List Item) :
    decode (items.flatMap Item.chars) = items.flatMap Item.value := by
  induction items with
  | nil => rfl
  | cons item items inductionHypothesis =>
      rw [List.flatMap_cons, List.flatMap_cons, decode_chars_append, inductionHypothesis]

end Text.Quoted

open Text.Quoted (Item)

namespace Lexer

/-! ## Forms -/

/-- The forms of tokens and of what may stand between them. -/
inductive Form
  | blanks
  | comment
  | keyword (word : Keyword)
  | basicType (type : BasicType)
  | mark (symbol : Mark)
  | integer
  | float
  | string
  | name

/-- The number that decimal digits stand for. -/
def decimalNumber (digits : List Char) : Nat :=
  Nat.ofDigits 10 (digits.reverse.map fun digit => digit.toNat - '0'.toNat)

namespace Form

/-- Texts of this form only separate tokens. -/
def IsLayout : Form → Prop
  | .blanks | .comment => True
  | _ => False

/-- The text has the form. -/
def Accepts : Form → List Char → Prop
  | .blanks, text => text ≠ [] ∧ ∀ c ∈ text, c ∈ [' ', '\t', '\r', '\n']
  | .comment, text => ∃ body, text = '/' :: '/' :: body ∧ '\n' ∉ body
  | .keyword word, text => text = word.word.toList
  | .basicType type, text => text = type.word.toList
  | .mark symbol, text => text = symbol.chars
  | .integer, text => text ≠ [] ∧ ∀ c ∈ text, c.isDigit
  | .float, text => ∃ whole fraction, text = whole ++ '.' :: fraction ∧
      (whole ≠ [] ∧ ∀ c ∈ whole, c.isDigit) ∧ fraction ≠ [] ∧ ∀ c ∈ fraction, c.isDigit
  | .string, text => ∃ items : List Item, text = '"' :: items.flatMap Item.chars ++ ['"']
  | .name, text => ∃ first rest, text = first :: rest ∧ (first.isAlpha ∨ first = '_') ∧
      ∀ c ∈ rest, c.isAlphanum ∨ c = '_'

/-- A text of the form stands for the token. -/
def Means : Form → List Char → Token.Kind → Prop
  | .blanks, _, _ | .comment, _, _ => False
  | .keyword word, _, kind => kind = .keyword word
  | .basicType type, _, kind => kind = .basicType type
  | .mark symbol, _, kind => kind = .mark symbol
  | .integer, text, kind =>
      ∃ value : Int64, value.toInt = decimalNumber text ∧ kind = .int value
  | .float, text, kind => kind = .float (decimalValue text)
  | .string, text, kind => ∃ items : List Item, text = '"' :: items.flatMap Item.chars ++ ['"'] ∧
      kind = .string (String.ofList (items.flatMap Item.value))
  | .name, text, kind => kind = .ident (String.ofList text)

/-- The pattern that finds texts of the form. -/
def pattern : Form → Pattern
  | .blanks => .blanks
  | .comment => .comment
  | .keyword _ | .basicType _ | .name => .word
  | .mark symbol => .mark symbol
  | .integer => .digits
  | .float => .decimal
  | .string => .quoted

/-! ## Patterns reach over every text of their forms -/

theorem length_le_takeWhile (p : Char → Bool) {text : List Char} (all : ∀ c ∈ text, p c)
    (after : List Char) : text.length ≤ ((text ++ after).takeWhile p).length := by
  rw [List.takeWhile_append_of_pos all, List.length_append]
  exact Nat.le_add_right _ _

theorem isSeparator_iff {c : Char} : isSeparator c ↔ c ∈ [' ', '\t', '\r', '\n'] := by
  simp [isSeparator, or_assoc]

theorem startsWord_iff {c : Char} : startsWord c ↔ c.isAlpha ∨ c = '_' := by
  simp [startsWord]

theorem continuesWord_iff {c : Char} : continuesWord c ↔ c.isAlphanum ∨ c = '_' := by
  simp [continuesWord]

theorem accepts_name_cons {first : Char} {rest : List Char} (starts : startsWord first)
    (continues : rest.all continuesWord) : name.Accepts (first :: rest) :=
  ⟨first, rest, rfl, startsWord_iff.mp starts, fun c member =>
    continuesWord_iff.mp (List.all_eq_true.mp continues c member)⟩

theorem accepts_name_of_accepts_keyword {word : Keyword} {text : List Char}
    (accepts : (keyword word).Accepts text) : name.Accepts text := by
  subst accepts
  cases word <;> exact accepts_name_cons rfl rfl

theorem accepts_name_of_accepts_basicType {type : BasicType} {text : List Char}
    (accepts : (basicType type).Accepts text) : name.Accepts text := by
  subst accepts
  cases type <;> exact accepts_name_cons rfl rfl

theorem closingQuote_items (items : List Item) (rest : List Char) :
    Pattern.closingQuote (items.flatMap Item.chars ++ '"' :: rest)
      = some ((items.flatMap Item.chars).length + 1) := by
  induction items with
  | nil => simp [Pattern.closingQuote]
  | cons item items inductionHypothesis =>
      rw [List.flatMap_cons, List.append_assoc]
      cases item with
      | plain c ordinary =>
          change Pattern.closingQuote (c :: (items.flatMap Item.chars ++ '"' :: rest)) = _
          rw [Pattern.closingQuote, inductionHypothesis] <;> simp_all [Item.chars]
      | escaped c sameLine =>
          change Pattern.closingQuote ('\\' :: c :: (items.flatMap Item.chars ++ '"' :: rest)) = _
          simp [Pattern.closingQuote, inductionHypothesis, sameLine, Item.chars]

theorem le_longest_of_accepts_name {text : List Char} (accepts : name.Accepts text)
    (after : List Char) :
    ∃ count, Pattern.word.longest (text ++ after) = some count ∧ text.length ≤ count := by
  rcases accepts with ⟨first, rest, rfl, start, more⟩
  refine ⟨_, by rw [List.cons_append, Pattern.longest, if_pos (startsWord_iff.mpr start)], ?_⟩
  have := length_le_takeWhile continuesWord
    (fun c member => continuesWord_iff.mpr (more c member)) after
  rw [List.length_cons]
  omega

/-- A pattern reaches at least as far as any text of its forms. -/
theorem le_longest_of_accepts {form : Form} {text : List Char} (accepts : form.Accepts text)
    (after : List Char) :
    ∃ count, form.pattern.longest (text ++ after) = some count ∧ text.length ≤ count := by
  cases form with
  | blanks =>
      have := length_le_takeWhile isSeparator
        (fun c member => isSeparator_iff.mpr (accepts.2 c member)) after
      have := List.length_pos_iff.mpr accepts.1
      exact ⟨_, if_neg (by omega), by omega⟩
  | comment =>
      rcases accepts with ⟨body, rfl, line⟩
      have sameLine : ∀ c ∈ body, (fun c => decide (c ≠ '\n')) c := fun c member => by
        simpa using ne_of_mem_of_not_mem member line
      have := length_le_takeWhile (· ≠ '\n') sameLine after
      exact ⟨_, rfl, by simp only [List.length_cons, List.append_eq]; omega⟩
  | keyword => exact le_longest_of_accepts_name (accepts_name_of_accepts_keyword accepts) after
  | basicType => exact le_longest_of_accepts_name (accepts_name_of_accepts_basicType accepts) after
  | name => exact le_longest_of_accepts_name accepts after
  | mark symbol =>
      subst accepts
      exact ⟨_, by simp [pattern, Pattern.longest], le_rfl⟩
  | integer =>
      have := length_le_takeWhile Char.isDigit accepts.2 after
      have := List.length_pos_iff.mpr accepts.1
      exact ⟨_, if_neg (by omega), by omega⟩
  | float =>
      rcases accepts with ⟨whole, fraction, rfl, ⟨nonempty, digits⟩, nonempty', digits'⟩
      have taken : (whole ++ '.' :: (fraction ++ after)).takeWhile Char.isDigit = whole :=
        takeWhile_append_of_stop digits (by simp)
      have := length_le_takeWhile Char.isDigit digits' after
      have := List.length_pos_iff.mpr nonempty
      have := List.length_pos_iff.mpr nonempty'
      rw [List.append_assoc, List.cons_append]
      simp only [pattern, Pattern.longest, taken, List.drop_left]
      exact ⟨_, if_neg (by omega), by simp; omega⟩
  | string =>
      rcases accepts with ⟨items, rfl⟩
      refine ⟨_, ?_, le_rfl⟩
      simp [pattern, Pattern.longest, closingQuote_items]

/-! ## What patterns reach over has a form -/

theorem word_of_ofWord? {text : String} {word : Keyword}
    (found : Keyword.ofWord? text = some word) : word.word = text := by
  simpa using List.find?_some found

theorem basicType_of_ofWord? {text : String} {type : BasicType}
    (found : BasicType.ofWord? text = some type) : type.word = text := by
  simpa using List.find?_some found

theorem digitsValue_eq_decimalNumber (digits : List Char) :
    Number.digitsValue digits = decimalNumber digits := by
  induction digits using List.reverseRecOn with
  | nil => rfl
  | append_singleton digits digit inductionHypothesis =>
      have next : Number.digitsValue (digits ++ [digit])
          = Number.digitsValue digits * 10 + (digit.toNat - '0'.toNat) := by
        rw [Number.digitsValue, List.foldl_append]
        rfl
      rw [next, inductionHypothesis]
      simp [decimalNumber, Nat.ofDigits_cons]
      omega

/-- The text has the form, as a name only if it has no other, and the pattern makes of it what
the form says: a token, nothing, or an integer that is too large. -/
structure Suits (form : Form) (pattern : Pattern) (text : List Char) : Prop where
  accepts : form.Accepts text
  preferred : form = .name → ∀ other : Form, other.Accepts text → other = .name
  meant : match meaning pattern text with
    | .skipped => form.IsLayout
    | .token kind => form.Means text kind
    | .invalid => form = .integer ∧ 0x8000000000000000 ≤ decimalNumber text

theorem mem_take_takeWhile {p : Char → Bool} {text : List Char} {c : Char}
    (member : c ∈ text.take (text.takeWhile p).length) : p c :=
  mem_takeWhile (take_length_takeWhile p text ▸ member)

theorem suits_blanks {source : List Char} {count : Nat}
    (reached : Pattern.blanks.longest source = some count) :
    Suits .blanks .blanks (source.take count) := by
  simp only [Pattern.longest] at reached
  split at reached
  · cases reached
  · next nonempty =>
      cases reached
      refine ⟨⟨?_, fun c member => isSeparator_iff.mp (mem_take_takeWhile member)⟩, by simp, trivial⟩
      rw [take_length_takeWhile]
      exact fun none => nonempty (by rw [none]; rfl)

theorem suits_comment {source : List Char} {count : Nat}
    (reached : Pattern.comment.longest source = some count) :
    Suits .comment .comment (source.take count) := by
  unfold Pattern.longest at reached
  split at reached
  case h_2 rest _ =>
    cases reached
    refine ⟨⟨rest.takeWhile (· ≠ '\n'), ?_, fun feed => ?_⟩, by simp, trivial⟩
    · rw [Nat.add_comm, List.take_succ_cons, List.take_succ_cons, take_length_takeWhile]
    · simpa using mem_takeWhile feed
  all_goals simp_all

theorem accepts_name_of_longest {source : List Char} {count : Nat}
    (reached : Pattern.word.longest source = some count) : name.Accepts (source.take count) := by
  cases source with
  | nil => cases reached
  | cons first rest =>
      simp only [Pattern.longest] at reached
      split at reached <;> cases reached
      next start =>
      refine ⟨first, rest.takeWhile continuesWord, ?_, startsWord_iff.mp start, fun c member =>
        continuesWord_iff.mp (mem_takeWhile member)⟩
      rw [Nat.add_comm, List.take_succ_cons, take_length_takeWhile]

/-- Nothing but words starts like a name. -/
theorem pattern_eq_word_of_accepts {form : Form} {text : List Char} (isName : name.Accepts text)
    (accepts : form.Accepts text) : form.pattern = .word := by
  rcases le_longest_of_accepts accepts [] with ⟨count, reached, -⟩
  rcases isName with ⟨first, rest, rfl, start, -⟩
  exact eq_word_of_startsWith (startsWord_iff.mpr start) (Pattern.startsWith_of_longest reached)

theorem suits_word {text : List Char} (isName : name.Accepts text) :
    ∃ form, Suits form .word text := by
  cases reserved : Keyword.ofWord? (String.ofList text) with
  | some word =>
      have accepts : (keyword word).Accepts text := by
        rw [Accepts, word_of_ofWord? reserved, String.toList_ofList]
      exact ⟨.keyword word, accepts, by simp, by simp [meaning, wordKind, reserved, Means]⟩
  | none =>
      cases basic : BasicType.ofWord? (String.ofList text) with
      | some type =>
          have accepts : (basicType type).Accepts text := by
            rw [Accepts, basicType_of_ofWord? basic, String.toList_ofList]
          exact ⟨.basicType type, accepts, by simp,
            by simp [meaning, wordKind, reserved, basic, Means]⟩
      | none =>
          refine ⟨.name, isName, fun _ other accepts => ?_,
            by simp [meaning, wordKind, reserved, basic, Means]⟩
          have isWord := pattern_eq_word_of_accepts isName accepts
          cases other with
          | name => rfl
          | keyword word =>
              rw [accepts, String.ofList_toList, Keyword.ofWord?_word] at reserved
              cases reserved
          | basicType type =>
              rw [accepts, String.ofList_toList, BasicType.ofWord?_word] at basic
              cases basic
          | _ => cases isWord

theorem suits_digits {source : List Char} {count : Nat}
    (reached : Pattern.digits.longest source = some count) :
    Suits .integer .digits (source.take count) := by
  simp only [Pattern.longest] at reached
  split at reached
  · cases reached
  · next nonempty =>
      cases reached
      refine ⟨⟨?_, fun c => mem_take_takeWhile⟩, by simp, ?_⟩
      · rw [take_length_takeWhile]
        exact fun none => nonempty (by rw [none]; rfl)
      · by_cases small : decimalNumber (source.take (source.takeWhile Char.isDigit).length)
            < 0x8000000000000000
        · rw [meaning, digitsValue_eq_decimalNumber, if_pos small]
          exact ⟨_, Int64.toInt_ofNat_of_lt (by omega), rfl⟩
        · rw [meaning, digitsValue_eq_decimalNumber, if_neg small]
          exact ⟨rfl, Nat.le_of_not_lt small⟩

theorem suits_decimal {source : List Char} {count : Nat}
    (reached : Pattern.decimal.longest source = some count) :
    Suits .float .decimal (source.take count) := by
  simp only [Pattern.longest] at reached
  split at reached
  · next rest point =>
      split at reached <;> cases reached
      next nonempty =>
      rw [not_or, List.length_eq_zero_iff, List.length_eq_zero_iff] at nonempty
      refine ⟨⟨source.takeWhile Char.isDigit, rest.takeWhile Char.isDigit, ?_,
        ⟨nonempty.1, fun c => mem_takeWhile⟩, nonempty.2, fun c => mem_takeWhile⟩, by simp, rfl⟩
      rw [Nat.add_assoc, List.take_add, point, take_length_takeWhile, Nat.add_comm 1,
        List.take_succ_cons, take_length_takeWhile]
  · cases reached

/-- Up to the closing quote there are items of a literal. -/
theorem exists_items_of_closingQuote {source : List Char} {count : Nat}
    (reached : Pattern.closingQuote source = some count) :
    ∃ items : List Item, source.take count = items.flatMap Item.chars ++ ['"'] := by
  fun_induction Pattern.closingQuote source generalizing count with
  | case1 | case3 | case4 => cases reached
  | case2 =>
      cases reached
      exact ⟨[], rfl⟩
  | case5 c rest sameLine inductionHypothesis =>
      rcases Option.map_eq_some_iff.mp reached with ⟨more, closed, rfl⟩
      rcases inductionHypothesis closed with ⟨items, spelled⟩
      refine ⟨.escaped c sameLine :: items, ?_⟩
      rw [List.take_succ_cons, List.take_succ_cons, spelled]
      rfl
  | case6 c rest noQuote noEnd noEscape inductionHypothesis =>
      rcases Option.map_eq_some_iff.mp reached with ⟨more, closed, rfl⟩
      rcases inductionHypothesis closed with ⟨items, spelled⟩
      have noBackslash : c ≠ '\\' := fun backslash => by
        cases rest with
        | nil => exact noEnd backslash rfl
        | cons next rest => exact noEscape next rest backslash rfl
      refine ⟨.plain c ⟨noQuote, noBackslash⟩ :: items, ?_⟩
      rw [List.take_succ_cons, spelled]
      rfl

theorem suits_quoted {source : List Char} {count : Nat}
    (reached : Pattern.quoted.longest source = some count) :
    Suits .string .quoted (source.take count) := by
  unfold Pattern.longest at reached
  split at reached
  case h_8 rest _ =>
    rcases Option.map_eq_some_iff.mp reached with ⟨more, closed, rfl⟩
    rcases exists_items_of_closingQuote closed with ⟨items, spelled⟩
    have written : ('"' :: rest).take (more + 1) = '"' :: items.flatMap Item.chars ++ ['"'] := by
      rw [List.take_succ_cons, spelled]
      rfl
    refine ⟨⟨items, written⟩, by simp, items, written, ?_⟩
    rw [written, List.cons_append, List.drop_one, List.tail_cons, List.dropLast_concat,
      Text.Quoted.decode_flatMap_chars]
  all_goals simp_all

theorem suits_mark {symbol : Mark} {source : List Char} {count : Nat}
    (reached : (Pattern.mark symbol).longest source = some count) :
    Suits (.mark symbol) (.mark symbol) (source.take count) := by
  simp only [Pattern.longest] at reached
  split at reached <;> cases reached
  next found =>
  rw [List.isPrefixOf_iff_prefix, List.prefix_iff_eq_take] at found
  exact ⟨found.symm, by simp, rfl⟩

/-- What a pattern reaches over has a form, and means what texts of that form mean. -/
theorem exists_suits_of_longest {pattern : Pattern} {source : List Char} {count : Nat}
    (reached : pattern.longest source = some count) :
    ∃ form, Suits form pattern (source.take count) := by
  cases pattern with
  | blanks => exact ⟨_, suits_blanks reached⟩
  | comment => exact ⟨_, suits_comment reached⟩
  | word => exact suits_word (accepts_name_of_longest reached)
  | digits => exact ⟨_, suits_digits reached⟩
  | decimal => exact ⟨_, suits_decimal reached⟩
  | quoted => exact ⟨_, suits_quoted reached⟩
  | mark symbol => exact ⟨_, suits_mark reached⟩

end Form

end Lexer

end Formulae
