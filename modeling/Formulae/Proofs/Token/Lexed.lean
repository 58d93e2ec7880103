import Formulae.Proofs.Number.Doubles
import Formulae.Proofs.Token.Written

/-!
# What reading gives

Every token of a source has a form that source can give: integers and doubles are
without a sign, and names are words that mean nothing else (`lexed_of_tokenize`).
-/

namespace Formulae

namespace Lexer

theorem take_length_takeWhile (p : Char → Bool) (text : List Char) :
    text.take (text.takeWhile p).length = text.takeWhile p := by
  induction text with
  | nil => rfl
  | cons c text inductionHypothesis =>
      cases accepted : p c with
      | true => simp [accepted, inductionHypothesis]
      | false => simp [accepted]

theorem mem_takeWhile {p : Char → Bool} {c : Char} {text : List Char}
    (h : c ∈ text.takeWhile p) : p c :=
  List.all_eq_true.mp (List.all_takeWhile) c h

theorem wordKind_lexed {word : String} (floats : Float → Prop)
    (spelled : ∃ first rest, word.toList = first :: rest ∧ startsWord first ∧
      ∀ c ∈ rest, continuesWord c) : (wordKind word).Lexed floats := by
  cases reserved : Keyword.ofWord? word with
  | some keyword => simp [wordKind, reserved, Token.Kind.Lexed]
  | none =>
      cases basic : BasicType.ofWord? word with
      | some type => simp [wordKind, reserved, basic, Token.Kind.Lexed]
      | none =>
          have name : wordKind word = .ident word := by simp [wordKind, reserved, basic]
          rw [name]
          exact ⟨spelled, name⟩

section

variable {floats : Float → Prop}
  (ofDigits : ∀ digits exponent, floats (Number.nearest digits exponent))
include ofDigits

/-- What a chosen pattern means has the form of a token. -/
theorem lexed_of_meaning {source : List Char} {found : Match} {kind : Token.Kind}
    (chosen : longestMatch source = some found)
    (meant : meaning found.pattern (source.take found.length) = .token kind) :
    kind.Lexed floats := by
  have reached := longest_of_longestMatch chosen
  cases pattern : found.pattern with
  | blanks | comment => simp [pattern, meaning] at meant
  | word =>
      simp only [pattern, meaning, Meaning.token.injEq] at meant
      rw [pattern] at reached
      cases source with
      | nil => cases reached
      | cons first rest =>
          simp only [Pattern.longest] at reached
          split at reached
          · next start =>
              rw [← meant]
              apply wordKind_lexed
              refine ⟨first, rest.takeWhile continuesWord, ?_, start, fun c => mem_takeWhile⟩
              rw [String.toList_ofList, ← Option.some.inj reached, Nat.add_comm, List.take_succ_cons,
                take_length_takeWhile]
          · cases reached
  | digits =>
      simp only [pattern, meaning] at meant
      split at meant
      · next bound =>
          cases meant
          simp only [Token.Kind.Lexed]
          rw [Int64.toInt_ofNat_of_lt (by omega)]
          omega
      · cases meant
  | decimal =>
      simp only [pattern, meaning] at meant
      cases meant
      exact ofDigits _ _
  | quoted =>
      simp only [pattern, meaning] at meant
      cases meant
      trivial
  | mark symbol =>
      simp only [pattern, meaning] at meant
      cases meant
      trivial

theorem lexed_of_tokenizeFrom {position : Nat} {source : List Char} {before : List Token}
    {tokens : TokenList} (read : tokenizeFrom position source before = .ok tokens)
    (lexed : ∀ token ∈ before, token.kind.Lexed floats) :
    ∀ token ∈ tokens.items, token.kind.Lexed floats := by
  fun_induction tokenizeFrom position source before with
  | case1 => cases read; simpa using lexed
  | case2 => cases read
  | case3 _ _ _ _ _ _ _ _ _ _ inductionHypothesis => exact inductionHypothesis read lexed
  | case4 _ _ _ _ _ chosen _ _ _ kind meant inductionHypothesis =>
      apply inductionHypothesis read
      intro token member
      rcases List.mem_cons.mp member with rfl | earlier
      · exact lexed_of_meaning ofDigits chosen meant
      · exact lexed token earlier
  | case5 => cases read

end

/-- The tokens of a source have forms that source can give. -/
theorem lexed_of_tokenize {source : String} {tokens : TokenList}
    (read : tokenize source = .ok tokens) :
    ∀ token ∈ tokens.items, token.kind.Lexed Number.Unsigned :=
  lexed_of_tokenizeFrom Number.unsigned_nearest read (by simp)

end Lexer

end Formulae
