import Formulae.Proofs.Token.Written
import Mathlib.Data.List.Chain

/-!
# Reading written pieces

Where no token of a row of pieces becomes part of the one before it, the text of
the row is read as exactly the tokens in it (`readsAs_render`).  The other way
round, every token that reading gives has the form that source can give
(`lexed_of_tokenize`).
-/

namespace Formulae

namespace Lexer

/-! ## One step of the reader -/

/-- From any place on, and whatever stands before, `source` gives these tokens.
Blanks at its start are out of sight. -/
def ReadsAs (source : List Char) (kinds : List Token.Kind) : Prop :=
  ∀ position before, ∃ tokens,
    tokenizeFrom position (source.dropWhile isSeparator) before = .ok tokens ∧
      tokens.items.map Token.kind = before.reverse.map Token.kind ++ kinds

theorem eq_blanks_of_startsWith {pattern : Pattern} {c : Char} (separator : isSeparator c)
    (h : pattern.startsWith c) : pattern = .blanks := by
  cases pattern with
  | blanks => rfl
  | mark symbol =>
      rcases separator_of_isSeparator separator with rfl | rfl | rfl | rfl <;>
        cases symbol <;> exact absurd h (by decide)
  | _ =>
      rcases separator_of_isSeparator separator with rfl | rfl | rfl | rfl <;>
        exact absurd h (by decide)

theorem longestMatch_blanks {c : Char} (separator : isSeparator c) (rest : List Char) :
    longestMatch (c :: rest)
      = some ⟨.blanks, ((c :: rest).takeWhile isSeparator).length⟩ := by
  apply longestMatch_eq_some
  · simp [Pattern.longest, separator]
  · intro other length different reached
    exact absurd
      (eq_blanks_of_startsWith separator (Pattern.startsWith_of_longest reached)) different

theorem drop_length_takeWhile (p : Char → Bool) (text : List Char) :
    text.drop (text.takeWhile p).length = text.dropWhile p := by
  induction text with
  | nil => rfl
  | cons c text inductionHypothesis =>
      cases accepted : p c with
      | true => simp [accepted, inductionHypothesis]
      | false => simp [accepted]

/-- Blanks at the start only move the reader on. -/
theorem tokenizeFrom_dropWhile (position : Nat) (source : List Char) (before : List Token) :
    ∃ next, tokenizeFrom position source before
      = tokenizeFrom next (source.dropWhile isSeparator) before := by
  cases source with
  | nil => exact ⟨position, rfl⟩
  | cons c rest =>
      cases separator : isSeparator c with
      | false => exact ⟨position, by simp [separator]⟩
      | true =>
          rw [tokenizeFrom]
          simp only [longestMatch_blanks separator, meaning]
          refine ⟨_, congrArg (tokenizeFrom _ · before) ?_⟩
          simp only [List.takeWhile_cons, List.dropWhile_cons, separator, if_true,
            List.length_cons, Nat.add_sub_cancel]
          exact drop_length_takeWhile isSeparator rest

theorem tokenizeFrom_of_readsAs {source : List Char} {kinds : List Token.Kind}
    (reads : ReadsAs source kinds) (position : Nat) (before : List Token) :
    ∃ tokens, tokenizeFrom position source before = .ok tokens ∧
      tokens.items.map Token.kind = before.reverse.map Token.kind ++ kinds := by
  rcases tokenizeFrom_dropWhile position source before with ⟨next, skipped⟩
  rw [skipped]
  exact reads next before

theorem readsAs_nil : ReadsAs [] [] := by
  intro position before
  exact ⟨⟨before.reverse, position⟩, by simp [tokenizeFrom], by simp⟩

theorem readsAs_separator {c : Char} {rest : List Char} {kinds : List Token.Kind}
    (separator : isSeparator c) (more : ReadsAs rest kinds) : ReadsAs (c :: rest) kinds := by
  intro position before
  simpa [separator] using more position before

theorem readsAs_separators {blanks rest : List Char} {kinds : List Token.Kind}
    (separators : ∀ c ∈ blanks, isSeparator c) (more : ReadsAs rest kinds) :
    ReadsAs (blanks ++ rest) kinds := by
  induction blanks with
  | nil => exact more
  | cons c blanks inductionHypothesis =>
      exact readsAs_separator (separators c (by simp))
        (inductionHypothesis fun d member => separators d (by simp [member]))

/-- One round of reading. -/
theorem tokenizeFrom_of_longestMatch {text rest : List Char} {pattern : Pattern}
    (nonempty : text ≠ [])
    (chosen : longestMatch (text ++ rest) = some ⟨pattern, text.length⟩)
    (position : Nat) (before : List Token) :
    tokenizeFrom position (text ++ rest) before =
      match meaning pattern text with
      | .skipped => tokenizeFrom (position + byteCount text) rest before
      | .token kind => tokenizeFrom (position + byteCount text) rest
          (⟨kind, position, position + byteCount text⟩ :: before)
      | .invalid => .error (LexError.ofRest position (text ++ rest)) := by
  obtain ⟨first, letters, rfl⟩ := List.exists_cons_of_ne_nil nonempty
  rw [List.cons_append] at chosen ⊢
  rw [tokenizeFrom]
  simp only [chosen]
  have whole : (first :: (letters ++ rest)).take (first :: letters).length = first :: letters := by
    simp
  have remaining : (letters ++ rest).drop ((first :: letters).length - 1) = rest := by
    simp
  cases read : meaning pattern (first :: letters) <;> simp only [whole, remaining, read]

/-- A round of reading that leaves the text out. -/
theorem tokenizeFrom_skipped {text rest : List Char} {pattern : Pattern} (nonempty : text ≠ [])
    (chosen : longestMatch (text ++ rest) = some ⟨pattern, text.length⟩)
    (meant : meaning pattern text = .skipped) (position : Nat) (before : List Token) :
    tokenizeFrom position (text ++ rest) before
      = tokenizeFrom (position + byteCount text) rest before := by
  rw [tokenizeFrom_of_longestMatch nonempty chosen, meant]

/-- A round of reading that makes a token of the text. -/
theorem tokenizeFrom_token {text rest : List Char} {pattern : Pattern} {kind : Token.Kind}
    (nonempty : text ≠ [])
    (chosen : longestMatch (text ++ rest) = some ⟨pattern, text.length⟩)
    (meant : meaning pattern text = .token kind) (position : Nat) (before : List Token) :
    tokenizeFrom position (text ++ rest) before
      = tokenizeFrom (position + byteCount text) rest
          (⟨kind, position, position + byteCount text⟩ :: before) := by
  rw [tokenizeFrom_of_longestMatch nonempty chosen, meant]

/-- No token starts with a separator. -/
theorem dropWhile_isSeparator_of_longestMatch {text rest : List Char} {pattern : Pattern}
    {kind : Token.Kind} (nonempty : text ≠ [])
    (chosen : longestMatch (text ++ rest) = some ⟨pattern, text.length⟩)
    (meant : meaning pattern text = .token kind) :
    (text ++ rest).dropWhile isSeparator = text ++ rest := by
  obtain ⟨first, letters, rfl⟩ := List.exists_cons_of_ne_nil nonempty
  rw [List.cons_append] at chosen ⊢
  cases separator : isSeparator first with
  | false => rw [List.dropWhile_cons, separator, if_neg Bool.false_ne_true]
  | true =>
      rw [longestMatch_blanks separator, Option.some.injEq, Match.mk.injEq] at chosen
      rw [← chosen.1] at meant
      cases meant

/-- A text that is read as a token stands at the start of what the tokens behind it are read
from. -/
theorem readsAs_text {text rest : List Char} {pattern : Pattern} {kind : Token.Kind}
    {kinds : List Token.Kind} (nonempty : text ≠ [])
    (chosen : longestMatch (text ++ rest) = some ⟨pattern, text.length⟩)
    (meant : meaning pattern text = .token kind) (more : ReadsAs rest kinds) :
    ReadsAs (text ++ rest) (kind :: kinds) := by
  intro position before
  rw [dropWhile_isSeparator_of_longestMatch nonempty chosen meant,
    tokenizeFrom_token nonempty chosen meant]
  rcases tokenizeFrom_of_readsAs more (position + byteCount text)
    (⟨kind, position, position + byteCount text⟩ :: before) with ⟨tokens, read, kindsRead⟩
  exact ⟨tokens, read, by rw [kindsRead]; simp⟩

theorem readsAs_token {kind : Token.Kind} {rest : List Char} {kinds : List Token.Kind}
    (reads : kind.ReadsBack rest) (more : ReadsAs rest kinds) :
    ReadsAs (kind.text.toList ++ rest) (kind :: kinds) := by
  rcases reads.chosen with ⟨pattern, chosen, meant⟩
  exact readsAs_text reads.nonempty chosen meant more

end Lexer

namespace Piece

open Lexer

/-! ## Rows of pieces -/

/-- Source can give the piece. -/
def Written : Piece → Prop
  | .token kind => kind.Lexed Number.Rereads
  | .raw _ => False
  | .space | .newline _ => True

/-- The second piece does not become part of the first. -/
def Apart : Piece → Piece → Prop
  | .token kind, next => kind.StopsBefore next.text.toList
  | _, _ => True

theorem text_toList_ne_nil {piece : Piece} (written : piece.Written) :
    piece.text.toList ≠ [] := by
  cases piece with
  | token kind =>
      have stops : kind.StopsBefore [] := by simp [Token.Kind.StopsBefore]
      exact (Token.Kind.readsBack written stops).nonempty
  | raw text => exact written.elim
  | space => simp [text]
  | newline columns => simp [text]

@[simp]
theorem render_nil : render [] = "" :=
  rfl

theorem toList_render_cons (piece : Piece) (pieces : List Piece) :
    (render (piece :: pieces)).toList = piece.text.toList ++ (render pieces).toList := by
  simp [render]

/-- A row of pieces is read as the tokens in it. -/
theorem readsAs_render {pieces : List Piece} (written : ∀ piece ∈ pieces, piece.Written)
    (apart : pieces.IsChain Apart) : ReadsAs (render pieces).toList (tokens pieces) := by
  induction pieces with
  | nil => exact readsAs_nil
  | cons piece pieces inductionHypothesis =>
      have more := inductionHypothesis (fun other member => written other (by simp [member]))
        (List.IsChain.tail apart)
      rw [toList_render_cons]
      cases piece with
      | token kind =>
          have lexed : kind.Lexed Number.Rereads := written (.token kind) (by simp)
          apply readsAs_token _ more
          apply Token.Kind.readsBack lexed
          cases pieces with
          | nil => simp [Token.Kind.StopsBefore]
          | cons next pieces =>
              -- What follows starts as the next piece does, which has some text.
              have stops := (List.isChain_cons_cons.mp apart).1
              obtain ⟨c, letters, spelled⟩ := List.exists_cons_of_ne_nil
                (text_toList_ne_nil (written next (by simp)))
              simp only [Apart, Token.Kind.StopsBefore, spelled, toList_render_cons] at stops ⊢
              exact stops
      | raw text =>
          have never : Written (.raw text) := written _ (by simp)
          exact never.elim
      | space => exact readsAs_separator rfl more
      | newline columns =>
          apply readsAs_separators _ more
          intro c member
          simp only [text, String.toList_append, String.toList_ofList, List.mem_append,
            List.mem_replicate] at member
          rcases member with lineFeed | ⟨-, rfl⟩
          · rw [List.mem_singleton.mp lineFeed]; rfl
          · rfl

/-- The text of a row of pieces is split into the tokens of the row. -/
theorem tokenize_render {pieces : List Piece} (written : ∀ piece ∈ pieces, piece.Written)
    (apart : pieces.IsChain Apart) :
    ∃ list, tokenize (render pieces) = .ok list ∧ list.items.map Token.kind = tokens pieces := by
  exact tokenizeFrom_of_readsAs (readsAs_render written apart) 0 []

end Piece

end Formulae
