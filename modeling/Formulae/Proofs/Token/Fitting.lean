import Formulae.Proofs.Token.Rendered
import Formulae.Tree.Printer

/-!
# Rows of pieces that fit together

Operands and operators take turns in what is written: a mark draws in nothing that an
operand starts with, and what ends an operand draws in no mark.  Brackets, separators
and layout may stand anywhere between.
-/

namespace Formulae

namespace Piece

open Lexer

/-! ## What marks draw in -/

/-- The piece may stand behind any mark. -/
def Opens (piece : Piece) : Prop :=
  ∀ symbol, Apart (.mark symbol) piece

/-- Any mark may stand behind the piece. -/
def Closes (piece : Piece) : Prop :=
  ∀ symbol, Apart piece (.mark symbol)

theorem eq_of_absorbs_mark {symbol : Mark} {c : Char}
    (h : (Token.Kind.mark symbol).absorbs c) : c = '=' ∨ c = '>' ∨ c = '/' := by
  cases symbol <;> simp [Token.Kind.absorbs, Mark.all, Mark.chars] at h <;> grind

theorem opens_of_head {piece : Piece}
    (h : ∀ c ∈ piece.text.toList.head?, c ≠ '=' ∧ c ≠ '>' ∧ c ≠ '/') : piece.Opens := by
  intro symbol c first
  rcases h c first with ⟨noEqual, noGreater, noSlash⟩
  rw [Bool.eq_false_iff]
  intro absorbed
  rcases eq_of_absorbs_mark absorbed with rfl | rfl | rfl <;> contradiction

theorem closes_of_absorbs {kind : Token.Kind}
    (h : ∀ symbol ∈ Mark.all, symbol.chars.head?.all fun c => !kind.absorbs c) :
    (Piece.token kind).Closes := by
  intro symbol c first
  have written : (Piece.mark symbol).text.toList = symbol.chars := by
    simp [mark, text, Token.Kind.text, Mark.text]
  have stops := h symbol symbol.mem_all
  rw [written] at first
  rw [show symbol.chars.head? = some c from first] at stops
  simpa using stops

/-- Brackets, separators and layout: whatever closes may stand before the piece, and
whatever opens behind it. -/
structure Neutral (piece : Piece) : Prop where
  written : piece.Written
  opens : piece.Opens
  closes : piece.Closes
  after : ∀ other : Piece, other.Closes → Apart other piece
  before : ∀ other : Piece, other.Opens → Apart piece other

/-- The marks that draw in nothing and that no mark draws in. -/
def isPunctuation : Mark → Bool
  | .leftParen | .rightParen | .leftBracket | .rightBracket | .leftBrace | .rightBrace
  | .comma | .colon | .semicolon | .arrow => true
  | _ => false

theorem neutral_mark {symbol : Mark} (h : isPunctuation symbol) : (mark symbol).Neutral where
  written := trivial
  opens := opens_of_head (by
    intro c first
    cases symbol <;> cases first <;> first | decide | cases h)
  closes := closes_of_absorbs (by revert h; cases symbol <;> decide)
  after _ closes := closes symbol
  before _ opens := opens symbol

theorem apart_of_separator {kind : Token.Kind} {c : Char} {next : Piece}
    (first : next.text.toList.head? = some c) (separator : c = ' ' ∨ c = '\n') :
    Apart (.token kind) next := by
  intro c' isFirst
  cases first.symm.trans isFirst
  rcases separator with rfl | rfl
  · cases kind with
    | mark symbol => cases symbol <;> decide
    | _ => rfl
  · cases kind with
    | mark symbol => cases symbol <;> decide
    | _ => rfl

theorem neutral_of_separator {piece : Piece} {c : Char} (layout : ∀ kind, piece ≠ .token kind)
    (written : piece.Written) (first : piece.text.toList.head? = some c)
    (separator : c = ' ' ∨ c = '\n') : piece.Neutral := by
  have before : ∀ other, Apart piece other := by
    cases piece with
    | token kind => exact absurd rfl (layout kind)
    | _ => exact fun _ => trivial
  refine ⟨written, fun _ => apart_of_separator first separator, fun _ => before _, ?_,
    fun _ _ => before _⟩
  rintro (kind | _ | _ | _) _
  · exact apart_of_separator first separator
  all_goals trivial

theorem neutral_space : Piece.space.Neutral :=
  neutral_of_separator nofun trivial rfl (.inl rfl)

theorem neutral_newline (columns : Nat) : (Piece.newline columns).Neutral :=
  neutral_of_separator nofun trivial (by simp [text]) (.inr rfl)

/-! ## Rows that fit together -/

/-- A row of pieces in which no token becomes part of the one before it, and that
may stand between marks. -/
structure Fits (pieces : List Piece) : Prop where
  written : ∀ piece ∈ pieces, piece.Written
  apart : pieces.IsChain Apart
  first : ∀ piece ∈ pieces.head?, piece.Opens
  last : ∀ piece ∈ pieces.getLast?, piece.Closes

variable {left right : List Piece} {piece : Piece}

theorem fits_nil : Fits [] :=
  ⟨nofun, .nil, nofun, nofun⟩

theorem fits_single (written : piece.Written) (opens : piece.Opens) (closes : piece.Closes) :
    Fits [piece] := by
  refine ⟨?_, .singleton piece, ?_, ?_⟩ <;> simpa

theorem Fits.cons (neutral : piece.Neutral) (more : Fits right) : Fits (piece :: right) := by
  refine ⟨?_, ?_, ?_, ?_⟩
  · intro other member
    rcases List.mem_cons.mp member with rfl | member
    · exact neutral.written
    · exact more.written other member
  · exact List.isChain_cons.mpr ⟨fun next isNext => neutral.before next (more.first next isNext),
      more.apart⟩
  · simpa using neutral.opens
  · cases right with
    | nil => simpa using neutral.closes
    | cons next rest =>
        rw [List.getLast?_cons_cons]
        exact more.last

/-- Rows may be put together where something neutral stands between them. -/
theorem Fits.join (before : Fits left) (neutral : piece.Neutral) (after : Fits right) :
    Fits (left ++ piece :: right) := by
  have more := after.cons neutral
  refine ⟨?_, ?_, ?_, ?_⟩
  · intro other member
    rcases List.mem_append.mp member with member | member
    · exact before.written other member
    · exact more.written other member
  · refine List.isChain_append.mpr ⟨before.apart, more.apart, fun other isLast next isNext => ?_⟩
    cases isNext
    exact neutral.after other (before.last other isLast)
  · cases left with
    | nil => exact more.first
    | cons first rest => exact before.first
  · rw [List.getLast?_append_of_ne_nil _ (List.cons_ne_nil _ _)]
    exact more.last

theorem Fits.joinAll {separator : List Piece} (before : Fits left) (nonempty : separator ≠ [])
    (neutral : ∀ piece ∈ separator, piece.Neutral) (after : Fits right) :
    Fits (left ++ (separator ++ right)) := by
  have more : (pieces : List Piece) → (∀ piece ∈ pieces, piece.Neutral) →
      Fits (pieces ++ right) := by
    intro pieces
    induction pieces with
    | nil => exact fun _ => after
    | cons first rest inductionHypothesis =>
        intro neutral
        exact (inductionHypothesis fun other member =>
          neutral other (List.mem_cons_of_mem _ member)).cons (neutral first (by simp))
  obtain ⟨first, rest, rfl⟩ := List.exists_cons_of_ne_nil nonempty
  exact before.join (neutral first (by simp))
    (more rest fun other member => neutral other (List.mem_cons_of_mem _ member))

theorem Fits.snoc (before : Fits left) (neutral : piece.Neutral) : Fits (left ++ [piece]) :=
  before.join neutral fits_nil

/-- A mark may stand between operands, with spaces around it or without. -/
theorem Fits.around (config : PrintConfig) (before : Fits left) (symbol : Mark)
    (after : Fits right) (nonempty : left ≠ []) (nonempty' : right ≠ []) :
    Fits (left ++ (config.around (mark symbol) ++ right)) := by
  obtain ⟨first, more, rfl⟩ := List.exists_cons_of_ne_nil nonempty'
  unfold PrintConfig.around
  refine ⟨?_, ?_, ?_, ?_⟩
  · intro other member
    have cases' : other ∈ left ∨ other = .space ∨ other = mark symbol ∨ other ∈ first :: more := by
      split at member <;> simp only [List.mem_append, List.mem_cons, List.not_mem_nil] at member ⊢ <;>
        tauto
    rcases cases' with member | rfl | rfl | member
    · exact before.written other member
    · trivial
    · trivial
    · exact after.written other member
  · split
    · refine List.isChain_append.mpr ⟨before.apart, ?_, fun other isLast next isNext => ?_⟩
      · refine List.isChain_cons_cons.mpr ⟨trivial, List.isChain_cons_cons.mpr ⟨?_, ?_⟩⟩
        · exact apart_of_separator rfl (.inl rfl)
        · exact List.isChain_cons_cons.mpr ⟨trivial, after.apart⟩
      · cases isNext
        exact neutral_space.after other (before.last other isLast)
    · refine List.isChain_append.mpr ⟨before.apart, ?_, fun other isLast next isNext => ?_⟩
      · exact List.isChain_cons_cons.mpr ⟨after.first first rfl symbol, after.apart⟩
      · cases isNext
        exact before.last other isLast symbol
  · cases left with
    | nil => contradiction
    | cons first rest => exact before.first
  · rw [List.getLast?_append_of_ne_nil _ (by simp), List.getLast?_append_of_ne_nil _ nonempty']
    exact after.last

/-- A mark may stand before an operand, if it may stand behind other marks itself. -/
theorem Fits.prefixed {symbol : Mark} (opens : (mark symbol).Opens) (after : Fits right)
    (nonempty : right ≠ []) : Fits (mark symbol :: right) := by
  obtain ⟨first, more, rfl⟩ := List.exists_cons_of_ne_nil nonempty
  refine ⟨?_, ?_, by simpa using opens, ?_⟩
  · intro other member
    rcases List.mem_cons.mp member with rfl | member
    · trivial
    · exact after.written other member
  · exact List.isChain_cons_cons.mpr ⟨after.first first rfl symbol, after.apart⟩
  · rw [List.getLast?_cons_cons]
    exact after.last

/-- No token that source can give starts with a character that a mark draws in,
unless it is a mark. -/
theorem opens_of_lexed {kind : Token.Kind} (lexed : kind.Lexed Number.Rereads)
    (noMark : ∀ symbol, kind ≠ .mark symbol) : (Piece.token kind).Opens := by
  have plain : ∀ c ∈ kind.text.toList.head?, c.isDigit ∨ startsWord c ∨ c = '"' := by
    intro c first
    cases kind with
    | int value =>
        obtain ⟨n, isNat⟩ := Int.eq_ofNat_of_zero_le lexed
        rw [Token.Kind.text_int isNat] at first
        exact .inl (Number.isDigit_of_mem_toDigits (List.mem_of_mem_head? first))
    | float value =>
        rcases lexed.finite with ⟨significand, exponent, finite⟩
        rcases Number.isDecimalText_floatLiteral finite with
          ⟨whole, fraction, written, nonempty, -, allDigits, -⟩
        obtain ⟨digit, more, rfl⟩ := List.exists_cons_of_ne_nil nonempty
        rw [show (Token.Kind.float value).text.toList = _ from written] at first
        cases first
        exact .inl (allDigits c (by simp))
    | string contents =>
        simp only [Token.Kind.text, Text.Quoted.literal] at first
        exact .inr (.inr (by simpa using first.symm))
    | ident name =>
        rcases lexed.spelled with ⟨letter, more, written, starts, -⟩
        rw [show (Token.Kind.ident name).text.toList = _ from written] at first
        cases first
        exact .inr (.inl starts)
    | keyword word =>
        cases word <;> cases first <;> exact .inr (.inl rfl)
    | basicType type =>
        cases type <;> cases first <;> exact .inr (.inl rfl)
    | mark symbol => exact absurd rfl (noMark symbol)
    | endOfInput => exact lexed.elim
  refine opens_of_head fun c first => ?_
  refine ⟨?_, ?_, ?_⟩ <;>
    · rintro rfl
      rcases plain _ first with digit | word | quote
      · cases digit
      · cases word
      · cases quote

theorem closes_of_ne_mark {kind : Token.Kind} (noMark : ∀ symbol, kind ≠ .mark symbol) :
    (Piece.token kind).Closes := by
  refine closes_of_absorbs fun symbol _ => ?_
  cases kind with
  | mark symbol => exact absurd rfl (noMark symbol)
  | _ => cases symbol <;> rfl

theorem fits_token (kind : Token.Kind) (lexed : kind.Lexed Number.Rereads)
    (noMark : ∀ symbol, kind ≠ .mark symbol) : Fits [.token kind] :=
  fits_single lexed (opens_of_lexed lexed noMark) (closes_of_ne_mark noMark)

theorem Fits.keyword (word : Keyword) (neutral : piece.Neutral) (more : Fits right) :
    Fits (Piece.keyword word :: piece :: right) :=
  (fits_token (.keyword word) trivial nofun).join neutral more

theorem Fits.ident {name : String} (isName : IsName name) (neutral : piece.Neutral)
    (more : Fits right) : Fits (Piece.ident name :: piece :: right) :=
  (fits_token (.ident name) isName nofun).join neutral more

end Piece

end Formulae
