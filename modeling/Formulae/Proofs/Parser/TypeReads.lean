import Formulae.Proofs.Parser.ExprLaws
import Formulae.Proofs.Tree.Readable
import Formulae.Tree.Printer

/-!
# Reading written types

The rules look only at the kinds of the tokens ahead.  A row of kinds that was
written for a type is read as that type, whatever follows that could not belong to
the type.
-/

namespace Formulae

/-! ## The kinds of written pieces -/

namespace Piece

@[simp]
theorem tokens_nil : tokens [] = [] :=
  rfl

@[simp]
theorem tokens_append (left right : List Piece) :
    tokens (left ++ right) = tokens left ++ tokens right := by
  simp [tokens]

@[simp]
theorem tokens_cons_token (kind : Token.Kind) (rest : List Piece) :
    tokens (.token kind :: rest) = kind :: tokens rest :=
  rfl

@[simp]
theorem tokens_cons_mark (symbol : Mark) (rest : List Piece) :
    tokens (.mark symbol :: rest) = .mark symbol :: tokens rest :=
  rfl

@[simp]
theorem tokens_cons_keyword (word : Keyword) (rest : List Piece) :
    tokens (.keyword word :: rest) = .keyword word :: tokens rest :=
  rfl

@[simp]
theorem tokens_cons_ident (name : String) (rest : List Piece) :
    tokens (.ident name :: rest) = .ident name :: tokens rest :=
  rfl

@[simp]
theorem tokens_cons_space (rest : List Piece) : tokens (.space :: rest) = tokens rest :=
  rfl

@[simp]
theorem tokens_cons_newline (columns : Nat) (rest : List Piece) :
    tokens (.newline columns :: rest) = tokens rest :=
  rfl

@[simp]
theorem tokens_around (config : PrintConfig) (piece : Piece) :
    tokens (config.around piece) = tokens [piece] := by
  unfold PrintConfig.around
  split <;> cases piece <;> rfl

theorem tokens_separated_cons (first next : List Piece) (rest : List (List Piece)) :
    tokens (separated comma (first :: next :: rest))
      = tokens first ++ .mark .comma :: tokens (separated comma (next :: rest)) := by
  simp [separated, comma]

end Piece

namespace Parser

variable {s s' : State}

/-! ## The kinds ahead -/

/-- The kinds of the tokens ahead. -/
def State.kinds (s : State) : List Token.Kind :=
  s.cursor.ahead.map Token.kind

@[simp]
theorem State.kinds_addExpr (s : State) : s.addExpr.kinds = s.kinds :=
  rfl

@[simp]
theorem State.kinds_addStmt (s : State) : s.addStmt.kinds = s.kinds :=
  rfl

/-- The first of several kinds, or the end of the input. -/
def firstKind (kinds : List Token.Kind) : Token.Kind :=
  kinds.head?.getD .endOfInput

@[simp]
theorem firstKind_cons (kind : Token.Kind) (rest : List Token.Kind) :
    firstKind (kind :: rest) = kind :=
  rfl

@[simp]
theorem firstKind_nil : firstKind [] = .endOfInput :=
  rfl

theorem State.kind_eq_firstKind (s : State) : s.kind = firstKind s.kinds := by
  unfold State.kind Cursor.kind Cursor.current State.kinds firstKind
  cases s.cursor.ahead <;> rfl

theorem State.kind_of_kinds {kinds : List Token.Kind} (h : s.kinds = kinds) :
    s.kind = firstKind kinds := by
  rw [State.kind_eq_firstKind, h]

theorem State.kinds_advance {kind : Token.Kind} {rest : List Token.Kind}
    (h : s.kinds = kind :: rest) : s.advance.kinds = rest := by
  unfold State.kinds State.advance Cursor.advance at *
  cases ahead : s.cursor.ahead with
  | nil => simp [ahead] at h
  | cons token tokens =>
      simp only [ahead, List.map_cons, List.cons.injEq] at h
      exact h.2

/-! ## Types -/

/-- What follows does not go on an array type. -/
def EndsType (rest : List Token.Kind) : Prop :=
  firstKind rest ≠ .mark .leftBracket

/-- The first kind of a type is one that starts a type. -/
theorem typeKinds_first : (type : TypeExpr) → ∃ first rest,
    Piece.tokens type.pieces = first :: rest ∧
      (first.isTypeWord ∨ ∃ name, first = .ident name) ∧
        (type.startsWithWord → first.isTypeWord)
  | .basic word => ⟨_, _, rfl, .inl rfl, fun _ => rfl⟩
  | .named name => ⟨_, _, rfl, .inr ⟨name, rfl⟩, nofun⟩
  | .function params ret => by
      have spelled := Piece.tokens_append
        ([.keyword .functionWord, .mark .leftParen] ++
          Piece.separated Piece.comma (TypeExpr.piecesAll params)
          ++ [.mark .rightParen, .space, .mark .arrow, .space]) ret.pieces
      exact ⟨.keyword .functionWord, _, spelled, .inl rfl, fun _ => rfl⟩
  | .array element => by
      rcases typeKinds_first element with ⟨first, rest, spelled, starts, word⟩
      refine ⟨first, rest ++ [.mark .leftBracket, .mark .rightBracket], ?_, starts, word⟩
      simp [TypeExpr.pieces, spelled]

/-- The first word or name of a type that is no function, and then brackets. -/
theorem typeExpr_spine : (type : TypeExpr) → type.Readable → type.isFunction = false →
    ∀ {s : State} {rest : List Token.Kind}, s.kinds = Piece.tokens type.pieces ++ rest →
      ∃ s₁, s₁.kinds = rest ∧ ∀ type' s', (arraySuffix type s₁).value = type' →
        (arraySuffix type s₁).state = s' → Gives (typeExpr s) type' s'
  | .basic word, _, _, s, rest, kinds =>
      ⟨s.advance, State.kinds_advance kinds, fun _ _ value state =>
        (gives_typeExpr_basic (State.kind_of_kinds kinds)).mpr ⟨value, state⟩⟩
  | .named name, _, _, s, rest, kinds =>
      ⟨s.advance, State.kinds_advance kinds, fun _ _ value state =>
        (gives_typeExpr_named (State.kind_of_kinds kinds)).mpr ⟨value, state⟩⟩
  | .array element, readable, _, s, rest, kinds => by
      simp only [TypeExpr.pieces, Piece.tokens_append, Piece.tokens_cons_mark, Piece.tokens_nil,
        List.append_assoc, List.cons_append, List.nil_append] at kinds
      rcases typeExpr_spine element readable.1 readable.2 kinds with ⟨s₁, ahead, continues⟩
      have ahead₁ := State.kinds_advance ahead
      rcases arraySuffix_of_brackets element (State.kind_of_kinds ahead)
        (State.kind_of_kinds ahead₁) with ⟨sameValue, sameState⟩
      refine ⟨s₁.advance.advance, State.kinds_advance ahead₁, fun type' s' value state => ?_⟩
      exact continues type' s' (sameValue.trans value) (sameState.trans state)

theorem typeExpr_reads_of_spine {type : TypeExpr} (readable : type.Readable)
    (simple : type.isFunction = false) {rest : List Token.Kind}
    (kinds : s.kinds = Piece.tokens type.pieces ++ rest) (ends : EndsType rest) :
    ∃ s', Gives (typeExpr s) type s' ∧ s'.kinds = rest := by
  rcases typeExpr_spine type readable simple kinds with ⟨s₁, ahead, continues⟩
  have stop := arraySuffix_of_stop (s := s₁) type fun opening =>
    absurd opening (by rw [State.kind_of_kinds ahead]; exact ends)
  exact ⟨s₁, continues _ _ (by rw [stop]; rfl) (by rw [stop]; rfl), ahead⟩

/-- Written parameter types, if any, are read up to and with the parenthesis. -/
theorem typeList_reads_of_from {types : List TypeExpr} {rest : List Token.Kind}
    (kinds : s.kinds = Piece.tokens (Piece.separated Piece.comma (TypeExpr.piecesAll types))
      ++ .mark .rightParen :: rest)
    (nonempty : types ≠ [] → ∃ s', Gives (typesFrom s) types s' ∧ s'.kinds = rest) :
    ∃ s', Gives (typeList s) types s' ∧ s'.kinds = rest := by
  cases types with
  | nil =>
      exact ⟨s.advance, (gives_typeList_nil (State.kind_of_kinds kinds)).mpr ⟨rfl, rfl⟩,
        State.kinds_advance kinds⟩
  | cons type types =>
      rcases nonempty nofun with ⟨s₁, list, ahead⟩
      refine ⟨s₁, (gives_typeList_cons ?_).mpr list, ahead⟩
      rcases typeKinds_first type with ⟨first, more, spelled, starts, -⟩
      have firstIs : s.kind = first := by
        rw [State.kind_of_kinds kinds]
        cases types <;> simp [TypeExpr.piecesAll, Piece.separated, Piece.comma, spelled]
      rw [firstIs]
      rcases starts with word | ⟨name, rfl⟩
      · rintro rfl
        cases word
      · nofun

mutual

/-- A written type is read as the type. -/
theorem typeExpr_reads : (type : TypeExpr) → type.Readable →
    ∀ {s : State} {rest : List Token.Kind}, s.kinds = Piece.tokens type.pieces ++ rest →
      EndsType rest → ∃ s', Gives (typeExpr s) type s' ∧ s'.kinds = rest
  | .function params ret, readable, s, rest, kinds, ends => by
      simp only [TypeExpr.pieces, Piece.tokens_append, Piece.tokens_cons_mark,
        Piece.tokens_cons_keyword, Piece.tokens_cons_space, List.append_assoc, List.cons_append, List.nil_append] at kinds
      have ahead₁ := State.kinds_advance kinds
      have ahead₂ := State.kinds_advance ahead₁
      rcases typeList_reads_of_from ahead₂ fun nonempty =>
        typesFrom_reads params nonempty readable.1 ahead₂ with ⟨s₁, list, ahead₃⟩
      rcases typeExpr_reads ret readable.2 (State.kinds_advance ahead₃) ends with
        ⟨s₂, result, ahead₄⟩
      refine ⟨s₂, ?_, ahead₄⟩
      exact (gives_typeExpr_function (State.kind_of_kinds kinds)).mpr
        ⟨State.kind_of_kinds ahead₁, params, s₁, State.kind_of_kinds ahead₃, list, ret, rfl, result⟩
  | .basic word, readable, _, _, kinds, ends => typeExpr_reads_of_spine readable rfl kinds ends
  | .named name, readable, _, _, kinds, ends => typeExpr_reads_of_spine readable rfl kinds ends
  | .array element, readable, _, _, kinds, ends => typeExpr_reads_of_spine readable rfl kinds ends

/-- Written parameter types are read up to and with the parenthesis. -/
theorem typesFrom_reads : (types : List TypeExpr) → types ≠ [] → TypeExpr.ReadableAll types →
    ∀ {s : State} {rest : List Token.Kind},
      s.kinds = Piece.tokens (Piece.separated Piece.comma (TypeExpr.piecesAll types))
        ++ .mark .rightParen :: rest →
      ∃ s', Gives (typesFrom s) types s' ∧ s'.kinds = rest
  | [type], _, readable, s, rest, kinds => by
      rcases typeExpr_reads type readable.1 kinds nofun with ⟨s₁, head, ahead⟩
      exact ⟨s₁.advance, gives_typesFrom.mpr
        ⟨type, s₁, head, .inr ⟨rfl, State.kind_of_kinds ahead, rfl⟩⟩, State.kinds_advance ahead⟩
  | type :: next :: types, _, readable, s, rest, kinds => by
      simp only [TypeExpr.piecesAll, Piece.tokens_separated_cons, List.append_assoc,
        List.cons_append] at kinds
      rcases typeExpr_reads type readable.1 kinds nofun with ⟨s₁, head, ahead⟩
      rcases typesFrom_reads (next :: types) nofun readable.2 (State.kinds_advance ahead) with
        ⟨s₂, tail, ahead'⟩
      exact ⟨s₂, gives_typesFrom.mpr
        ⟨type, s₁, head, .inl ⟨State.kind_of_kinds ahead, next :: types, rfl, tail⟩⟩, ahead'⟩

end

end Parser

end Formulae
