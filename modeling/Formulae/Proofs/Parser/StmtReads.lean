import Formulae.Proofs.Parser.StmtChoice

/-!
# Reading written statements

A row of kinds that was written for a statement is read as that statement, whatever
follows; only a conditional without an `else` must not be followed by one.
-/

namespace Formulae.Parser

variable {s s' : State} {ks input : List Token.Kind}

/-! ## Declarations -/

/-- A type is not read behind a reserved word. -/
theorem typeKinds_ne_keyword {type : TypeExpr} {word : Keyword} (other : word ≠ .functionWord)
    (kinds : s.kinds = Piece.tokens type.pieces ++ input) : s.kind ≠ .keyword word := by
  rcases typeKinds_first type with ⟨first, more, spelled, starts, -⟩
  rw [State.kind_of_kinds kinds, spelled, List.cons_append, firstKind_cons]
  rcases starts with isWord | ⟨name, rfl⟩
  · rintro rfl
    cases word <;> contradiction
  · nofun

/-- A written declaration is read as it is. -/
theorem binder_reads {bound : Binder} (readable : bound.Readable)
    (kinds : s.kinds = Piece.tokens bound.pieces ++ input) :
    ∃ s₁, Gives (binder s) bound s₁ ∧ s₁.kinds = input := by
  obtain ⟨mutable, type, name⟩ := bound
  -- What stands behind a `mut` is read in the same way with it and without it.
  have behind {start : State} (ahead : start.kinds =
      Piece.tokens (Binder.pieces ⟨false, type, name⟩) ++ input) :
      ∃ s₁, GivesBinder mutable start ⟨mutable, type, name⟩ s₁ ∧ s₁.kinds = input ∧
        start.kind ≠ .keyword .mutWord := by
    cases type with
    | none =>
        simp only [Binder.pieces, Bool.false_eq_true, if_false, List.nil_append, List.cons_append,
          Piece.tokens_cons_keyword, Piece.tokens_cons_space, Piece.tokens_cons_ident,
          Piece.tokens_nil] at ahead
        have isVar : start.kind = .keyword .varWord := State.kind_of_kinds ahead
        have ahead' := State.kinds_advance ahead
        exact ⟨start.advance.advance,
          .inl ⟨isVar, name, rfl, State.kind_of_kinds ahead', rfl⟩, State.kinds_advance ahead',
          by rw [isVar]; nofun⟩
    | some type =>
        simp only [Binder.pieces, Bool.false_eq_true, if_false, List.nil_append, List.cons_append,
          Piece.tokens_append, Piece.tokens_cons_space, Piece.tokens_cons_ident, Piece.tokens_nil,
          List.append_assoc] at ahead
        rcases typeExpr_reads type (readable.type type rfl) ahead nofun with ⟨s₁, written, ahead'⟩
        exact ⟨s₁.advance, .inr ⟨typeKinds_ne_keyword nofun ahead, type, s₁, written, name, rfl,
          State.kind_of_kinds ahead', rfl⟩, State.kinds_advance ahead',
          typeKinds_ne_keyword nofun ahead⟩
  cases mutable with
  | false =>
      rcases behind kinds with ⟨s₁, given, ahead, notMut⟩
      exact ⟨s₁, (gives_binder_of_ne notMut).mpr given, ahead⟩
  | true =>
      have isMut : s.kind = .keyword .mutWord := State.kind_of_kinds kinds
      rcases behind (State.kinds_advance kinds) with ⟨s₁, given, ahead, -⟩
      exact ⟨s₁, (gives_binder_of_mut isMut).mpr given, ahead⟩

/-- A written declaration is no function and no block, and what follows its name
decides what else it may be. -/
theorem fails_functionDecl_of_binder {bound : Binder} (readable : bound.Readable)
    (kinds : s.kinds = Piece.tokens bound.pieces ++ input)
    (noParen : firstKind input ≠ .mark .leftParen) : Fails (functionDecl s) := by
  obtain ⟨mutable, type, name⟩ := bound
  have nothing (h : mutable = true ∨ type = none) : NamesNothing s := by
    rcases h with rfl | rfl
    · exact namesNothing_of_keyword (State.kind_of_kinds kinds) nofun
    · cases mutable <;> exact namesNothing_of_keyword (State.kind_of_kinds kinds) nofun
  cases mutable with
  | true => exact fails_functionDecl (nothing (.inl rfl))
  | false =>
      cases type with
      | none => exact fails_functionDecl (nothing (.inr rfl))
      | some type =>
          simp only [Binder.pieces, Bool.false_eq_true, if_false, List.nil_append,
            List.cons_append, Piece.tokens_append, Piece.tokens_cons_space,
            Piece.tokens_cons_ident, Piece.tokens_nil, List.append_assoc] at kinds
          rcases typeExpr_reads type (readable.type type rfl) kinds nofun with ⟨s₁, written, ahead⟩
          intro stmt s' gives
          rcases gives_functionDecl.mp gives with ⟨_, _, given, _, _, paren, _⟩
          rcases given.unique written with ⟨-, rfl⟩
          rw [State.kind_of_kinds (State.kinds_advance ahead)] at paren
          exact noParen paren

/-- A declaration starts with a word or a name. -/
theorem binderKinds_first (bound : Binder) : ∃ first rest,
    Piece.tokens bound.pieces = first :: rest ∧ (first = .keyword .mutWord ∨
      first = .keyword .varWord ∨ first.isTypeWord ∨ ∃ name, first = .ident name) := by
  obtain ⟨mutable, type, name⟩ := bound
  cases mutable with
  | true => exact ⟨_, _, rfl, .inl rfl⟩
  | false =>
      cases type with
      | none => exact ⟨_, _, rfl, .inr (.inl rfl)⟩
      | some type =>
          rcases typeKinds_first type with ⟨first, more, spelled, starts, -⟩
          refine ⟨first, more ++ [.ident name], ?_, .inr (.inr starts)⟩
          simp [Binder.pieces, spelled]

theorem binderKinds_ne_mark {bound : Binder} {mark : Mark}
    (kinds : s.kinds = Piece.tokens bound.pieces ++ input) : s.kind ≠ .mark mark := by
  rcases binderKinds_first bound with ⟨first, more, spelled, starts⟩
  rw [State.kind_of_kinds kinds, spelled, List.cons_append, firstKind_cons]
  rintro rfl
  rcases starts with isMut | isVar | isWord | ⟨_, isName⟩
  · cases isMut
  · cases isVar
  · cases isWord
  · cases isName

/-- A written parameter is read but for its place. -/
theorem param_reads {bound : Param} (readable : bound.Readable)
    (kinds : s.kinds = Piece.tokens bound.pieces ++ input) :
    ∃ bound' s₁, bound'.bare = bound.bare ∧ s₁.kinds = input ∧ Gives (param s) bound' s₁ := by
  obtain ⟨mutable, type, name, span⟩ := bound
  have behind {start : State} (ahead : start.kinds =
      Piece.tokens (Param.pieces ⟨false, type, name, span⟩) ++ input) :
      ∃ bound' s₁, bound'.bare = Param.bare ⟨mutable, type, name, span⟩ ∧ s₁.kinds = input ∧
        GivesParam s.span mutable start bound' s₁ ∧ start.kind ≠ .keyword .mutWord := by
    simp only [Param.pieces, Bool.false_eq_true, if_false, List.nil_append, List.cons_append,
      Piece.tokens_append, Piece.tokens_cons_space, Piece.tokens_cons_ident, Piece.tokens_nil,
      List.append_assoc] at ahead
    rcases typeExpr_reads type readable.type ahead nofun with ⟨s₁, written, ahead'⟩
    exact ⟨⟨mutable, type, name, s₁.advance.spanFrom s.span⟩, s₁.advance, rfl,
      State.kinds_advance ahead',
      ⟨type, s₁, written, name, rfl, State.kind_of_kinds ahead', rfl⟩,
      typeKinds_ne_keyword nofun ahead⟩
  cases mutable with
  | false =>
      rcases behind kinds with ⟨bound', s₁, same, ahead, given, notMut⟩
      exact ⟨bound', s₁, same, ahead, (gives_param_of_ne notMut).mpr given⟩
  | true =>
      have isMut : s.kind = .keyword .mutWord := State.kind_of_kinds kinds
      rcases behind (State.kinds_advance kinds) with ⟨bound', s₁, same, ahead, given, -⟩
      exact ⟨bound', s₁, same, ahead, (gives_param_of_mut isMut).mpr given⟩

theorem paramsFrom_reads : (list : List Param) → list ≠ [] → (∀ bound ∈ list, bound.Readable) →
    ∀ {s : State} {input : List Token.Kind}, s.kinds =
      Piece.tokens (Piece.separated Piece.comma (list.map Param.pieces))
        ++ .mark .rightParen :: input →
      ∃ list' s₁, list'.map Param.bare = list.map Param.bare ∧ s₁.kinds = input ∧
        Gives (paramsFrom s) list' s₁
  | [only], _, readable, s, input, kinds => by
      rcases param_reads (readable only (by simp)) kinds with ⟨first, s₁, same, ahead, given⟩
      exact ⟨[first], s₁.advance, by simp [same], State.kinds_advance ahead, gives_paramsFrom.mpr
        ⟨first, s₁, given, .inr ⟨rfl, State.kind_of_kinds ahead, rfl⟩⟩⟩
  | bound :: next :: rest, _, readable, s, input, kinds => by
      simp only [List.map_cons, Piece.tokens_separated_cons, List.append_assoc,
        List.cons_append] at kinds
      rcases param_reads (readable bound (by simp)) kinds with ⟨first, s₁, same, ahead, given⟩
      rcases paramsFrom_reads (next :: rest) nofun
        (fun other member => readable other (List.mem_cons_of_mem _ member))
        (State.kinds_advance ahead) with ⟨others, s₂, sameRest, ahead', givenRest⟩
      refine ⟨first :: others, s₂, ?_, ahead', gives_paramsFrom.mpr
        ⟨first, s₁, given, .inl ⟨State.kind_of_kinds ahead, others, rfl, givenRest⟩⟩⟩
      simp only [List.map_cons, same, sameRest]

/-- Written parameters are read up to and with the parenthesis. -/
theorem params_reads {list : List Param} (readable : ∀ bound ∈ list, bound.Readable)
    (kinds : s.kinds = Piece.tokens (Piece.separated Piece.comma (list.map Param.pieces))
      ++ .mark .rightParen :: input) :
    ∃ list' s₁, list'.map Param.bare = list.map Param.bare ∧ s₁.kinds = input ∧
      Gives (params s) list' s₁ := by
  cases list with
  | nil => exact ⟨[], s.advance, rfl, State.kinds_advance kinds,
      (gives_params_nil (State.kind_of_kinds kinds)).mpr ⟨rfl, rfl⟩⟩
  | cons bound rest =>
      rcases paramsFrom_reads (bound :: rest) nofun readable kinds with
        ⟨list', s₁, same, ahead, given⟩
      refine ⟨list', s₁, same, ahead, ?_⟩
      rw [params_of_ne]
      · exact given
      · intro closed
        rcases gives_paramsFrom.mp given with ⟨first, s₂, givenFirst, -⟩
        have notMut : s.kind ≠ .keyword .mutWord := by rw [closed]; nofun
        rcases (gives_param_of_ne notMut).mp givenFirst with ⟨type, s₃, written, -⟩
        exact fails_typeExpr (by rw [closed]; rfl) (by rw [closed]; nofun) _ _ written

/-! ## Parts of statements -/

variable {α : Type} (config : PrintConfig)

/-- A written expression is read up to the mark that ends it. -/
theorem expression_reads {e : Expr α} (readable : e.Readable Number.Rereads) {mark : Mark}
    (ends : mark ∈ [Mark.rightParen, .rightBracket, .rightBrace, .comma, .colon, .semicolon])
    (kinds : s.kinds = Piece.tokens (e.pieces config) ++ .mark mark :: input) :
    ∃ e' s₁, e'.bare = e.bare ∧ s₁.kinds = .mark mark :: input ∧ Gives (expression s) e' s₁ :=
  (expr_reads config e readable).exprAs (Nat.zero_le _) s _ kinds (endsExpr_of_mark ends)

/-- In the place of a statement too, where no brace comes first. -/
theorem statementPieces_reads {e : Expr α} (readable : e.Readable Number.Rereads) :
    ExprAs 0 (Piece.tokens (e.statementPieces config)) e.bare ∧
      Opens (Piece.tokens (e.statementPieces config)) false := by
  have reads := expr_reads config e readable
  rw [Expr.statementPieces, tokens_enclosed, ← Expr.startsWithArray_bare]
  unfold enclosed
  split
  · exact ⟨(reads.parenthesized.unaryAs.binaryAs 0 0).exprAs (Nat.le_refl _),
      Opens.of_first (.mark .leftParen) rfl (by simp) (by simp) _⟩
  · next noArray =>
      have opens := reads.opens
      rw [Bool.not_eq_true] at noArray
      rw [noArray] at opens
      exact ⟨reads.exprAs (Nat.zero_le _), opens⟩

theorem condition_reads {cond : Expr α} (readable : cond.Readable Number.Rereads)
    (kinds : s.kinds = .mark .leftParen ::
      (Piece.tokens (cond.pieces config) ++ .mark .rightParen :: input)) :
    ∃ e s₁, e.bare = cond.bare ∧ s₁.kinds = input ∧ Gives (condition s) e s₁ := by
  rcases expression_reads config readable (by decide) (State.kinds_advance kinds) with
    ⟨e, s₁, same, ahead, inner⟩
  exact ⟨e, s₁.advance, same, State.kinds_advance ahead, gives_condition.mpr
    ⟨State.kind_of_kinds kinds, s₁, State.kind_of_kinds ahead, inner, rfl⟩⟩

/-- An expression that may be missing is read with the mark that ends it. -/
theorem optional_reads {e : Option (Expr α)} (readable : ∀ e' ∈ e, e'.Readable Number.Rereads)
    {mark : Mark} (ends : mark = .semicolon ∨ mark = .rightParen)
    (kinds : s.kinds = Piece.tokens (Stmt.spacedOption config e) ++ .mark mark :: input) :
    ∃ e' s₁, e'.map Expr.bare = e.map Expr.bare ∧ s₁.kinds = input ∧
      Gives (optionalBefore mark s) e' s₁ := by
  cases e with
  | none =>
      exact ⟨none, s.advance, rfl, State.kinds_advance kinds,
        (gives_optionalBefore_none (State.kind_of_kinds kinds)).mpr ⟨rfl, rfl⟩⟩
  | some e =>
      simp only [Stmt.spacedOption, Piece.tokens_cons_space] at kinds
      have closes : mark ∈ [Mark.rightParen, .rightBracket, .rightBrace, .comma, .colon,
          .semicolon] := by
        rcases ends with rfl | rfl <;> decide
      rcases expression_reads config (readable e rfl) closes kinds with ⟨e', s₁, same, ahead, inner⟩
      have follows : FollowsName (.mark mark :: input) := .inr ⟨mark, input, rfl, by
        rcases ends with rfl | rfl <;> simp⟩
      have first := ((expr_reads config e (readable e rfl)).opens.append follows).first
      have notMark : s.kind ≠ .mark mark := by
        intro isMark
        rw [← kinds, ← State.kind_eq_firstKind, isMark] at first
        rcases ends with rfl | rfl <;> cases first
      exact ⟨some e', s₁.advance, congrArg some same, State.kinds_advance ahead,
        (gives_optionalBefore_some notMark).mpr
          ⟨e', rfl, s₁, State.kind_of_kinds ahead, inner, rfl⟩⟩

theorem varDecl_reads {bound : Binder} {init : Expr α} (readable : bound.Readable)
    (value : init.Readable Number.Rereads)
    (kinds : s.kinds = Piece.tokens bound.pieces ++ .mark .equal ::
      (Piece.tokens (init.pieces config) ++ .mark .semicolon :: input)) :
    ∃ stmt s₁, stmt.bare = .varDecl .bare bound init.bare ∧ s₁.kinds = input ∧
      Gives (varDecl s) stmt s₁ := by
  rcases binder_reads readable kinds with ⟨s₁, given, ahead⟩
  rcases expression_reads config value (by decide) (State.kinds_advance ahead) with
    ⟨e, s₂, same, ahead', inner⟩
  refine ⟨_, s₂.advance.addStmt, ?_, State.kinds_advance ahead', gives_varDecl.mpr
    ⟨bound, s₁, given, State.kind_of_kinds ahead, e, s₂, inner, State.kind_of_kinds ahead',
      rfl, rfl⟩⟩
  rw [Stmt.bare, same]

theorem exprStmt_reads {e : Expr α} (readable : e.Readable Number.Rereads)
    (kinds : s.kinds = Piece.tokens (e.statementPieces config) ++ .mark .semicolon :: input) :
    Opens s.kinds false ∧ ∃ stmt s₁, stmt.bare = .expr .bare e.bare ∧ s₁.kinds = input ∧
      Gives (exprStmt s) stmt s₁ := by
  rcases statementPieces_reads config readable with ⟨reads, opens⟩
  refine ⟨kinds ▸ opens.append (.inr ⟨.semicolon, input, rfl, nofun⟩), ?_⟩
  rcases reads s _ kinds (endsExpr_of_mark (by decide)) with ⟨e', s₁, same, ahead, inner⟩
  refine ⟨_, s₁.advance.addStmt, ?_, State.kinds_advance ahead, gives_exprStmt.mpr
    ⟨e', s₁, inner, State.kind_of_kinds ahead, rfl, rfl⟩⟩
  rw [Stmt.bare, same]

/-- What stands first in the header of a loop is read, and is not taken for what a
loop over a collection declares. -/
theorem forInit_reads {depth : Nat} {init : Option (Stmt α)}
    (readable : Stmt.ReadableOption Number.Rereads init) (header : ∀ stmt ∈ init, stmt.isHeader)
    (kinds : s.kinds = Piece.tokens (Stmt.initPieces config depth init) ++ input) :
    (∃ init' s₁, Stmt.bareOption init' = Stmt.bareOption init ∧ s₁.kinds = input ∧
      Gives (forInit s) init' s₁) ∧
      ∀ bound s₁, Gives (binder s) bound s₁ → s₁.kind ≠ .mark .colon := by
  cases init with
  | none =>
      have isSemicolon : s.kind = .mark .semicolon := State.kind_of_kinds kinds
      refine ⟨⟨none, s.advance, rfl, State.kinds_advance kinds,
        (gives_forInit_none isSemicolon).mpr ⟨rfl, rfl⟩⟩, fun bound s₁ given => ?_⟩
      refine absurd given (fails_binder (namesNothing_of_kind ?_ ?_) ?_ ?_ _ _) <;>
        rw [isSemicolon] <;> first | rfl | nofun
  | some stmt =>
      cases stmt with
      | expr node e =>
          simp only [Stmt.initPieces, Stmt.pieces, Piece.tokens_append, Piece.tokens_cons_mark,
            Piece.tokens_nil, List.append_assoc, List.cons_append, List.nil_append] at kinds
          rcases exprStmt_reads config readable kinds with ⟨opens, stmt, s₁, same, ahead, given⟩
          have noBinder := fails_binder_of_opens opens
          have notSemicolon : s.kind ≠ .mark .semicolon := by
            have first := opens.first
            intro isSemicolon
            rw [← State.kind_eq_firstKind, isSemicolon] at first
            cases first
          refine ⟨⟨some stmt, s₁, congrArg some same, ahead, (gives_forInit_some notSemicolon).mpr
            ⟨stmt, rfl, .inr ⟨fails_varDecl noBinder, given⟩⟩⟩, fun bound s₁ bound' => ?_⟩
          exact absurd bound' (noBinder _ _)
      | varDecl node bound value =>
          simp only [Stmt.initPieces, Stmt.pieces, Piece.tokens_append, Piece.tokens_around,
            Piece.tokens_cons_mark, Piece.tokens_nil, List.append_assoc, List.cons_append,
            List.nil_append] at kinds
          rcases varDecl_reads config readable.1 readable.2 kinds with ⟨stmt, s₁, same, ahead, given⟩
          rcases binder_reads readable.1 kinds with ⟨s₂, bound', ahead'⟩
          refine ⟨⟨some stmt, s₁, congrArg some same, ahead,
            (gives_forInit_some (binderKinds_ne_mark kinds)).mpr ⟨stmt, rfl, .inl given⟩⟩,
            fun other s₃ given' isColon => ?_⟩
          rcases given'.unique bound' with ⟨-, rfl⟩
          rw [State.kind_of_kinds ahead'] at isColon
          cases isColon
      | _ => exact absurd (header _ rfl) nofun

/-! ## What is read -/

/-- A token that neither closes nor continues a statement before it. -/
def opensStmt : Token.Kind → Bool
  | .mark .rightBrace | .keyword .elseWord | .endOfInput => false
  | _ => true

theorem opensStmt_of_opensExpr {kind : Token.Kind} (h : kind.opensExpr) : opensStmt kind := by
  cases kind with
  | keyword word => cases word <;> first | rfl | cases h
  | mark symbol => cases symbol <;> first | rfl | cases h
  | endOfInput => cases h
  | _ => rfl

theorem opensStmt_of_isTypeWord {kind : Token.Kind} (h : kind.isTypeWord) : opensStmt kind := by
  unfold Token.Kind.isTypeWord at h
  split at h <;> first | rfl | contradiction

/-- The kinds are read as the statement, unless it would go on with an `else`. -/
structure StmtAs (opensElse : Bool) (ks : List Token.Kind) (b : Stmt Unit) : Prop where
  first : opensStmt (firstKind ks)
  reads : ∀ (s : State) (input : List Token.Kind), s.kinds = ks ++ input →
    (opensElse → firstKind input ≠ .keyword .elseWord) →
      ∃ stmt s₁, stmt.bare = b ∧ s₁.kinds = input ∧ Gives (statement s) stmt s₁

/-- The kinds before a closing brace are read as these statements. -/
structure BodyAs (ks : List Token.Kind) (bs : List (Stmt Unit)) : Prop where
  noElse : firstKind ks ≠ .keyword .elseWord
  reads : ∀ (s : State) (input : List Token.Kind), s.kinds = ks ++ .mark .rightBrace :: input →
    ∃ stmts s₁, Stmt.bareAll stmts = bs ∧ s₁.kinds = input ∧ Gives (blockBody s) stmts s₁

theorem StmtAs.first_append {opensElse : Bool} {b : Stmt Unit} (stmt : StmtAs opensElse ks b)
    (more : List Token.Kind) : opensStmt (firstKind (ks ++ more)) := by
  have first := stmt.first
  cases ks with
  | nil => cases first
  | cons kind rest => exact first

theorem bodyAs_nil : BodyAs [] [] :=
  ⟨nofun, fun s _ kinds => ⟨[], s.advance, rfl, State.kinds_advance kinds,
    (gives_blockBody_nil (State.kind_of_kinds kinds)).mpr ⟨rfl, rfl⟩⟩⟩

theorem bodyAs_cons {opensElse : Bool} {b : Stmt Unit} {more : List Token.Kind}
    {bs : List (Stmt Unit)} (head : StmtAs opensElse ks b) (rest : BodyAs more bs) :
    BodyAs (ks ++ more) (b :: bs) := by
  refine ⟨fun isElse => ?_, fun s input kinds => ?_⟩
  · have first := head.first_append more
    rw [isElse] at first
    cases first
  · rw [List.append_assoc] at kinds
    have first := head.first_append (more ++ .mark .rightBrace :: input)
    rw [← kinds, ← State.kind_eq_firstKind] at first
    have noElse : firstKind (more ++ .mark .rightBrace :: input) ≠ .keyword .elseWord := by
      cases more with
      | nil => nofun
      | cons kind tail => exact rest.noElse
    rcases head.reads s _ kinds fun _ => noElse with ⟨stmt, s₁, rfl, ahead, given⟩
    rcases rest.reads s₁ input ahead with ⟨stmts, s₂, rfl, ahead', givenRest⟩
    refine ⟨stmt :: stmts, s₂, rfl, ahead', (gives_blockBody_cons fun closed => ?_).mpr
      ⟨fun ended => ?_, stmt, s₁, given, stmts, rfl, givenRest⟩⟩
    · rw [closed] at first
      cases first
    · rw [ended] at first
      cases first

/-! ## One form after the other -/

theorem stmtAs_expr {e : Expr α} (readable : e.Readable Number.Rereads) :
    StmtAs false (Piece.tokens (e.statementPieces config) ++ [.mark .semicolon])
      (.expr .bare e.bare) := by
  refine ⟨?_, fun s input kinds _ => ?_⟩
  · exact opensStmt_of_opensExpr ((statementPieces_reads config readable).2.append
      (.inr ⟨.semicolon, [], rfl, nofun⟩)).first
  · rw [List.append_assoc] at kinds
    rcases exprStmt_reads config readable kinds with ⟨opens, stmt, s₁, same, ahead, given⟩
    exact ⟨stmt, s₁, same, ahead, (gives_statement_of_opens opens).mpr given⟩

theorem stmtAs_varDecl {bound : Binder} {init : Expr α} (readable : bound.Readable)
    (value : init.Readable Number.Rereads) :
    StmtAs false (Piece.tokens bound.pieces ++ .mark .equal ::
      (Piece.tokens (init.pieces config) ++ [.mark .semicolon])) (.varDecl .bare bound init.bare) := by
  refine ⟨?_, fun s input kinds _ => ?_⟩
  · rcases binderKinds_first bound with ⟨first, more, spelled, rfl | rfl | isWord | ⟨_, rfl⟩⟩ <;>
      rw [spelled]
    · rfl
    · rfl
    · exact opensStmt_of_isTypeWord isWord
    · rfl
  · simp only [List.append_assoc, List.cons_append, List.nil_append] at kinds
    rcases varDecl_reads config readable value kinds with ⟨stmt, s₁, same, ahead, given⟩
    exact ⟨stmt, s₁, same, ahead, gives_statement.mpr
      (.inr ⟨fails_block (binderKinds_ne_mark kinds),
        .inr ⟨fails_functionDecl_of_binder readable kinds nofun, .inl given⟩⟩)⟩

theorem stmtAs_ret {value : Option (Expr α)} (readable : ∀ e ∈ value, e.Readable Number.Rereads) :
    StmtAs false (.keyword .returnWord ::
      (Piece.tokens (Stmt.spacedOption config value) ++ [.mark .semicolon]))
      (.ret .bare (value.map Expr.bare)) := by
  refine ⟨rfl, fun s input kinds _ => ?_⟩
  simp only [List.append_assoc, List.cons_append, List.nil_append] at kinds
  rcases optional_reads config readable (.inl rfl) (State.kinds_advance kinds) with
    ⟨value', s₁, same, ahead, given⟩
  refine ⟨_, s₁.addStmt, ?_, ahead, gives_statement_of_word (.inl (gives_returnStmt.mpr
    ⟨State.kind_of_kinds kinds, value', s₁, given, rfl, rfl⟩))⟩
  rw [Stmt.bare, same]

theorem stmtAs_brk : StmtAs false [.keyword .breakWord, .mark .semicolon] (.brk .bare) := by
  refine ⟨rfl, fun s input kinds _ => ?_⟩
  have ahead := State.kinds_advance kinds
  exact ⟨_, s.advance.advance.addStmt, rfl, State.kinds_advance ahead, gives_statement_of_word
    (.inr (.inr (.inr (.inl (gives_breakStmt.mpr
      ⟨State.kind_of_kinds kinds, State.kind_of_kinds ahead, rfl, rfl⟩)))))⟩

theorem stmtAs_cont : StmtAs false [.keyword .continueWord, .mark .semicolon] (.cont .bare) := by
  refine ⟨rfl, fun s input kinds _ => ?_⟩
  have ahead := State.kinds_advance kinds
  exact ⟨_, s.advance.advance.addStmt, rfl, State.kinds_advance ahead, gives_statement_of_word
    (.inr (.inr (.inr (.inr (.inl (gives_continueStmt.mpr
      ⟨State.kind_of_kinds kinds, State.kind_of_kinds ahead, rfl, rfl⟩))))))⟩

theorem stmtAs_block {bs : List (Stmt Unit)} (body : BodyAs ks bs) :
    StmtAs false (.mark .leftBrace :: (ks ++ [.mark .rightBrace])) (.block .bare bs) := by
  refine ⟨rfl, fun s input kinds _ => ?_⟩
  simp only [List.append_assoc, List.cons_append, List.nil_append] at kinds
  rcases body.reads s.advance input (State.kinds_advance kinds) with ⟨stmts, s₁, rfl, ahead, given⟩
  exact ⟨_, s₁.addStmt, rfl, ahead, gives_statement.mpr (.inl (gives_block.mpr
    ⟨State.kind_of_kinds kinds, stmts, s₁, given, rfl, rfl⟩))⟩

theorem stmtAs_function {ret : TypeExpr} {name : String} {params : List Param}
    {bs : List (Stmt Unit)} (result : ret.Readable) (readable : ∀ bound ∈ params, bound.Readable)
    (body : BodyAs ks bs) :
    StmtAs false (Piece.tokens ret.pieces ++ .ident name :: .mark .leftParen ::
      (Piece.tokens (Piece.separated Piece.comma (params.map Param.pieces)) ++
        .mark .rightParen :: .mark .leftBrace :: (ks ++ [.mark .rightBrace])))
      (.function .bare ret name (params.map Param.bare) bs) := by
  rcases typeKinds_first ret with ⟨first, more, spelled, starts, -⟩
  refine ⟨?_, fun s input kinds _ => ?_⟩
  · rw [spelled]
    rcases starts with isWord | ⟨_, rfl⟩
    · exact opensStmt_of_isTypeWord isWord
    · rfl
  · simp only [List.append_assoc, List.cons_append, List.nil_append] at kinds
    have noBrace : s.kind ≠ .mark .leftBrace := by
      rw [State.kind_of_kinds kinds, spelled, List.cons_append, firstKind_cons]
      rintro rfl
      rcases starts with isWord | ⟨_, isName⟩
      · cases isWord
      · cases isName
    rcases typeExpr_reads ret result kinds nofun with ⟨s₁, written, ahead₁⟩
    have ahead₂ := State.kinds_advance ahead₁
    rcases params_reads readable (State.kinds_advance ahead₂) with ⟨bound, s₂, same, ahead₃, given⟩
    rcases body.reads s₂.advance input (State.kinds_advance ahead₃) with
      ⟨stmts, s₃, rfl, ahead₄, inner⟩
    refine ⟨_, s₃.addStmt, ?_, ahead₄, gives_statement.mpr (.inr ⟨fails_block noBrace, .inl
      (gives_functionDecl.mpr ⟨ret, s₁, written, name, State.kind_of_kinds ahead₁,
        State.kind_of_kinds ahead₂, bound, s₂, given, State.kind_of_kinds ahead₃, stmts, s₃, inner,
        rfl, rfl⟩)⟩)⟩
    rw [Stmt.bare, same]

theorem stmtAs_whileLoop {cond : Expr α} {opensElse : Bool} {b : Stmt Unit}
    (readable : cond.Readable Number.Rereads) (body : StmtAs opensElse ks b) :
    StmtAs opensElse (.keyword .whileWord :: .mark .leftParen ::
      (Piece.tokens (cond.pieces config) ++ .mark .rightParen :: ks))
      (.whileLoop .bare cond.bare b) := by
  refine ⟨rfl, fun s input kinds noElse => ?_⟩
  simp only [List.append_assoc, List.cons_append] at kinds
  rcases condition_reads config readable (State.kinds_advance kinds) with
    ⟨e, s₁, same, ahead, given⟩
  rcases body.reads s₁ input ahead noElse with ⟨stmt, s₂, rfl, ahead', inner⟩
  refine ⟨_, s₂.addStmt, ?_, ahead', gives_statement_of_word (.inr (.inl (gives_whileStmt.mpr
    ⟨State.kind_of_kinds kinds, e, s₁, given, stmt, s₂, inner, rfl, rfl⟩)))⟩
  rw [Stmt.bare, same]

theorem stmtAs_doWhile {cond : Expr α} {opensElse : Bool} {b : Stmt Unit}
    (readable : cond.Readable Number.Rereads) (body : StmtAs opensElse ks b) :
    StmtAs false (.keyword .doWord :: (ks ++ .keyword .whileWord :: .mark .leftParen ::
      (Piece.tokens (cond.pieces config) ++ [.mark .rightParen, .mark .semicolon])))
      (.doWhile .bare b cond.bare) := by
  refine ⟨rfl, fun s input kinds _ => ?_⟩
  simp only [List.append_assoc, List.cons_append, List.nil_append] at kinds
  rcases body.reads s.advance _ (State.kinds_advance kinds) (fun _ => nofun) with
    ⟨stmt, s₁, rfl, ahead, inner⟩
  rcases condition_reads config readable (State.kinds_advance ahead) with
    ⟨e, s₂, same, ahead', given⟩
  refine ⟨_, s₂.advance.addStmt, ?_, State.kinds_advance ahead', gives_statement_of_word
    (.inr (.inr (.inr (.inr (.inr (.inl (gives_doWhileStmt.mpr
      ⟨State.kind_of_kinds kinds, stmt, s₁, inner, State.kind_of_kinds ahead, e, s₂, given,
        State.kind_of_kinds ahead', rfl, rfl⟩)))))))⟩
  rw [Stmt.bare, same]

theorem stmtAs_ifElse_none {cond : Expr α} {opensElse : Bool} {b : Stmt Unit}
    (readable : cond.Readable Number.Rereads) (thenBranch : StmtAs opensElse ks b) :
    StmtAs true (.keyword .ifWord :: .mark .leftParen ::
      (Piece.tokens (cond.pieces config) ++ .mark .rightParen :: ks))
      (.ifElse .bare cond.bare b none) := by
  refine ⟨rfl, fun s input kinds noElse => ?_⟩
  simp only [List.append_assoc, List.cons_append] at kinds
  rcases condition_reads config readable (State.kinds_advance kinds) with
    ⟨e, s₁, same, ahead, given⟩
  rcases thenBranch.reads s₁ input ahead (fun _ => noElse rfl) with ⟨stmt, s₂, rfl, ahead', inner⟩
  refine ⟨_, s₂.addStmt, ?_, ahead', gives_statement_of_word (.inr (.inr (.inl (gives_ifStmt.mpr
    ⟨State.kind_of_kinds kinds, e, s₁, given, stmt, s₂, inner,
      .inr ⟨State.kind_of_kinds ahead' ▸ noElse rfl, rfl, rfl⟩⟩))))⟩
  rw [Stmt.bare, same, Stmt.bareOption]

theorem stmtAs_ifElse_some {cond : Expr α} {opensElse : Bool} {b other : Stmt Unit}
    {more : List Token.Kind} (readable : cond.Readable Number.Rereads)
    (thenBranch : StmtAs false ks b) (elseBranch : StmtAs opensElse more other) :
    StmtAs opensElse (.keyword .ifWord :: .mark .leftParen ::
      (Piece.tokens (cond.pieces config) ++ .mark .rightParen :: (ks ++ .keyword .elseWord :: more)))
      (.ifElse .bare cond.bare b (some other)) := by
  refine ⟨rfl, fun s input kinds noElse => ?_⟩
  simp only [List.append_assoc, List.cons_append] at kinds
  rcases condition_reads config readable (State.kinds_advance kinds) with
    ⟨e, s₁, same, ahead, given⟩
  rcases thenBranch.reads s₁ _ ahead nofun with ⟨stmt, s₂, rfl, ahead', inner⟩
  rcases elseBranch.reads s₂.advance input (State.kinds_advance ahead') noElse with
    ⟨stmt', s₃, rfl, ahead'', inner'⟩
  refine ⟨_, s₃.addStmt, ?_, ahead'', gives_statement_of_word (.inr (.inr (.inl (gives_ifStmt.mpr
    ⟨State.kind_of_kinds kinds, e, s₁, given, stmt, s₂, inner,
      .inl ⟨State.kind_of_kinds ahead', stmt', s₃, inner', rfl, rfl⟩⟩))))⟩
  rw [Stmt.bare, same, Stmt.bareOption]

theorem stmtAs_forEach {bound : Binder} {iterable : Expr α} {opensElse : Bool} {b : Stmt Unit}
    (readable : bound.Readable) (value : iterable.Readable Number.Rereads)
    (body : StmtAs opensElse ks b) :
    StmtAs opensElse (.keyword .forWord :: .mark .leftParen ::
      (Piece.tokens bound.pieces ++ .mark .colon ::
        (Piece.tokens (iterable.pieces config) ++ .mark .rightParen :: ks)))
      (.forEach .bare bound iterable.bare b) := by
  refine ⟨rfl, fun s input kinds noElse => ?_⟩
  simp only [List.append_assoc, List.cons_append] at kinds
  have ahead₁ := State.kinds_advance kinds
  rcases binder_reads readable (State.kinds_advance ahead₁) with ⟨s₁, given, ahead₂⟩
  rcases expression_reads config value (by decide) (State.kinds_advance ahead₂) with
    ⟨e, s₂, same, ahead₃, given'⟩
  rcases body.reads s₂.advance input (State.kinds_advance ahead₃) noElse with
    ⟨stmt, s₃, rfl, ahead₄, inner⟩
  refine ⟨_, s₃.addStmt, ?_, ahead₄, gives_statement_of_word
    (.inr (.inr (.inr (.inr (.inr (.inr (.inl (gives_forEachStmt.mpr
      ⟨State.kind_of_kinds kinds, State.kind_of_kinds ahead₁, bound, s₁, given,
        State.kind_of_kinds ahead₂, e, s₂, given', State.kind_of_kinds ahead₃, stmt, s₃, inner,
        rfl, rfl⟩))))))))⟩
  rw [Stmt.bare, same]

theorem stmtAs_forLoop {depth : Nat} {init : Option (Stmt α)} {cond step : Option (Expr α)}
    {opensElse : Bool} {b : Stmt Unit} (readable : Stmt.ReadableOption Number.Rereads init)
    (header : ∀ stmt ∈ init, stmt.isHeader) (condReadable : ∀ e ∈ cond, e.Readable Number.Rereads)
    (stepReadable : ∀ e ∈ step, e.Readable Number.Rereads) (body : StmtAs opensElse ks b) :
    StmtAs opensElse (.keyword .forWord :: .mark .leftParen ::
      (Piece.tokens (Stmt.initPieces config depth init) ++
        (Piece.tokens (Stmt.spacedOption config cond) ++ .mark .semicolon ::
          (Piece.tokens (Stmt.spacedOption config step) ++ .mark .rightParen :: ks))))
      (.forLoop .bare (Stmt.bareOption init) (cond.map Expr.bare) (step.map Expr.bare) b) := by
  refine ⟨rfl, fun s input kinds noElse => ?_⟩
  simp only [List.append_assoc, List.cons_append] at kinds
  have ahead₁ := State.kinds_advance kinds
  rcases forInit_reads config readable header (State.kinds_advance ahead₁) with
    ⟨⟨init', s₁, sameInit, ahead₂, given⟩, noColon⟩
  rcases optional_reads config condReadable (.inl rfl) ahead₂ with
    ⟨cond', s₂, sameCond, ahead₃, givenCond⟩
  rcases optional_reads config stepReadable (.inr rfl) ahead₃ with
    ⟨step', s₃, sameStep, ahead₄, givenStep⟩
  rcases body.reads s₃ input ahead₄ noElse with ⟨stmt, s₄, rfl, ahead₅, inner⟩
  have noEach : Fails (forEachStmt s) := by
    intro other s' gives
    rcases gives_forEachStmt.mp gives with ⟨-, -, bound, s₅, given', isColon, -⟩
    exact noColon bound s₅ given' isColon
  refine ⟨_, s₄.addStmt, ?_, ahead₅, gives_statement_of_word
    (.inr (.inr (.inr (.inr (.inr (.inr (.inr ⟨noEach, gives_forStmt.mpr
      ⟨State.kind_of_kinds kinds, State.kind_of_kinds ahead₁, init', s₁, given, cond', s₂,
        givenCond, step', s₃, givenStep, stmt, s₄, inner, rfl, rfl⟩⟩)))))))⟩
  rw [Stmt.bare, sameInit, sameCond, sameStep]

end Formulae.Parser
