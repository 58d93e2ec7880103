import Formulae.Proofs.Parser.StmtReads

/-!
# Reading written programs

Every readable statement is read from its kinds, and so is every readable program:
its last expression is no statement, since no semicolon ends it.
-/

namespace Formulae

/-! ## The kinds of lines -/

namespace Piece

theorem tokens_flatten (lists : List (List Piece)) :
    tokens lists.flatten = (lists.map tokens).flatten := by
  induction lists with
  | nil => rfl
  | cons first rest inductionHypothesis => simp [inductionHypothesis]

/-- Line breaks are no tokens. -/
theorem tokens_separated_newline (columns : Nat) : (lines : List (List Piece)) →
    tokens (separated [.newline columns] lines) = (lines.map tokens).flatten
  | [] => rfl
  | [only] => by simp [separated]
  | first :: next :: rest => by
      have others := tokens_separated_newline columns (next :: rest)
      simp [separated, others]

end Piece

theorem Stmt.tokens_braced (config : PrintConfig) (depth : Nat) (lines : List (List Piece)) :
    Piece.tokens (Stmt.braced config depth lines) =
      .mark .leftBrace :: ((lines.map Piece.tokens).flatten ++ [.mark .rightBrace]) := by
  have inner : (lines.map fun line => config.newline (depth + 1) :: line).map Piece.tokens
      = lines.map Piece.tokens := by
    rw [List.map_map]
    exact List.map_congr_left fun line _ => Piece.tokens_cons_newline _ line
  cases lines with
  | nil => rfl
  | cons first rest =>
      have last : Piece.tokens [config.newline depth, .mark .rightBrace]
          = [.mark .rightBrace] := rfl
      simp only [Stmt.braced, List.isEmpty_cons, Bool.false_eq_true, if_false,
        Piece.tokens_append, Piece.tokens_cons_mark, Piece.tokens_flatten, inner, last,
        List.cons_append, List.nil_append]

namespace Parser

variable {α : Type} (config : PrintConfig)

/-! ## Every statement -/

mutual

/-- A written statement is read as the statement. -/
theorem stmt_reads : (depth : Nat) → (stmt : Stmt α) → stmt.Readable Number.Rereads →
    StmtAs stmt.opensElse (Piece.tokens (stmt.pieces config depth)) stmt.bare
  | _, .expr _ e, readable => by
      simp only [Stmt.pieces, Piece.tokens_append, Piece.tokens_cons_mark, Piece.tokens_nil]
      exact stmtAs_expr config readable
  | _, .varDecl _ bound init, readable => by
      simp only [Stmt.pieces, Piece.tokens_append, Piece.tokens_around, Piece.tokens_cons_mark,
        Piece.tokens_nil, List.append_assoc, List.cons_append, List.nil_append]
      exact stmtAs_varDecl config readable.1 readable.2
  | _, .ret _ value, readable => by
      simp only [Stmt.pieces, Piece.tokens_append, Piece.tokens_cons_mark,
        Piece.tokens_cons_keyword, Piece.tokens_nil, List.cons_append, List.nil_append]
      exact stmtAs_ret config readable
  | depth, .ifElse _ cond thenBranch none, readable => by
      simp only [Stmt.pieces, Stmt.elsePieces, Piece.tokens_append, Piece.tokens_cons_mark,
        Piece.tokens_cons_keyword, Piece.tokens_cons_space, List.append_assoc,
        List.cons_append, List.nil_append, List.append_nil]
      exact stmtAs_ifElse_none config readable.1 (stmt_reads depth thenBranch readable.2.1)
  | depth, .ifElse _ cond thenBranch (some elseBranch), readable => by
      have closed := stmt_reads depth thenBranch readable.2.1
      rw [readable.2.2.2 rfl] at closed
      simp only [Stmt.pieces, Stmt.elsePieces, Piece.tokens_append, Piece.tokens_cons_mark,
        Piece.tokens_cons_keyword, Piece.tokens_cons_space, List.append_assoc,
        List.cons_append, List.nil_append]
      exact stmtAs_ifElse_some config readable.1 closed (stmt_reads depth elseBranch readable.2.2.1)
  | depth, .whileLoop _ cond body, readable => by
      simp only [Stmt.pieces, Piece.tokens_append, Piece.tokens_cons_mark,
        Piece.tokens_cons_keyword, Piece.tokens_cons_space, List.append_assoc,
        List.cons_append, List.nil_append]
      exact stmtAs_whileLoop config readable.1 (stmt_reads depth body readable.2)
  | depth, .doWhile _ body cond, readable => by
      simp only [Stmt.pieces, Piece.tokens_append, Piece.tokens_cons_mark,
        Piece.tokens_cons_keyword, Piece.tokens_cons_space, List.append_assoc,
        List.cons_append, List.nil_append]
      exact stmtAs_doWhile config readable.2 (stmt_reads depth body readable.1)
  | depth, .forLoop _ init cond step body, readable => by
      rcases readable with ⟨initReadable, header, condReadable, stepReadable, inner⟩
      simp only [Stmt.pieces, Piece.tokens_append, Piece.tokens_cons_mark,
        Piece.tokens_cons_keyword, Piece.tokens_cons_space, List.append_assoc,
        List.cons_append, List.nil_append]
      exact stmtAs_forLoop config initReadable header condReadable stepReadable
        (stmt_reads depth body inner)
  | depth, .forEach _ bound iterable body, readable => by
      simp only [Stmt.pieces, Piece.tokens_append, Piece.tokens_cons_mark,
        Piece.tokens_cons_keyword, Piece.tokens_cons_space, List.append_assoc,
        List.cons_append, List.nil_append]
      exact stmtAs_forEach config readable.1 readable.2.1 (stmt_reads depth body readable.2.2)
  | _, .brk _, _ => stmtAs_brk
  | _, .cont _, _ => stmtAs_cont
  | depth, .block _ stmts, readable => by
      rw [Stmt.pieces, Stmt.tokens_braced]
      exact stmtAs_block (stmts_read (depth + 1) stmts readable)
  | depth, .function _ ret name params body, readable => by
      simp only [Stmt.pieces, Piece.tokens_append, Piece.tokens_cons_mark, Piece.tokens_cons_ident,
        Piece.tokens_cons_space, Stmt.tokens_braced, List.append_assoc,
        List.cons_append, List.nil_append]
      exact stmtAs_function readable.1 readable.2.2.1 (stmts_read (depth + 1) body readable.2.2.2)

/-- Written statements are read as the statements of a block. -/
theorem stmts_read : (depth : Nat) → (stmts : List (Stmt α)) →
    Stmt.ReadableAll Number.Rereads stmts →
      BodyAs ((Stmt.piecesAll config depth stmts).map Piece.tokens).flatten (Stmt.bareAll stmts)
  | _, [], _ => bodyAs_nil
  | depth, stmt :: rest, readable =>
      bodyAs_cons (stmt_reads depth stmt readable.1) (stmts_read depth rest readable.2)

end

/-! ## Programs -/

variable {s s₁ : State}

theorem endsExpr_nil (minimum : Nat) : EndsExpr minimum [] :=
  ⟨⟨nofun, nofun⟩, nofun, nofun⟩

theorem wholeExpression_of_gives {e : Expr Unit} (given : Gives (expression s) e s₁)
    (ended : s₁.kinds = []) : wholeExpression s = .ok (e, s₁) := by
  rcases given with ⟨shorter, equal⟩
  have isEnd : s₁.kind = .endOfInput := State.kind_of_kinds ended
  unfold wholeExpression
  rw [equal]
  simp [bind, Except.bind, isEnd, pure, Except.pure]

theorem programBody_of_ended (ended : s.kinds = []) : programBody s = .ok ([], none, s) := by
  have isEnd : s.kind = .endOfInput := State.kind_of_kinds ended
  rw [programBody, if_pos isEnd]

theorem programBody_of_statement {first : Stmt Unit} (given : Gives (statement s) first s₁)
    (notEnd : s.kind ≠ .endOfInput) {rest : List (Stmt Unit)} {tail : Option (Expr Unit)} {last : State}
    (others : programBody s₁ = .ok (rest, tail, last)) :
    programBody s = .ok (first :: rest, tail, last) := by
  rcases given with ⟨shorter, equal⟩
  rw [programBody, if_neg notEnd, equal]
  simp [others, bind, Except.bind, pure, Except.pure]

theorem programBody_of_tail {e : Expr Unit} {last : State} (fails : Fails (statement s))
    (notEnd : s.kind ≠ .endOfInput) (whole : wholeExpression s = .ok (e, last)) :
    programBody s = .ok ([], some e, last) := by
  rcases fails_iff.mp fails with ⟨error, failed⟩
  rw [programBody, if_neg notEnd, failed]
  simp [orFurther, whole, bind, Except.bind, pure, Except.pure]

/-- The whole of what is ahead is read as the expression. -/
theorem wholeExpression_reads {ks : List Token.Kind} {b : Expr Unit} (reads : ExprAs 0 ks b)
    (kinds : s.kinds = ks) : ∃ e last, wholeExpression s = .ok (e, last) ∧ e.bare = b := by
  rw [← List.append_nil ks] at kinds
  rcases reads s [] kinds (endsExpr_nil 0) with ⟨e, s₁, same, ahead, given⟩
  exact ⟨e, s₁, wholeExpression_of_gives given ahead, same⟩

/-- An expression up to the end of the input is no statement. -/
theorem fails_statement_of_expression {ks : List Token.Kind} {b : Expr Unit}
    (reads : ExprAs 0 ks b) (opens : Opens ks false) (kinds : s.kinds = ks) :
    Fails (statement s) := by
  intro stmt s' gives
  rcases gives_exprStmt.mp ((gives_statement_of_opens (kinds ▸ opens)).mp gives) with
    ⟨e, s₁, given, isSemicolon, -⟩
  rw [← List.append_nil ks] at kinds
  rcases reads s [] kinds (endsExpr_nil 0) with ⟨e', s₂, -, ahead, given'⟩
  rcases given.unique given' with ⟨-, rfl⟩
  rw [State.kind_of_kinds ahead] at isSemicolon
  cases isSemicolon

/-- The kinds of the lines of a program. -/
def lineKinds (stmts : List (Stmt α)) (tail : Option (Expr α)) : List Token.Kind :=
  ((Stmt.piecesAll config 0 stmts
    ++ (tail.map (Expr.statementPieces config)).toList).map Piece.tokens).flatten

theorem lineKinds_cons (stmt : Stmt α) (rest : List (Stmt α)) (tail : Option (Expr α)) :
    lineKinds config (stmt :: rest) tail =
      Piece.tokens (stmt.pieces config 0) ++ lineKinds config rest tail := by
  simp [lineKinds, Stmt.piecesAll]

theorem lineKinds_nil_some (e : Expr α) :
    lineKinds config [] (some e) = Piece.tokens (e.statementPieces config) := by
  simp [lineKinds, Stmt.piecesAll]

theorem firstKind_lineKinds {stmts : List (Stmt α)} {tail : Option (Expr α)}
    (readable : Stmt.ReadableAll Number.Rereads stmts)
    (last : ∀ e ∈ tail, e.Readable Number.Rereads) (some' : stmts ≠ [] ∨ tail.isSome) :
    opensStmt (firstKind (lineKinds config stmts tail)) := by
  cases stmts with
  | cons stmt rest =>
      rw [lineKinds_cons]
      exact (stmt_reads config 0 stmt readable.1).first_append _
  | nil =>
      cases tail with
      | none => simp at some'
      | some e =>
          rw [lineKinds_nil_some]
          exact opensStmt_of_opensExpr (statementPieces_reads config (last e rfl)).2.first

/-- Written statements and a last expression are read up to the end of the input. -/
theorem programBody_reads {tail : Option (Expr α)} (last : ∀ e ∈ tail, e.Readable Number.Rereads) :
    (stmts : List (Stmt α)) → Stmt.ReadableAll Number.Rereads stmts → ∀ {s : State},
      s.kinds = lineKinds config stmts tail →
      ∃ stmts' tail' end', programBody s = .ok (stmts', tail', end') ∧
        Stmt.bareAll stmts' = Stmt.bareAll stmts ∧ tail'.map Expr.bare = tail.map Expr.bare
  | [], _, s, kinds => by
      cases tail with
      | none => exact ⟨[], none, s, programBody_of_ended kinds, rfl, rfl⟩
      | some e =>
          have opens : opensStmt (firstKind (lineKinds config [] (some e))) :=
            firstKind_lineKinds config trivial last (.inr rfl)
          rw [← kinds, ← State.kind_eq_firstKind] at opens
          rw [lineKinds_nil_some] at kinds
          rcases statementPieces_reads config (last e rfl) with ⟨reads, opens'⟩
          rcases wholeExpression_reads reads kinds with ⟨e', end', whole, same⟩
          refine ⟨[], some e', end', programBody_of_tail
            (fails_statement_of_expression reads opens' kinds) (fun isEnd => ?_) whole, rfl,
            congrArg some same⟩
          rw [isEnd] at opens
          cases opens
  | stmt :: rest, readable, s, kinds => by
      have opens := firstKind_lineKinds config readable last (.inl nofun)
      rw [← kinds, ← State.kind_eq_firstKind] at opens
      rw [lineKinds_cons] at kinds
      have noElse : firstKind (lineKinds config rest tail) ≠ .keyword .elseWord := by
        intro isElse
        by_cases some' : rest ≠ [] ∨ tail.isSome
        · have opens' := firstKind_lineKinds config readable.2 last some'
          rw [isElse] at opens'
          cases opens'
        · simp only [ne_eq, not_or, Decidable.not_not, Bool.not_eq_true,
            Option.isSome_eq_false_iff, Option.isNone_iff_eq_none] at some'
          rcases some' with ⟨rfl, rfl⟩
          cases isElse
      rcases (stmt_reads config 0 stmt readable.1).reads s _ kinds fun _ => noElse with
        ⟨first, s₁, sameFirst, ahead, given⟩
      rcases programBody_reads last rest readable.2 ahead with
        ⟨others, tail', end', whole, sameRest, sameTail⟩
      refine ⟨first :: others, tail', end', programBody_of_statement given (fun isEnd => ?_) whole,
        ?_, sameTail⟩
      · rw [isEnd] at opens
        cases opens
      · rw [Stmt.bareAll, sameFirst, sameRest, Stmt.bareAll]

/-- Tokens that were written for a program are parsed to the program. -/
theorem parse_reads {p : Program α} (readable : p.Readable Number.Rereads) {tokens : TokenList}
    (written : tokens.items.map Token.kind = Piece.tokens (p.pieces config)) :
    ∃ output, parse tokens = .ok output ∧ output.program.bare = p.bare := by
  have kinds : (State.ofTokens tokens).kinds = lineKinds config p.body p.tail := by
    refine Eq.trans written ?_
    rw [Program.pieces, Piece.tokens_separated_newline]
    rfl
  rcases programBody_reads config readable.tail p.body readable.body kinds with
    ⟨stmts, tail, end', whole, sameBody, sameTail⟩
  refine ⟨⟨⟨stmts, tail, end'.spanFrom (State.ofTokens tokens).span⟩, end'.exprs, end'.stmts⟩,
    ?_, ?_⟩
  · simp [parse, whole, bind, Except.bind, pure, Except.pure]
  · rw [Program.bare, sameBody, sameTail, Program.bare]

/-- Tokens that were written for an expression are parsed to the expression. -/
theorem parseExpression_reads {e : Expr α} (readable : e.Readable Number.Rereads)
    {tokens : TokenList} (written : tokens.items.map Token.kind = Piece.tokens (e.pieces config)) :
    ∃ output, parseExpression tokens = .ok output ∧ output.program.body = [] ∧
      output.program.tail.map Expr.bare = some e.bare := by
  have reads := (expr_reads config e readable).exprAs (Nat.zero_le _)
  rcases wholeExpression_reads (s := State.ofTokens tokens) reads written with
    ⟨e', end', whole, same⟩
  refine ⟨⟨⟨[], some e', end'.spanFrom (State.ofTokens tokens).span⟩, end'.exprs, end'.stmts⟩,
    ?_, rfl, congrArg some same⟩
  simp [parseExpression, whole, bind, Except.bind, pure, Except.pure]

end Parser

end Formulae
