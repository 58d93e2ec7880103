import Formulae.Proofs.Parser.StmtSpelled
import Formulae.Proofs.Token.Constants

/-!
# Printing keeps the tokens

Parentheses leave no trace in a tree, and printing puts in those that are needed.  All other
tokens of a source come back in its printed tree, none left out, none twice and none in another
place (`Mode.tokens_print`).
-/

namespace Formulae

/-! ## Kinds without parentheses -/

namespace Token.Kind

/-- A parenthesis of either side. -/
def isParen (kind : Token.Kind) : Bool :=
  kind = .mark .leftParen || kind = .mark .rightParen

/-- The kinds that are left when the parentheses are taken away. -/
def withoutParens (kinds : List Token.Kind) : List Token.Kind :=
  kinds.filter fun kind => !kind.isParen

@[simp]
theorem withoutParens_nil : withoutParens [] = [] :=
  rfl

@[simp]
theorem withoutParens_cons (kind : Token.Kind) (rest : List Token.Kind) :
    withoutParens (kind :: rest) =
      if kind.isParen then withoutParens rest else kind :: withoutParens rest := by
  cases paren : kind.isParen <;> simp [withoutParens, paren]

@[simp]
theorem withoutParens_append (left right : List Token.Kind) :
    withoutParens (left ++ right) = withoutParens left ++ withoutParens right :=
  List.filter_append ..

end Token.Kind

open Token.Kind (isParen withoutParens)

@[simp]
theorem withoutParens_enclosed (needed : Bool) (inner : List Piece) :
    withoutParens (Piece.tokens (Expr.enclosed needed inner))
      = withoutParens (Piece.tokens inner) := by
  cases needed <;> simp [Expr.enclosed, isParen]

/-! ## Kinds and what they are read as -/

theorem Operator.piece_of_infixOperator? {kind : Token.Kind} {op : Operator}
    (reads : kind.infixOperator? = some op) : op.piece = .token kind := by
  cases kind with
  | mark symbol => cases symbol <;> cases reads <;> rfl
  | _ => cases reads

theorem Operator.piece_of_prefixOperator? {kind : Token.Kind} {op : Operator}
    (reads : kind.prefixOperator? = some op) : op.piece = .token kind := by
  cases kind with
  | mark symbol => cases symbol <;> cases reads <;> rfl
  | _ => cases reads

/-- The tokens of a source can all be written, if its floats can. -/
theorem Lexer.rereads_of_tokenize {source : String} {tokens : TokenList}
    (read : tokenize source = .ok tokens)
    (floats : ∀ token ∈ tokens.items, ∀ x, token.kind = .float x → Number.RereadsFinite x) :
    ∀ token ∈ tokens.items, token.kind.Lexed Number.Rereads := by
  intro token member
  have unsigned := lexed_of_tokenize read token member
  have rereads := floats token member
  cases isKind : token.kind with
  | float x =>
      rw [isKind] at unsigned
      exact (rereads x isKind).rereads unsigned
  | _ =>
      rw [isKind] at unsigned
      exact unsigned

/-! ## Phrases -/

namespace Phrase

variable (config : PrintConfig)

/-- The kinds of the tokens that the phrase is printed with. -/
def printed (depth : Nat) : Phrase → List Token.Kind
  | .expr e => Piece.tokens (e.pieces config)
  | .exprs list => Piece.tokens (Piece.separated Piece.comma (Expr.piecesAll config list))
  | .optional e => Piece.tokens (Stmt.spacedOption config e)
  | .param bound => Piece.tokens bound.pieces
  | .params list => Piece.tokens (Piece.separated Piece.comma (list.map Param.pieces))
  | .stmt s => Piece.tokens (s.pieces config depth)
  | .stmts list => ((Stmt.piecesAll config depth list).map Piece.tokens).flatten
  | .init s => Piece.tokens (Stmt.initPieces config depth s)
  | .otherwise s => Piece.tokens (Stmt.elsePieces config depth s)

/-- A phrase is printed with the tokens that spell it, but for parentheses. -/
theorem SpelledBy.withoutParens_printed {phrase : Phrase} {tokens : List Token}
    (spelled : phrase.SpelledBy tokens)
    (lexed : ∀ token ∈ tokens, token.kind.Lexed Number.Rereads) (depth : Nat) :
    withoutParens (phrase.printed config depth) = withoutParens (tokens.map Token.kind) := by
  induction spelled generalizing depth with
  | constant reads spans =>
      have piece := Constant.piece_of_constant? reads (lexed _ (by simp))
      simp [printed, Expr.pieces, piece]
  | ident reads spans => simp [printed, Expr.pieces, reads]
  | parens opens e' closes inner =>
      simp only [List.forall_mem_cons, List.forall_mem_append] at lexed
      obtain ⟨-, innerLexed, -⟩ := lexed
      simp [opens, closes, inner innerLexed, isParen]
  | unary reads operand' spans operand =>
      simp only [List.forall_mem_cons] at lexed
      obtain ⟨-, operandLexed⟩ := lexed
      have operand := operand operandLexed depth
      simp only [printed] at operand
      simp [printed, Expr.pieces, Operator.piece_of_prefixOperator? reads, operand]
  | cast opens type' closes operand' literalSpans spans operand =>
      simp only [List.forall_mem_cons, List.forall_mem_append] at lexed
      obtain ⟨-, -, -, operandLexed⟩ := lexed
      have operand := operand operandLexed depth
      simp only [printed] at operand
      simp [printed, Expr.pieces, opens, closes, type', operand, isParen]
  | binary left' reads right' spans left right =>
      simp only [List.forall_mem_cons, List.forall_mem_append] at lexed
      obtain ⟨leftLexed, -, rightLexed⟩ := lexed
      have left := left leftLexed depth
      have right := right rightLexed depth
      simp only [printed] at left right
      have piece := Operator.piece_of_infixOperator? reads
      have noCast := Parser.ne_typeCast_of_infixOperator? reads
      simp [printed, Expr.pieces_of_ne_typeCast config noCast, piece, left, right]
  | ternary cond' asks then' parts else' spans cond thenBranch elseBranch =>
      simp only [List.forall_mem_cons, List.forall_mem_append] at lexed
      obtain ⟨condLexed, -, thenBranchLexed, -, elseBranchLexed⟩ := lexed
      have cond := cond condLexed depth
      have thenBranch := thenBranch thenBranchLexed depth
      have elseBranch := elseBranch elseBranchLexed depth
      simp only [printed] at cond thenBranch elseBranch
      simp [printed, Expr.pieces, asks, parts, cond, thenBranch, elseBranch, isParen]
  | call callee' opens args' closes spans callee args =>
      simp only [List.forall_mem_cons, List.forall_mem_append] at lexed
      obtain ⟨calleeLexed, -, argsLexed, -⟩ := lexed
      have callee := callee calleeLexed depth
      have args := args argsLexed depth
      simp only [printed] at callee args
      simp [printed, Expr.pieces, opens, closes, callee, args, isParen]
  | array opens items' closes spans items =>
      simp only [List.forall_mem_cons, List.forall_mem_append] at lexed
      obtain ⟨-, itemsLexed, -⟩ := lexed
      have items := items itemsLexed depth
      simp only [printed] at items
      simp [printed, Expr.pieces, opens, closes, items, isParen]
  | index receiver' opens subscript' closes spans receiver subscript =>
      simp only [List.forall_mem_cons, List.forall_mem_append] at lexed
      obtain ⟨receiverLexed, -, subscriptLexed, -⟩ := lexed
      have receiver := receiver receiverLexed depth
      have subscript := subscript subscriptLexed depth
      simp only [printed] at receiver subscript
      simp [printed, Expr.pieces, opens, closes, receiver, subscript, isParen]
  | noExprs => rfl
  | oneExpr e' inner => exact inner lexed depth
  | moreExprs e' parts rest' first rest =>
      simp only [List.forall_mem_cons, List.forall_mem_append] at lexed
      obtain ⟨firstLexed, -, restLexed⟩ := lexed
      have first := first firstLexed depth
      have rest := rest restLexed depth
      simp only [printed, Expr.piecesAll] at first rest
      simp [printed, Expr.piecesAll, Piece.tokens_separated_cons, parts, first, rest, isParen]
  | absent => rfl
  | present e' inner => exact inner lexed depth
  | param spells spans => simp [printed, spells]
  | noParams => rfl
  | oneParam bound' inner => exact inner lexed depth
  | moreParams bound' parts rest' first rest =>
      simp only [List.forall_mem_cons, List.forall_mem_append] at lexed
      obtain ⟨firstLexed, -, restLexed⟩ := lexed
      have first := first firstLexed depth
      have rest := rest restLexed depth
      simp only [printed, List.map_cons] at first rest
      simp [printed, Piece.tokens_separated_cons, parts, first, rest, isParen]
  | exprStmt e' ends spans inner =>
      simp only [List.forall_mem_append] at lexed
      obtain ⟨innerLexed, -⟩ := lexed
      have inner := inner innerLexed depth
      simp only [printed] at inner
      simp [printed, Stmt.pieces, Expr.statementPieces, ends, inner]
  | varDecl bound' parts init' ends spans init =>
      simp only [List.forall_mem_cons, List.forall_mem_append] at lexed
      obtain ⟨-, -, initLexed, -⟩ := lexed
      have init := init initLexed depth
      simp only [printed] at init
      simp [printed, Stmt.pieces, bound', parts, ends, init]
  | ret starts value' ends spans value =>
      simp only [List.forall_mem_cons, List.forall_mem_append] at lexed
      obtain ⟨-, valueLexed, -⟩ := lexed
      have value := value valueLexed depth
      simp only [printed] at value
      simp [printed, Stmt.pieces, starts, ends, value]
  | brk starts ends spans => simp [printed, Stmt.pieces, starts, ends]
  | cont starts ends spans => simp [printed, Stmt.pieces, starts, ends]
  | ifElse starts opens cond' closes then' else' spans cond thenBranch elseBranch =>
      simp only [List.forall_mem_cons, List.forall_mem_append] at lexed
      obtain ⟨-, -, condLexed, -, thenBranchLexed, elseBranchLexed⟩ := lexed
      have cond := cond condLexed depth
      have thenBranch := thenBranch thenBranchLexed depth
      have elseBranch := elseBranch elseBranchLexed depth
      simp only [printed] at cond thenBranch elseBranch
      simp [printed, Stmt.pieces, starts, opens, closes, cond, thenBranch, elseBranch, isParen]
  | whileLoop starts opens cond' closes body' spans cond body =>
      simp only [List.forall_mem_cons, List.forall_mem_append] at lexed
      obtain ⟨-, -, condLexed, -, bodyLexed⟩ := lexed
      have cond := cond condLexed depth
      have body := body bodyLexed depth
      simp only [printed] at cond body
      simp [printed, Stmt.pieces, starts, opens, closes, cond, body, isParen]
  | doWhile starts body' repeats opens cond' closes ends spans body cond =>
      simp only [List.forall_mem_cons, List.forall_mem_append] at lexed
      obtain ⟨-, bodyLexed, -, -, condLexed, -⟩ := lexed
      have body := body bodyLexed depth
      have cond := cond condLexed depth
      simp only [printed] at cond body
      simp [printed, Stmt.pieces, starts, repeats, opens, closes, ends, cond, body, isParen]
  | forLoop starts opens init' cond' parts step' closes body' spans init cond step body =>
      simp only [List.forall_mem_cons, List.forall_mem_append] at lexed
      obtain ⟨-, -, initLexed, condLexed, -, stepLexed, -, bodyLexed⟩ := lexed
      have init := init initLexed depth
      have cond := cond condLexed depth
      have step := step stepLexed depth
      have body := body bodyLexed depth
      simp only [printed] at init cond step body
      simp [printed, Stmt.pieces, starts, opens, parts, closes, init, cond, step, body, isParen]
  | forEach starts opens bound' parts iterable' closes body' spans iterable body =>
      simp only [List.forall_mem_cons, List.forall_mem_append] at lexed
      obtain ⟨-, -, -, -, iterableLexed, -, bodyLexed⟩ := lexed
      have iterable := iterable iterableLexed depth
      have body := body bodyLexed depth
      simp only [printed] at iterable body
      simp [printed, Stmt.pieces, starts, opens, bound', parts, closes, iterable, body, isParen]
  | block opens list' closes spans list =>
      simp only [List.forall_mem_cons, List.forall_mem_append] at lexed
      obtain ⟨-, listLexed, -⟩ := lexed
      have list := list listLexed (depth + 1)
      simp only [printed] at list
      simp [printed, Stmt.pieces, Stmt.tokens_braced, opens, closes, list, isParen]
  | function ret' names opens params' closes begins body' ends spans params body =>
      simp only [List.forall_mem_cons, List.forall_mem_append] at lexed
      obtain ⟨-, -, -, paramsLexed, -, -, bodyLexed, -⟩ := lexed
      have params := params paramsLexed depth
      have body := body bodyLexed (depth + 1)
      simp only [printed] at params body
      simp [printed, Stmt.pieces, Stmt.tokens_braced, ret', names, opens, closes, begins, ends,
        params, body, isParen]
  | noStmts => rfl
  | moreStmts s' rest' first rest =>
      simp only [List.forall_mem_append] at lexed
      obtain ⟨firstLexed, restLexed⟩ := lexed
      have first := first firstLexed depth
      have rest := rest restLexed depth
      simp only [printed] at first rest
      simp [printed, Stmt.piecesAll, first, rest]
  | noInit ends => simp [printed, Stmt.initPieces, ends]
  | init s' inner => exact inner lexed depth
  | noElse => rfl
  | otherwise starts s' inner =>
      simp only [List.forall_mem_cons] at lexed
      obtain ⟨-, innerLexed⟩ := lexed
      have inner := inner innerLexed depth
      simp only [printed] at inner
      simp [printed, Stmt.elsePieces, starts, inner, isParen]

end Phrase

/-! ## Programs -/

/-- The kinds that a program or an expression alone is printed with. -/
def Mode.printed (config : PrintConfig) : Mode → Program Unit → List Token.Kind
  | .program, p => Piece.tokens (p.pieces config)
  | .expression, p => Piece.tokens (Stmt.spacedOption config p.tail)

/-- The text of a tree that source can give has the tokens it is printed with. -/
theorem Mode.tokenize_print (config : PrintConfig) {mode : Mode} {p : Program Unit}
    (readable : p.Readable Number.Rereads) (fits : mode.Fits p) :
    ∃ tokens, Lexer.tokenize (mode.print config p) = .ok tokens ∧
      tokens.items.map Token.kind = mode.printed config p := by
  cases mode with
  | program =>
      have written := Program.fits_pieces config readable
      exact Piece.tokenize_render written.written written.apart
  | expression =>
      obtain ⟨body, tail, span⟩ := p
      obtain ⟨rfl, hasTail⟩ := fits
      obtain ⟨e, rfl⟩ := Option.isSome_iff_exists.mp hasTail
      have written := e.fits_pieces config (readable.tail e rfl)
      exact Piece.tokenize_render written.written written.apart

/-- A program is printed with the tokens that spell it, but for parentheses. -/
theorem Mode.withoutParens_printed (config : PrintConfig) {mode : Mode} {p : Program Unit}
    {tokens : List Token} (spelled : p.SpelledBy tokens) (fits : mode.Fits p)
    (lexed : ∀ token ∈ tokens, token.kind.Lexed Number.Rereads) :
    withoutParens (mode.printed config p) = withoutParens (tokens.map Token.kind) := by
  obtain ⟨front, back, rfl, body, tail⟩ := spelled.parts
  simp only [List.forall_mem_append] at lexed
  obtain ⟨frontLexed, backLexed⟩ := lexed
  have body := body.withoutParens_printed config frontLexed 0
  have tail := tail.withoutParens_printed config backLexed 0
  simp only [Phrase.printed] at body tail
  rw [List.map_append, Token.Kind.withoutParens_append, ← body, ← tail]
  cases mode with
  | program =>
      simp only [printed, Program.pieces, Piece.tokens_separated_newline, Program.lines]
      cases p.tail <;> simp [Stmt.spacedOption, Expr.statementPieces]
  | expression =>
      obtain ⟨noBody, -⟩ := fits
      simp [printed, noBody, Stmt.piecesAll]

/-- Reading a source and printing it in any layout, all its floats being finite and written so
that they read back, gives a text that has the tokens of the source but for parentheses. -/
theorem Mode.tokens_print {source : String} {tokens : TokenList} {mode : Mode}
    {output : Parser.Output} (read : Lexer.tokenize source = .ok tokens)
    (parsed : mode.parse tokens = .ok output)
    (floats : ∀ token ∈ tokens.items, ∀ x, token.kind = .float x → Number.RereadsFinite x)
    (config : PrintConfig) :
    ∃ tokens', Lexer.tokenize (mode.print config output.program) = .ok tokens' ∧
      withoutParens (tokens'.toList.map Token.kind)
        = withoutParens (tokens.toList.map Token.kind) := by
  have lexed := Lexer.rereads_of_tokenize read floats
  obtain ⟨readable, fits⟩ := readable_of_parse lexed parsed
  obtain ⟨tokens', printed, kinds⟩ := tokenize_print config readable fits
  have kept := withoutParens_printed config (spelled_of_parse read parsed) fits lexed
  refine ⟨tokens', printed, ?_⟩
  simp only [TokenList.toList, List.map_append, Token.Kind.withoutParens_append, kinds, kept]
  rfl

/-- The tokens of `(x - y);` for a float `y` of three characters. -/
def parenthesized (y : Float) : TokenList :=
  ⟨[⟨.mark .leftParen, ⟨0, 1⟩⟩, ⟨.ident "x", ⟨1, 2⟩⟩, ⟨.mark .minus, ⟨3, 4⟩⟩, ⟨.float y, ⟨5, 8⟩⟩,
    ⟨.mark .rightParen, ⟨8, 9⟩⟩, ⟨.mark .semicolon, ⟨9, 10⟩⟩], 10⟩

theorem parses_parenthesized (y : Float) :
    (Mode.program.parse (parenthesized y)).toOption.isSome := by cbv

/-- The parentheses around a statement are not printed again. -/
theorem Mode.tokens_print_parenthesized : ∃ tokens output tokens',
    Lexer.tokenize "(x - 1.5);" = .ok tokens ∧ Mode.program.parse tokens = .ok output ∧
      Lexer.tokenize (Mode.program.print .compact output.program) = .ok tokens' ∧
      withoutParens (tokens'.toList.map Token.kind)
        = withoutParens (tokens.toList.map Token.kind) := by
  have read : Lexer.tokenize "(x - 1.5);" = .ok (parenthesized 1.5) := by decide +kernel
  have floats : ∀ token ∈ (parenthesized 1.5).items, ∀ x, token.kind = .float x →
      Number.RereadsFinite x := by
    intro token member x isFloat
    simp only [parenthesized, List.mem_cons, List.not_mem_nil, or_false] at member
    rcases member with rfl | rfl | rfl | rfl | rfl | rfl <;> cases isFloat
    exact Number.rereadsFinite_one_and_a_half
  obtain ⟨output, found⟩ := Option.isSome_iff_exists.mp (parses_parenthesized 1.5)
  have parsed := eq_ok_of_toOption found
  obtain ⟨tokens', printed, kept⟩ := Mode.tokens_print read parsed floats .compact
  exact ⟨_, output, tokens', read, parsed, printed, kept⟩

end Formulae
