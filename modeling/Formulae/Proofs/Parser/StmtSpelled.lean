import Formulae.Proofs.Parser.ExprSpelled
import Formulae.Proofs.RoundTrip

/-!
# Reading a program passes the tokens that spell it

Every statement reaches over the tokens passed for it, and the statements and the last expression
of a program share out all its tokens (`Mode.spelled_of_parse`).
-/

namespace Formulae

namespace Parser

variable {s s' : State}

/-! ## Parts of statements -/

theorem yields_paramsFrom (s : State) {s' : State} {list : List Param}
    (gives : Gives (paramsFrom s) list s') :
    list ≠ [] ∧ YieldsUpTo s (.params list) .rightParen s' := by
  rcases gives_paramsFrom.mp gives with
    ⟨first, s₁, head, ⟨comma, rest, rfl, tail⟩ | ⟨rfl, closes, rfl⟩⟩
  · have shorter := head.remaining_lt
    have shorter' := State.remaining_advance_lt_of_mark comma
    obtain ⟨before, passes, first'⟩ := yields_param head
    obtain ⟨nonempty, after, closing, passes₁, rest', closes⟩ := yields_paramsFrom s₁.advance tail
    obtain ⟨next, others, rfl⟩ := List.exists_cons_of_ne_nil nonempty
    have more := passes.append (passes₁.cons (ne_endOfInput comma (by simp)))
    exact ⟨by simp, before ++ s₁.cursor.current :: after, closing, by simpa using more,
      .moreParams first' comma rest', closes⟩
  · exact ⟨by simp, ((yields_param head).mono fun _ => .oneParam).upTo closes⟩
termination_by s.remaining

theorem yields_params {list : List Param} (gives : Gives (params s) list s') :
    YieldsUpTo s (.params list) .rightParen s' := by
  by_cases close : s.kind = .mark .rightParen
  · rcases (gives_params_nil close).mp gives with ⟨rfl, rfl⟩
    exact (Yields.nil .noParams s).upTo close
  · rw [params_of_ne close] at gives
    exact (yields_paramsFrom s gives).2

theorem yields_expression {e : Expr Unit} (gives : Gives (expression s) e s') :
    Yields s (.expr e) s' :=
  yields_binary 0 s gives

theorem yields_condition {cond : Expr Unit} (gives : Gives (condition s) cond s') :
    s.kind = .mark .leftParen ∧ YieldsUpTo s.advance (.expr cond) .rightParen s' := by
  rcases gives_condition.mp gives with ⟨opens, s₁, closes, read, rfl⟩
  exact ⟨opens, (yields_expression read).upTo closes⟩

theorem yields_optionalBefore {mark : Mark} {e : Option (Expr Unit)}
    (gives : Gives (optionalBefore mark s) e s') : YieldsUpTo s (.optional e) mark s' := by
  by_cases close : s.kind = .mark mark
  · rcases (gives_optionalBefore_none close).mp gives with ⟨rfl, rfl⟩
    exact (Yields.nil .absent s).upTo close
  · rcases (gives_optionalBefore_some close).mp gives with ⟨value, rfl, s₁, closes, read, rfl⟩
    exact ((yields_expression read).mono fun _ => .present).upTo closes

/-! ## Statements -/

theorem yields_varDecl {stmt : Stmt Unit} (gives : Gives (varDecl s) stmt s') :
    Yields s (.stmt stmt) s' := by
  rcases gives_varDecl.mp gives with ⟨bound, s₁, declared, equal, init, s₂, read, ends, rfl, rfl⟩
  obtain ⟨written, passes, bound'⟩ := writes_binder declared
  obtain ⟨after, passes₁, init'⟩ := yields_expression read
  have value := passes₁.concat (ne_endOfInput ends nofun)
  have whole := passes.append (value.cons (ne_endOfInput equal nofun))
  exact ⟨_, whole, .varDecl bound' equal init' ends (spanFrom_of_passes whole (by simp))⟩

theorem yields_exprStmt {stmt : Stmt Unit} (gives : Gives (exprStmt s) stmt s') :
    Yields s (.stmt stmt) s' := by
  rcases gives_exprStmt.mp gives with ⟨e, s₁, read, ends, rfl, rfl⟩
  obtain ⟨tokens, passes, e'⟩ := yields_expression read
  have whole := passes.concat (ne_endOfInput ends nofun)
  exact ⟨_, whole, .exprStmt e' ends (spanFrom_of_passes whole (by simp))⟩

theorem yields_returnStmt {stmt : Stmt Unit} (gives : Gives (returnStmt s) stmt s') :
    Yields s (.stmt stmt) s' := by
  rcases gives_returnStmt.mp gives with ⟨starts, value, s₁, read, rfl, rfl⟩
  obtain ⟨tokens, semicolon, passes, value', ends⟩ := yields_optionalBefore read
  have whole := passes.cons (ne_endOfInput starts nofun)
  exact ⟨_, whole, .ret starts value' ends (spanFrom_of_passes whole nofun)⟩

theorem yields_breakStmt {stmt : Stmt Unit} (gives : Gives (breakStmt s) stmt s') :
    Yields s (.stmt stmt) s' := by
  rcases gives_breakStmt.mp gives with ⟨starts, ends, rfl, rfl⟩
  have semicolon := Cursor.Passes.one (ne_endOfInput ends nofun)
  have whole := semicolon.cons (ne_endOfInput starts nofun)
  exact ⟨_, whole, .brk starts ends (spanFrom_of_passes whole nofun)⟩

theorem yields_continueStmt {stmt : Stmt Unit} (gives : Gives (continueStmt s) stmt s') :
    Yields s (.stmt stmt) s' := by
  rcases gives_continueStmt.mp gives with ⟨starts, ends, rfl, rfl⟩
  have semicolon := Cursor.Passes.one (ne_endOfInput ends nofun)
  have whole := semicolon.cons (ne_endOfInput starts nofun)
  exact ⟨_, whole, .cont starts ends (spanFrom_of_passes whole nofun)⟩

theorem yields_forInit {init : Option (Stmt Unit)} (gives : Gives (forInit s) init s') :
    Yields s (.init init) s' := by
  by_cases close : s.kind = .mark .semicolon
  · rcases (gives_forInit_none close).mp gives with ⟨rfl, rfl⟩
    exact ⟨_, .one (ne_endOfInput close nofun), .noInit close⟩
  · rcases (gives_forInit_some close).mp gives with ⟨stmt, rfl, declared | ⟨-, read⟩⟩
    · exact (yields_varDecl declared).mono fun _ => .init
    · exact (yields_exprStmt read).mono fun _ => .init

mutual

theorem yields_statement (s : State) {s' : State} {stmt : Stmt Unit}
    (gives : Gives (statement s) stmt s') : Yields s (.stmt stmt) s' := by
  rcases gives_statement.mp gives with h | ⟨-, h | ⟨-, h | ⟨-, h | ⟨-, h | ⟨-, h | ⟨-, h | ⟨-,
    h | ⟨-, h | ⟨-, h | ⟨-, h | ⟨-, h⟩⟩⟩⟩⟩⟩⟩⟩⟩⟩⟩
  · exact yields_block s h
  · exact yields_functionDecl s h
  · exact yields_varDecl h
  · exact yields_returnStmt h
  · exact yields_whileStmt s h
  · exact yields_ifStmt s h
  · exact yields_breakStmt h
  · exact yields_continueStmt h
  · exact yields_doWhileStmt s h
  · exact yields_forEachStmt s h
  · exact yields_forStmt s h
  · exact yields_exprStmt h
termination_by (s.remaining, 1)

theorem yields_blockBody (s : State) {s' : State} {stmts : List (Stmt Unit)}
    (gives : Gives (blockBody s) stmts s') : YieldsUpTo s (.stmts stmts) .rightBrace s' := by
  by_cases close : s.kind = .mark .rightBrace
  · rcases (gives_blockBody_nil close).mp gives with ⟨rfl, rfl⟩
    exact (Yields.nil .noStmts s).upTo close
  · rcases (gives_blockBody_cons close).mp gives with ⟨-, first, s₁, head, rest, rfl, tail⟩
    have shorter := head.remaining_lt
    obtain ⟨before, passes, first'⟩ := yields_statement s head
    obtain ⟨after, closing, passes₁, rest', closes⟩ := yields_blockBody s₁ tail
    have whole := passes.append passes₁
    rw [← List.append_assoc] at whole
    exact ⟨before ++ after, closing, whole, .moreStmts first' rest', closes⟩
termination_by (s.remaining, 2)

theorem yields_block (s : State) {s' : State} {stmt : Stmt Unit}
    (gives : Gives (block s) stmt s') : Yields s (.stmt stmt) s' := by
  rcases gives_block.mp gives with ⟨brace, stmts, s₁, body, rfl, rfl⟩
  have shorter := State.remaining_advance_lt_of_mark brace
  obtain ⟨inner, closing, passes, body', closes⟩ := yields_blockBody s.advance body
  have whole := passes.cons (ne_endOfInput brace nofun)
  exact ⟨_, whole, .block brace body' closes (spanFrom_of_passes whole nofun)⟩
termination_by (s.remaining, 0)

theorem yields_functionDecl (s : State) {s' : State} {stmt : Stmt Unit}
    (gives : Gives (functionDecl s) stmt s') : Yields s (.stmt stmt) s' := by
  rcases gives_functionDecl.mp gives with
    ⟨ret, s₁, readRet, name, ident, paren, bound, s₂, readParams, brace, body, s₃, read, rfl, rfl⟩
  have shorter := readRet.remaining_lt
  have shorter₁ := State.remaining_advance_lt_of_ident ident
  have shorter₂ := State.remaining_advance_lt_of_mark paren
  have shorter₃ := readParams.remaining_lt
  have shorter₄ := State.remaining_advance_lt_of_mark brace
  obtain ⟨written, passes, ret'⟩ := writes_typeExpr s readRet
  obtain ⟨header, closing, passes₁, params', closes⟩ := yields_params readParams
  obtain ⟨inner, unbrace, passes₂, body', ends⟩ := yields_blockBody s₂.advance read
  have headed := passes₁.closed (passes₂.cons (ne_endOfInput brace nofun))
  have named := (headed.cons (ne_endOfInput paren nofun)).cons (ne_endOfInput ident nofun)
  have whole := passes.append named
  exact ⟨_, whole, .function ret' ident paren params' closes brace body' ends
    (spanFrom_of_passes whole (by simp))⟩
termination_by (s.remaining, 0)

theorem yields_whileStmt (s : State) {s' : State} {stmt : Stmt Unit}
    (gives : Gives (whileStmt s) stmt s') : Yields s (.stmt stmt) s' := by
  rcases gives_whileStmt.mp gives with ⟨keyword, cond, s₁, test, body, s₂, read, rfl, rfl⟩
  have shorter := State.remaining_advance_lt_of_keyword keyword
  have shorter₁ := test.remaining_lt
  obtain ⟨opens, inner, closing, passes, cond', closes⟩ := yields_condition test
  obtain ⟨after, passes₁, body'⟩ := yields_statement s₁ read
  have headed := (passes.closed passes₁).cons (ne_endOfInput opens nofun)
  have whole := headed.cons (ne_endOfInput keyword nofun)
  exact ⟨_, whole, .whileLoop keyword opens cond' closes body' (spanFrom_of_passes whole nofun)⟩
termination_by (s.remaining, 0)

theorem yields_ifStmt (s : State) {s' : State} {stmt : Stmt Unit}
    (gives : Gives (ifStmt s) stmt s') : Yields s (.stmt stmt) s' := by
  rcases gives_ifStmt.mp gives with ⟨keyword, cond, s₁, test, thenBranch, s₂, readThen, rest⟩
  have shorter := State.remaining_advance_lt_of_keyword keyword
  have shorter₁ := test.remaining_lt
  have shorter₂ := readThen.remaining_lt
  obtain ⟨opens, inner, closing, passes, cond', closes⟩ := yields_condition test
  obtain ⟨branch, passes₁, then'⟩ := yields_statement s₁ readThen
  rcases rest with ⟨isElse, elseBranch, s₃, readElse, rfl, rfl⟩ | ⟨noElse, rfl, rfl⟩
  · have shorter₃ := State.remaining_advance_lt_of_keyword isElse
    obtain ⟨other, passes₂, else'⟩ := yields_statement s₂.advance readElse
    have branches := passes₁.append (passes₂.cons (ne_endOfInput isElse nofun))
    have headed := (passes.closed branches).cons (ne_endOfInput opens nofun)
    have whole := headed.cons (ne_endOfInput keyword nofun)
    exact ⟨_, whole, .ifElse keyword opens cond' closes then' (.otherwise isElse else')
      (spanFrom_of_passes whole nofun)⟩
  · have headed := (passes.closed (passes₁.append (.refl _))).cons (ne_endOfInput opens nofun)
    have whole := headed.cons (ne_endOfInput keyword nofun)
    exact ⟨_, whole, .ifElse keyword opens cond' closes then' .noElse
      (spanFrom_of_passes whole nofun)⟩
termination_by (s.remaining, 0)

theorem yields_doWhileStmt (s : State) {s' : State} {stmt : Stmt Unit}
    (gives : Gives (doWhileStmt s) stmt s') : Yields s (.stmt stmt) s' := by
  rcases gives_doWhileStmt.mp gives with
    ⟨keyword, body, s₁, read, isWhile, cond, s₂, test, ends, rfl, rfl⟩
  have shorter := State.remaining_advance_lt_of_keyword keyword
  obtain ⟨inner, passes, body'⟩ := yields_statement s.advance read
  obtain ⟨opens, tested, closing, passes₁, cond', closes⟩ := yields_condition test
  have last := passes₁.closed (.one (ne_endOfInput ends nofun))
  have again := (last.cons (ne_endOfInput opens nofun)).cons (ne_endOfInput isWhile nofun)
  have whole := (passes.append again).cons (ne_endOfInput keyword nofun)
  exact ⟨_, whole, .doWhile keyword body' isWhile opens cond' closes ends
    (spanFrom_of_passes whole nofun)⟩
termination_by (s.remaining, 0)

theorem yields_forEachStmt (s : State) {s' : State} {stmt : Stmt Unit}
    (gives : Gives (forEachStmt s) stmt s') : Yields s (.stmt stmt) s' := by
  rcases gives_forEachStmt.mp gives with ⟨keyword, paren, bound, s₁, declared, colon, iterable, s₂,
    readIterable, close, body, s₃, read, rfl, rfl⟩
  have shorter := State.remaining_advance_lt_of_keyword keyword
  have shorter₁ := State.remaining_advance_lt_of_mark paren
  have shorter₂ := declared.remaining_lt
  have shorter₃ := State.remaining_advance_lt_of_mark colon
  have shorter₄ := readIterable.remaining_lt
  have shorter₅ := State.remaining_advance_lt_of_mark close
  obtain ⟨written, passes, bound'⟩ := writes_binder declared
  obtain ⟨source, passes₁, iterable'⟩ := yields_expression readIterable
  obtain ⟨inner, passes₂, body'⟩ := yields_statement s₂.advance read
  have ranged := (passes₁.append (passes₂.cons (ne_endOfInput close nofun))).cons
    (ne_endOfInput colon nofun)
  have headed := (passes.append ranged).cons (ne_endOfInput paren nofun)
  have whole := headed.cons (ne_endOfInput keyword nofun)
  exact ⟨_, whole, .forEach keyword paren bound' colon iterable' close body'
    (spanFrom_of_passes whole nofun)⟩
termination_by (s.remaining, 0)

theorem yields_forStmt (s : State) {s' : State} {stmt : Stmt Unit}
    (gives : Gives (forStmt s) stmt s') : Yields s (.stmt stmt) s' := by
  rcases gives_forStmt.mp gives with ⟨keyword, paren, init, s₁, readInit, cond, s₂, readCond, step,
    s₃, readStep, body, s₄, read, rfl, rfl⟩
  have shorter := State.remaining_advance_lt_of_keyword keyword
  have shorter₁ := State.remaining_advance_lt_of_mark paren
  have shorter₂ := readInit.remaining_lt
  have shorter₃ := readCond.remaining_lt
  have shorter₄ := readStep.remaining_lt
  obtain ⟨first, passes, init'⟩ := yields_forInit readInit
  obtain ⟨test, semicolon, passes₁, cond', parts⟩ := yields_optionalBefore readCond
  obtain ⟨last, closing, passes₂, step', closes⟩ := yields_optionalBefore readStep
  obtain ⟨inner, passes₃, body'⟩ := yields_statement s₃ read
  have tested := passes₁.closed (passes₂.closed passes₃)
  have headed := (passes.append tested).cons (ne_endOfInput paren nofun)
  have whole := headed.cons (ne_endOfInput keyword nofun)
  exact ⟨_, whole, .forLoop keyword paren init' cond' parts step' closes body'
    (spanFrom_of_passes whole nofun)⟩
termination_by (s.remaining, 0)

end

/-! ## Programs -/

theorem yields_wholeExpression {e : Expr Unit} (read : wholeExpression s = .ok (e, s')) :
    s'.kind = .endOfInput ∧ Yields s (.expr e) s' := by
  obtain ⟨gives, ends⟩ := wholeExpression_eq_ok_iff.mp read
  exact ⟨ends, yields_expression gives⟩

theorem yields_programBody (s : State) {s' : State} {body : List (Stmt Unit)}
    {tail : Option (Expr Unit)} (read : programBody s = .ok (body, tail, s')) :
    s'.kind = .endOfInput ∧ ∃ front back, s.cursor.Passes (front ++ back) s'.cursor ∧
      (Phrase.stmts body).SpelledBy front ∧ (Phrase.optional tail).SpelledBy back := by
  by_cases ends : s.kind = .endOfInput
  · obtain ⟨rfl, rfl, rfl⟩ := (programBody_of_end ends).mp read
    exact ⟨ends, [], [], .refl _, .noStmts, .absent⟩
  · by_cases fails : Fails (statement s)
    · obtain ⟨e, rfl, rfl, whole⟩ := (programBody_of_fails ends fails).mp read
      obtain ⟨last, tokens, passes, e'⟩ := yields_wholeExpression whole
      exact ⟨last, [], tokens, passes, .noStmts, .present e'⟩
    · obtain ⟨first, s₁, given⟩ : ∃ first s₁, Gives (statement s) first s₁ := by
        simpa [Fails] using fails
      have shorter := given.remaining_lt
      obtain ⟨rest, rfl, more⟩ := (programBody_of_gives ends given).mp read
      obtain ⟨tokens, passes, first'⟩ := yields_statement s given
      obtain ⟨last, front, back, passes₁, rest', tail'⟩ := yields_programBody s₁ more
      have whole := passes.append passes₁
      rw [← List.append_assoc] at whole
      exact ⟨last, tokens ++ front, back, whole, .moreStmts first' rest', tail'⟩
termination_by s.remaining

variable {tokens : TokenList} {output : Output}

/-- Where all tokens but the end were passed, none is left. -/
theorem items_of_passes (real : ∀ token ∈ tokens.items, token.kind ≠ .endOfInput)
    {passed : List Token} (passes : (State.ofTokens tokens).cursor.Passes passed s'.cursor)
    (ends : s'.kind = .endOfInput) : tokens.items = passed := by
  have items : tokens.items = passed ++ s'.cursor.ahead := passes.ahead
  cases ahead : s'.cursor.ahead with
  | nil => simpa [ahead] using items
  | cons token rest =>
      have isEnd : token.kind = .endOfInput := by
        simpa [State.kind, Cursor.kind, Cursor.current, ahead] using ends
      exact absurd isEnd (real token (by simp [items, ahead]))

theorem spelled_of_parse (real : ∀ token ∈ tokens.items, token.kind ≠ .endOfInput)
    (parsed : parse tokens = .ok output) : output.program.SpelledBy tokens.items := by
  obtain ⟨body, tail, last, read, rfl⟩ := parse_eq_ok_iff.mp parsed
  obtain ⟨ends, front, back, passes, body', tail'⟩ := yields_programBody _ read
  have items := items_of_passes real passes ends
  rw [← items] at passes
  exact ⟨⟨front, back, items, body', tail'⟩, spanFrom_of_passes passes⟩

theorem spelled_of_parseExpression (real : ∀ token ∈ tokens.items, token.kind ≠ .endOfInput)
    (parsed : parseExpression tokens = .ok output) : output.program.SpelledBy tokens.items := by
  obtain ⟨tail, last, read, rfl⟩ := parseExpression_eq_ok_iff.mp parsed
  obtain ⟨ends, passed, passes, e'⟩ := yields_wholeExpression read
  have items := items_of_passes real passes ends
  rw [← items] at passes
  exact ⟨⟨[], passed, items, .noStmts, .present e'⟩, spanFrom_of_passes passes⟩

end Parser

/-- The tokens of a source that can be read spell the program. -/
theorem Mode.spelled_of_parse {mode : Mode} {source : String} {tokens : TokenList}
    {output : Parser.Output} (read : Lexer.tokenize source = .ok tokens)
    (parsed : mode.parse tokens = .ok output) : output.program.SpelledBy tokens.items := by
  have real : ∀ token ∈ tokens.items, token.kind ≠ .endOfInput := by
    intro token member isEnd
    have lexed := Lexer.lexed_of_tokenize read token member
    rw [isEnd] at lexed
    exact lexed
  cases mode with
  | program => exact Parser.spelled_of_parse real parsed
  | expression => exact Parser.spelled_of_parseExpression real parsed

end Formulae
