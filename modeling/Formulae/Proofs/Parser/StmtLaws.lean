import Formulae.Proofs.Parser.ExprLaws

/-!
# The laws of statements

One law for each form of statement.  `statement` itself is the choice between the
forms, and a program is what is left to choose when no statement can be read.
-/

namespace Formulae.Parser

variable {s s' : State}

/-! ## Declarations -/

/-- What stands in a declaration behind a `mut` that may be missing. -/
def GivesBinder (mutable : Bool) (s : State) (bound : Binder) (s' : State) : Prop :=
  s.kind = .keyword .varWord ∧ (∃ name, bound = ⟨mutable, none, name⟩ ∧
      s.advance.kind = .ident name ∧ s' = s.advance.advance) ∨
    s.kind ≠ .keyword .varWord ∧ ∃ type s₁, Gives (typeExpr s) type s₁ ∧
      ∃ name, bound = ⟨mutable, some type, name⟩ ∧ s₁.kind = .ident name ∧ s' = s₁.advance

theorem gives_binder_of_mut (isMut : s.kind = .keyword .mutWord) {bound : Binder} :
    Gives (binder s) bound s' ↔ GivesBinder true s.advance bound s' := by
  unfold binder eatKeyword GivesBinder
  rw [nextKeyword?_of_kind isMut]
  dsimp only [Extended.ofParsed]
  by_cases isVar : s.advance.kind = .keyword .varWord
  · simp [-bind_pure_comp, nextKeyword?_of_kind isVar, isVar, gives_bind, Parsed.weaken]
  · simp [-bind_pure_comp, nextKeyword?_of_ne isVar, isVar, gives_bind, Parsed.weaken]

theorem gives_binder_of_ne (notMut : s.kind ≠ .keyword .mutWord) {bound : Binder} :
    Gives (binder s) bound s' ↔ GivesBinder false s bound s' := by
  unfold binder eatKeyword GivesBinder
  rw [nextKeyword?_of_ne notMut]
  dsimp only [Extended.unchanged]
  by_cases isVar : s.kind = .keyword .varWord
  · simp [-bind_pure_comp, nextKeyword?_of_kind isVar, isVar, gives_bind, Parsed.weaken]
  · simp [-bind_pure_comp, nextKeyword?_of_ne isVar, isVar, gives_bind, Parsed.weaken]

/-- What stands in a parameter that starts at `start` behind a `mut` that may be
missing. -/
def GivesParam (start : Span) (mutable : Bool) (s : State) (bound : Param) (s' : State) : Prop :=
  ∃ type s₁, Gives (typeExpr s) type s₁ ∧ ∃ name,
    bound = ⟨mutable, type, name, s'.spanFrom start⟩ ∧ s₁.kind = .ident name ∧ s' = s₁.advance

theorem gives_param_of_mut (isMut : s.kind = .keyword .mutWord) {bound : Param} :
    Gives (param s) bound s' ↔ GivesParam s.span true s.advance bound s' := by
  unfold param eatKeyword GivesParam
  rw [nextKeyword?_of_kind isMut]
  dsimp only [Extended.ofParsed]
  simp [-bind_pure_comp, gives_bind, Parsed.weaken]

theorem gives_param_of_ne (notMut : s.kind ≠ .keyword .mutWord) {bound : Param} :
    Gives (param s) bound s' ↔ GivesParam s.span false s bound s' := by
  unfold param eatKeyword GivesParam
  rw [nextKeyword?_of_ne notMut]
  dsimp only [Extended.unchanged]
  simp [-bind_pure_comp, gives_bind, Parsed.weaken]

theorem gives_params_nil (h : s.kind = .mark .rightParen) {list : List Param} :
    Gives (params s) list s' ↔ list = [] ∧ s' = s.advance := by
  rw [params, nextMark?_of_kind h]
  simp

theorem params_of_ne (h : s.kind ≠ .mark .rightParen) : params s = paramsFrom s := by
  rw [params, nextMark?_of_ne h]

theorem gives_paramsFrom {list : List Param} : Gives (paramsFrom s) list s' ↔
    ∃ first s₁, Gives (param s) first s₁ ∧
      (s₁.kind = .mark .comma ∧
          (∃ rest, list = first :: rest ∧ Gives (paramsFrom s₁.advance) rest s') ∨
        list = [first] ∧ s₁.kind = .mark .rightParen ∧ s' = s₁.advance) := by
  rw [paramsFrom]
  simp only [gives_bind]
  refine exists_congr fun first => exists_congr fun s₁ => ?_
  rw [← exists_prop]
  refine exists_congr fun _ => ?_
  by_cases comma : s₁.kind = .mark .comma
  · simp [-bind_pure_comp, nextMark?_of_kind comma, comma, gives_bind]
  · simp [-bind_pure_comp, nextMark?_of_ne comma, comma, gives_bind, and_assoc]

/-! ## Parts of statements -/

theorem gives_condition {cond : Expr Unit} : Gives (condition s) cond s' ↔
    s.kind = .mark .leftParen ∧ ∃ s₁, s₁.kind = .mark .rightParen ∧
      Gives (expression s.advance) cond s₁ ∧ s' = s₁.advance := by
  simp [-bind_pure_comp, condition, gives_bind, and_assoc]

theorem gives_optionalBefore_none {mark : Mark} (h : s.kind = .mark mark)
    {e : Option (Expr Unit)} :
    Gives (optionalBefore mark s) e s' ↔ e = none ∧ s' = s.advance := by
  rw [optionalBefore, nextMark?_of_kind h]
  simp

theorem gives_optionalBefore_some {mark : Mark} (h : s.kind ≠ .mark mark)
    {e : Option (Expr Unit)} : Gives (optionalBefore mark s) e s' ↔
      ∃ value, e = some value ∧ ∃ s₁, s₁.kind = .mark mark ∧ Gives (expression s) value s₁ ∧
        s' = s₁.advance := by
  rw [optionalBefore, nextMark?_of_ne h]
  simp [-bind_pure_comp, gives_bind, and_assoc]

@[simp]
theorem value_complete {start : Span} {build : StmtNode → Stmt Unit}
    {shorter : s'.remaining < s.remaining} :
    (complete s' start build shorter).value = build (s'.stmtNode start) :=
  rfl

@[simp]
theorem state_complete {start : Span} {build : StmtNode → Stmt Unit}
    {shorter : s'.remaining < s.remaining} :
    (complete s' start build shorter).state = s'.addStmt :=
  rfl

/-! ## Forms of statements -/

theorem gives_varDecl {stmt : Stmt Unit} : Gives (varDecl s) stmt s' ↔
    ∃ bound s₁, Gives (binder s) bound s₁ ∧ s₁.kind = .mark .equal ∧
      ∃ init s₂, Gives (expression s₁.advance) init s₂ ∧ s₂.kind = .mark .semicolon ∧
        stmt = .varDecl (s₂.advance.stmtNode s.span) bound init ∧ s' = s₂.advance.addStmt := by
  simp only [varDecl, gives_bind, gives_within, gives_expectMark, gives_pure, value_complete,
    state_complete, exists_prop, and_assoc, exists_and_left, exists_eq_left]

theorem gives_returnStmt {stmt : Stmt Unit} : Gives (returnStmt s) stmt s' ↔
    s.kind = .keyword .returnWord ∧
      ∃ value s₁, Gives (optionalBefore .semicolon s.advance) value s₁ ∧
        stmt = .ret (s₁.stmtNode s.span) value ∧ s' = s₁.addStmt := by
  simp only [returnStmt, gives_bind, gives_within, gives_expectKeyword, gives_pure,
    value_complete, state_complete, exists_prop, and_assoc, exists_and_left, exists_eq_left]

theorem gives_breakStmt {stmt : Stmt Unit} : Gives (breakStmt s) stmt s' ↔
    s.kind = .keyword .breakWord ∧ s.advance.kind = .mark .semicolon ∧
      stmt = .brk (s.advance.advance.stmtNode s.span) ∧ s' = s.advance.advance.addStmt := by
  simp only [breakStmt, gives_bind, gives_within, gives_expectMark, gives_expectKeyword,
    gives_pure, value_complete, state_complete, exists_prop, and_assoc, exists_and_left,
    exists_eq_left]

theorem gives_continueStmt {stmt : Stmt Unit} : Gives (continueStmt s) stmt s' ↔
    s.kind = .keyword .continueWord ∧ s.advance.kind = .mark .semicolon ∧
      stmt = .cont (s.advance.advance.stmtNode s.span) ∧ s' = s.advance.advance.addStmt := by
  simp only [continueStmt, gives_bind, gives_within, gives_expectMark, gives_expectKeyword,
    gives_pure, value_complete, state_complete, exists_prop, and_assoc, exists_and_left,
    exists_eq_left]

theorem gives_exprStmt {stmt : Stmt Unit} : Gives (exprStmt s) stmt s' ↔
    ∃ e s₁, Gives (expression s) e s₁ ∧ s₁.kind = .mark .semicolon ∧
      stmt = .expr (s₁.advance.stmtNode s.span) e ∧ s' = s₁.advance.addStmt := by
  simp only [exprStmt, gives_bind, gives_within, gives_expectMark, gives_pure, value_complete,
    state_complete, exists_prop, and_assoc, exists_and_left, exists_eq_left]

theorem gives_forInit_none (h : s.kind = .mark .semicolon) {init : Option (Stmt Unit)} :
    Gives (forInit s) init s' ↔ init = none ∧ s' = s.advance := by
  rw [forInit, nextMark?_of_kind h]
  simp

theorem gives_forInit_some (h : s.kind ≠ .mark .semicolon) {init : Option (Stmt Unit)} :
    Gives (forInit s) init s' ↔ ∃ stmt, init = some stmt ∧
      (Gives (varDecl s) stmt s' ∨ Fails (varDecl s) ∧ Gives (exprStmt s) stmt s') := by
  rw [forInit, nextMark?_of_ne h]
  simp [-bind_pure_comp, gives_bind]

theorem gives_statement {stmt : Stmt Unit} : Gives (statement s) stmt s' ↔
    Gives (block s) stmt s' ∨ Fails (block s) ∧ (
    Gives (functionDecl s) stmt s' ∨ Fails (functionDecl s) ∧ (
    Gives (varDecl s) stmt s' ∨ Fails (varDecl s) ∧ (
    Gives (returnStmt s) stmt s' ∨ Fails (returnStmt s) ∧ (
    Gives (whileStmt s) stmt s' ∨ Fails (whileStmt s) ∧ (
    Gives (ifStmt s) stmt s' ∨ Fails (ifStmt s) ∧ (
    Gives (breakStmt s) stmt s' ∨ Fails (breakStmt s) ∧ (
    Gives (continueStmt s) stmt s' ∨ Fails (continueStmt s) ∧ (
    Gives (doWhileStmt s) stmt s' ∨ Fails (doWhileStmt s) ∧ (
    Gives (forEachStmt s) stmt s' ∨ Fails (forEachStmt s) ∧ (
    Gives (forStmt s) stmt s' ∨ Fails (forStmt s) ∧
      Gives (exprStmt s) stmt s')))))))))) := by
  rw [statement]
  simp only [gives_orFurther]

theorem gives_blockBody_nil (h : s.kind = .mark .rightBrace) {stmts : List (Stmt Unit)} :
    Gives (blockBody s) stmts s' ↔ stmts = [] ∧ s' = s.advance := by
  rw [blockBody, nextMark?_of_kind h]
  simp

theorem gives_blockBody_cons (h : s.kind ≠ .mark .rightBrace) {stmts : List (Stmt Unit)} :
    Gives (blockBody s) stmts s' ↔ s.kind ≠ .endOfInput ∧
      ∃ first s₁, Gives (statement s) first s₁ ∧
        ∃ rest, stmts = first :: rest ∧ Gives (blockBody s₁) rest s' := by
  rw [blockBody, nextMark?_of_ne h]
  by_cases ended : s.kind = .endOfInput
  · simp [ended]
  · simp [-bind_pure_comp, ended, gives_bind]

theorem gives_block {stmt : Stmt Unit} : Gives (block s) stmt s' ↔
    s.kind = .mark .leftBrace ∧ ∃ stmts s₁, Gives (blockBody s.advance) stmts s₁ ∧
      stmt = .block (s₁.stmtNode s.span) stmts ∧ s' = s₁.addStmt := by
  rw [block]
  simp only [gives_bind, gives_within, gives_expectMark, gives_pure, value_complete,
    state_complete, exists_prop, and_assoc, exists_and_left, exists_eq_left]

theorem gives_functionDecl {stmt : Stmt Unit} : Gives (functionDecl s) stmt s' ↔
    ∃ ret s₁, Gives (typeExpr s) ret s₁ ∧ ∃ name, s₁.kind = .ident name ∧
      s₁.advance.kind = .mark .leftParen ∧
        ∃ bound s₂, Gives (params s₁.advance.advance) bound s₂ ∧ s₂.kind = .mark .leftBrace ∧
          ∃ body s₃, Gives (blockBody s₂.advance) body s₃ ∧
            stmt = .function (s₃.stmtNode s.span) ret name bound body ∧ s' = s₃.addStmt := by
  rw [functionDecl]
  simp only [gives_bind, gives_within, gives_expectMark, gives_expectIdent, gives_pure,
    value_complete, state_complete, exists_prop, and_assoc, exists_and_left, exists_eq_left]

theorem gives_whileStmt {stmt : Stmt Unit} : Gives (whileStmt s) stmt s' ↔
    s.kind = .keyword .whileWord ∧ ∃ cond s₁, Gives (condition s.advance) cond s₁ ∧
      ∃ body s₂, Gives (statement s₁) body s₂ ∧
        stmt = .whileLoop (s₂.stmtNode s.span) cond body ∧ s' = s₂.addStmt := by
  rw [whileStmt]
  simp only [gives_bind, gives_within, gives_expectKeyword, gives_pure, value_complete,
    state_complete, exists_prop, and_assoc, exists_and_left, exists_eq_left]

/-- What follows the first branch of a conditional that starts at `start`. -/
def GivesElse (start : Span) (cond : Expr Unit) (thenBranch : Stmt Unit) (s : State)
    (stmt : Stmt Unit) (s' : State) : Prop :=
  s.kind = .keyword .elseWord ∧ (∃ elseBranch s₁, Gives (statement s.advance) elseBranch s₁ ∧
      stmt = .ifElse (s₁.stmtNode start) cond thenBranch (some elseBranch) ∧ s' = s₁.addStmt) ∨
    s.kind ≠ .keyword .elseWord ∧
      stmt = .ifElse (s.stmtNode start) cond thenBranch none ∧ s' = s.addStmt

theorem gives_ifStmt {stmt : Stmt Unit} : Gives (ifStmt s) stmt s' ↔
    s.kind = .keyword .ifWord ∧ ∃ cond s₁, Gives (condition s.advance) cond s₁ ∧
      ∃ thenBranch s₂, Gives (statement s₁) thenBranch s₂ ∧
        GivesElse s.span cond thenBranch s₂ stmt s' := by
  rw [ifStmt]
  simp only [gives_bind]
  -- The steps after the first branch do not depend on how it was reached.
  refine Iff.trans (exists_congr fun _ => exists_congr fun _ => exists_congr fun _ =>
    exists_congr fun cond => exists_congr fun _ => exists_congr fun _ =>
    exists_congr fun thenBranch => exists_congr fun s₂ => exists_congr fun _ =>
      (?_ : _ ↔ GivesElse s.span cond thenBranch s₂ stmt s')) ?_
  · unfold GivesElse
    by_cases isElse : s₂.kind = .keyword .elseWord
    · simp only [nextKeyword?_of_kind isElse, isElse, gives_bind, gives_within, gives_pure,
        value_complete, state_complete, exists_prop, true_and, ne_eq, not_true, false_and, or_false]
    · simp only [nextKeyword?_of_ne isElse, isElse, gives_pure, value_complete, state_complete,
        false_and, false_or, ne_eq, not_false_eq_true, true_and]
  · simp only [gives_within, gives_expectKeyword, exists_prop, and_assoc, exists_and_left,
      exists_eq_left]

theorem gives_doWhileStmt {stmt : Stmt Unit} : Gives (doWhileStmt s) stmt s' ↔
    s.kind = .keyword .doWord ∧ ∃ body s₁, Gives (statement s.advance) body s₁ ∧
      s₁.kind = .keyword .whileWord ∧
        ∃ cond s₂, Gives (condition s₁.advance) cond s₂ ∧ s₂.kind = .mark .semicolon ∧
          stmt = .doWhile (s₂.advance.stmtNode s.span) body cond ∧ s' = s₂.advance.addStmt := by
  rw [doWhileStmt]
  simp only [gives_bind, gives_within, gives_expectMark, gives_expectKeyword, gives_pure,
    value_complete, state_complete, exists_prop, and_assoc, exists_and_left, exists_eq_left]

theorem gives_forEachStmt {stmt : Stmt Unit} : Gives (forEachStmt s) stmt s' ↔
    s.kind = .keyword .forWord ∧ s.advance.kind = .mark .leftParen ∧
      ∃ bound s₁, Gives (binder s.advance.advance) bound s₁ ∧ s₁.kind = .mark .colon ∧
        ∃ iterable s₂, Gives (expression s₁.advance) iterable s₂ ∧
          s₂.kind = .mark .rightParen ∧ ∃ body s₃, Gives (statement s₂.advance) body s₃ ∧
            stmt = .forEach (s₃.stmtNode s.span) bound iterable body ∧ s' = s₃.addStmt := by
  rw [forEachStmt]
  simp only [gives_bind, gives_within, gives_expectMark, gives_expectKeyword, gives_pure,
    value_complete, state_complete, exists_prop, and_assoc, exists_and_left, exists_eq_left]

theorem gives_forStmt {stmt : Stmt Unit} : Gives (forStmt s) stmt s' ↔
    s.kind = .keyword .forWord ∧ s.advance.kind = .mark .leftParen ∧
      ∃ init s₁, Gives (forInit s.advance.advance) init s₁ ∧
        ∃ cond s₂, Gives (optionalBefore .semicolon s₁) cond s₂ ∧
          ∃ step s₃, Gives (optionalBefore .rightParen s₂) step s₃ ∧
            ∃ body s₄, Gives (statement s₃) body s₄ ∧
              stmt = .forLoop (s₄.stmtNode s.span) init cond step body ∧ s' = s₄.addStmt := by
  rw [forStmt]
  simp only [gives_bind, gives_within, gives_expectMark, gives_expectKeyword, gives_pure,
    value_complete, state_complete, exists_prop, and_assoc, exists_and_left, exists_eq_left]

/-! ## Programs -/

theorem wholeExpression_eq_ok_iff {e : Expr Unit} : wholeExpression s = .ok (e, s') ↔
    Gives (expression s) e s' ∧ s'.kind = .endOfInput := by
  unfold wholeExpression
  cases read : expression s with
  | error error =>
      constructor
      · nofun
      · rintro ⟨gives, -⟩
        exact absurd gives gives_error
  | ok parsed =>
      obtain ⟨value, s₁, shorter⟩ := parsed
      by_cases ends : s₁.kind = .endOfInput
      · constructor
        · intro whole
          simp only [bind, Except.bind, ends, if_true] at whole
          cases whole
          exact ⟨⟨shorter, rfl⟩, ends⟩
        · rintro ⟨gives, -⟩
          obtain ⟨rfl, rfl⟩ := gives_ok.mp gives
          simp [bind, Except.bind, ends, pure, Except.pure]
      · constructor
        · intro whole
          simp only [bind, Except.bind, ends, if_false] at whole
          cases whole
        · rintro ⟨gives, last⟩
          obtain ⟨rfl, rfl⟩ := gives_ok.mp gives
          exact absurd last ends

theorem programBody_of_end (ends : s.kind = .endOfInput) {body : List (Stmt Unit)}
    {tail : Option (Expr Unit)} : programBody s = .ok (body, tail, s') ↔
      body = [] ∧ tail = none ∧ s' = s := by
  rw [programBody, if_pos ends]
  simp [eq_comm]

theorem programBody_of_gives (more : s.kind ≠ .endOfInput) {first : Stmt Unit} {s₁ : State}
    (given : Gives (statement s) first s₁) {body : List (Stmt Unit)} {tail : Option (Expr Unit)} :
    programBody s = .ok (body, tail, s') ↔
      ∃ rest, body = first :: rest ∧ programBody s₁ = .ok (rest, tail, s') := by
  obtain ⟨shorter, given⟩ := given
  rw [programBody, if_neg more]
  simp only [given]
  cases rest : programBody s₁ with
  | error error =>
      constructor
      · nofun
      · rintro ⟨_, _, impossible⟩
        cases impossible
  | ok found =>
      obtain ⟨rest', tail', last⟩ := found
      constructor
      · intro whole
        cases whole
        exact ⟨rest', rfl, rfl⟩
      · rintro ⟨_, rfl, same⟩
        cases same
        rfl

theorem programBody_of_fails (more : s.kind ≠ .endOfInput) (fails : Fails (statement s))
    {body : List (Stmt Unit)} {tail : Option (Expr Unit)} :
    programBody s = .ok (body, tail, s') ↔
      ∃ e, body = [] ∧ tail = some e ∧ wholeExpression s = .ok (e, s') := by
  obtain ⟨error, given⟩ := fails_iff.mp fails
  rw [programBody, if_neg more]
  simp only [given]
  cases whole : wholeExpression s with
  | error other =>
      constructor
      · nofun
      · rintro ⟨_, _, _, impossible⟩
        cases impossible
  | ok found =>
      obtain ⟨e, last⟩ := found
      constructor
      · intro read
        cases read
        exact ⟨e, rfl, rfl, rfl⟩
      · rintro ⟨_, rfl, rfl, same⟩
        cases same
        rfl

theorem parse_eq_ok_iff {tokens : TokenList} {output : Output} :
    parse tokens = .ok output ↔ ∃ body tail last,
      programBody (State.ofTokens tokens) = .ok (body, tail, last) ∧
        output = ⟨⟨body, tail, last.spanFrom (State.ofTokens tokens).span⟩, last.exprs,
          last.stmts⟩ := by
  unfold parse
  dsimp only
  cases read : programBody (State.ofTokens tokens) with
  | error error =>
      constructor
      · nofun
      · rintro ⟨_, _, _, impossible, -⟩
        cases impossible
  | ok found =>
      constructor
      · intro parsed
        cases parsed
        exact ⟨_, _, _, rfl, rfl⟩
      · rintro ⟨_, _, _, same, rfl⟩
        cases same
        rfl

theorem parseExpression_eq_ok_iff {tokens : TokenList} {output : Output} :
    parseExpression tokens = .ok output ↔ ∃ tail last,
      wholeExpression (State.ofTokens tokens) = .ok (tail, last) ∧
        output = ⟨⟨[], some tail, last.spanFrom (State.ofTokens tokens).span⟩, last.exprs,
          last.stmts⟩ := by
  unfold parseExpression
  dsimp only
  cases read : wholeExpression (State.ofTokens tokens) with
  | error error =>
      constructor
      · nofun
      · rintro ⟨_, _, impossible, -⟩
        cases impossible
  | ok found =>
      constructor
      · intro parsed
        cases parsed
        exact ⟨_, _, rfl, rfl⟩
      · rintro ⟨_, _, same, rfl⟩
        cases same
        rfl

end Formulae.Parser
