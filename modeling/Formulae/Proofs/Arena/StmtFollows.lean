import Formulae.Proofs.Arena.ExprFollows

/-!
# Reading statements into storage

The steps that read statements follow the rules that read trees.  Each form is tried from the
same place; what a form that does not fit has added is given up.
-/

namespace Formulae.Build

open Formulae.Parser (Parsed State Outcome)

variable {α β : Type} {a : Arena} {p : Place} {s : State} {n : Nat}

theorem Place.state_addStmt (kind : StmtKind) (span : Span) (here : p.state = s) :
    (⟨p.cursor, (Arena.addStmt kind span p.arena).2⟩ : Place).state = s.addStmt := by
  subst here
  simp [Place.state, State.addStmt, Arena.addStmt]

/-- A statement that is complete. -/
theorem follows_complete {s₀ : State} {build : StmtNode → Stmt Unit} {kind : StmtKind}
    {start : Span} {h : s.remaining < s₀.remaining} (here : p.state = s)
    (puts : ∀ node, (build node).store a = Arena.addStmt kind node.span p.arena) :
    Follows Parsed.result (Puts Stmt.store a) p (pure (Parser.complete s start build h))
      (addStmt kind start) :=
  .spanFrom here (.ok rfl rfl (Place.state_addStmt kind _ here)
    (Arena.le_addStmt kind _ p.arena) (puts _))

/-! ## Parts of statements -/

theorem follows_condition (here : p.state = s) :
    Follows Parsed.result (Puts Expr.store p.arena) p (Parser.condition s) condition := by
  rw [Parser.condition, condition]
  refine (follows_mark .leftParen here).pass fun _ s₁ h₁ c₁ here₁ => ?_
  refine (follows_expression here₁).within.andThen fun cond s₂ h₂ id p₂ here₂ _ cond' => ?_
  refine (follows_mark .rightParen here₂).within.pass fun _ s₃ h₃ c₃ here₃ => ?_
  exact .ok rfl rfl here₃ (Arena.le_refl _) cond'

theorem follows_optionalBefore (close : Mark) (here : p.state = s) :
    Follows Parsed.result (Puts Expr.storeOption p.arena) p (Parser.optionalBefore close s)
      (optionalBefore close) := by
  rw [Parser.optionalBefore, optionalBefore]
  refine .kind here ?_
  by_cases closes : s.kind = .mark close
  · rw [Parser.nextMark?_of_kind closes, if_pos closes]
    refine .marked here closes ?_
    exact .ok rfl rfl (Place.state_advance here) (Arena.le_refl _) rfl
  · rw [Parser.nextMark?_of_ne closes, if_neg closes]
    refine (follows_expression here).andThen fun e s₁ h₁ id p₁ here₁ _ puts => ?_
    refine (follows_mark close here₁).within.pass fun _ s₂ h₂ c₂ here₂ => ?_
    exact .ok rfl rfl here₂ (Arena.le_refl _) (bind_of_eq puts)

/-! ## Statements without statements inside -/

theorem follows_varDecl (here : p.state = s) :
    Follows Parsed.result (Puts Stmt.store p.arena) p (Parser.varDecl s) varDecl := by
  rw [Parser.varDecl, varDecl]
  refine .span here ?_
  refine (follows_binder here).pass fun binder s₁ h₁ c₁ here₁ => ?_
  refine (follows_mark .equal here₁).within.pass fun _ s₂ h₂ c₂ here₂ => ?_
  refine (follows_expression here₂).within.andThen fun init s₃ h₃ id p₃ here₃ _ init' => ?_
  refine (follows_mark .semicolon here₃).within.pass fun _ s₄ h₄ c₄ here₄ => ?_
  exact follows_complete here₄ fun _ => bind_of_eq init'

theorem follows_returnStmt (here : p.state = s) :
    Follows Parsed.result (Puts Stmt.store p.arena) p (Parser.returnStmt s) returnStmt := by
  rw [Parser.returnStmt, returnStmt]
  refine .span here ?_
  refine (follows_keyword .returnWord here).pass fun _ s₁ h₁ c₁ here₁ => ?_
  refine (follows_optionalBefore .semicolon here₁).within.andThen
    fun value s₂ h₂ id p₂ here₂ _ value' => ?_
  exact follows_complete here₂ fun _ => bind_of_eq value'

theorem follows_breakStmt (here : p.state = s) :
    Follows Parsed.result (Puts Stmt.store p.arena) p (Parser.breakStmt s) breakStmt := by
  rw [Parser.breakStmt, breakStmt]
  refine .span here ?_
  refine (follows_keyword .breakWord here).pass fun _ s₁ h₁ c₁ here₁ => ?_
  refine (follows_mark .semicolon here₁).within.pass fun _ s₂ h₂ c₂ here₂ => ?_
  exact follows_complete here₂ fun _ => rfl

theorem follows_continueStmt (here : p.state = s) :
    Follows Parsed.result (Puts Stmt.store p.arena) p (Parser.continueStmt s) continueStmt := by
  rw [Parser.continueStmt, continueStmt]
  refine .span here ?_
  refine (follows_keyword .continueWord here).pass fun _ s₁ h₁ c₁ here₁ => ?_
  refine (follows_mark .semicolon here₁).within.pass fun _ s₂ h₂ c₂ here₂ => ?_
  exact follows_complete here₂ fun _ => rfl

theorem follows_exprStmt (here : p.state = s) :
    Follows Parsed.result (Puts Stmt.store p.arena) p (Parser.exprStmt s) exprStmt := by
  rw [Parser.exprStmt, exprStmt]
  refine .span here ?_
  refine (follows_expression here).andThen fun e s₁ h₁ id p₁ here₁ _ puts => ?_
  refine (follows_mark .semicolon here₁).within.pass fun _ s₂ h₂ c₂ here₂ => ?_
  exact follows_complete here₂ fun _ => bind_of_eq puts

theorem follows_forInit (here : p.state = s) :
    Follows Parsed.result (Puts Stmt.storeOption p.arena) p (Parser.forInit s) forInit := by
  rw [Parser.forInit, forInit]
  by_cases closes : s.kind = .mark .semicolon
  · rw [Parser.nextMark?_of_kind closes]
    refine .eaten here closes ?_
    exact .ok rfl rfl (Place.state_advance here) (Arena.le_refl _) rfl
  · rw [Parser.nextMark?_of_ne closes]
    refine .notEaten here closes ?_
    have init := (follows_varDecl here).attempt.orAttempt (follows_exprStmt here)
    refine init.andThen fun stmt s₁ h₁ id p₁ here₁ _ puts => ?_
    exact .ok rfl rfl here₁ (Arena.le_refl _) (bind_of_eq puts)

/-! ## Statements with statements inside -/

/-- What the steps for statements follow, within a bound. -/
structure FollowsStmts (n : Nat) : Prop where
  statement : ∀ {p s}, p.state = s → 4 * s.remaining + 2 ≤ n →
    Tries Parsed.result (Puts Stmt.store p.arena) p (Parser.statement s) (statement n)
  statements : ∀ {p s}, p.state = s → 4 * s.remaining + 3 ≤ n →
    Follows Parsed.result (Puts Stmt.storeAll p.arena) p (Parser.blockBody s) (statements n)
  block : ∀ {p s}, p.state = s → 4 * s.remaining + 1 ≤ n →
    Follows Parsed.result (Puts Stmt.store p.arena) p (Parser.block s) (block n)
  functionDecl : ∀ {p s}, p.state = s → 4 * s.remaining + 1 ≤ n →
    Follows Parsed.result (Puts Stmt.store p.arena) p (Parser.functionDecl s) (functionDecl n)
  whileStmt : ∀ {p s}, p.state = s → 4 * s.remaining + 1 ≤ n →
    Follows Parsed.result (Puts Stmt.store p.arena) p (Parser.whileStmt s) (whileStmt n)
  ifStmt : ∀ {p s}, p.state = s → 4 * s.remaining + 1 ≤ n →
    Follows Parsed.result (Puts Stmt.store p.arena) p (Parser.ifStmt s) (ifStmt n)
  doWhileStmt : ∀ {p s}, p.state = s → 4 * s.remaining + 1 ≤ n →
    Follows Parsed.result (Puts Stmt.store p.arena) p (Parser.doWhileStmt s) (doWhileStmt n)
  forEachStmt : ∀ {p s}, p.state = s → 4 * s.remaining + 1 ≤ n →
    Follows Parsed.result (Puts Stmt.store p.arena) p (Parser.forEachStmt s) (forEachStmt n)
  forStmt : ∀ {p s}, p.state = s → 4 * s.remaining + 1 ≤ n →
    Follows Parsed.result (Puts Stmt.store p.arena) p (Parser.forStmt s) (forStmt n)

namespace FollowsStmts

theorem statement_succ (inner : FollowsStmts n) (here : p.state = s)
    (enough : 4 * s.remaining + 2 ≤ n + 1) :
    Tries Parsed.result (Puts Stmt.store p.arena) p (Parser.statement s)
      (Build.statement (n + 1)) := by
  have enough' : 4 * s.remaining + 1 ≤ n := by omega
  rw [Parser.statement, Build.statement]
  refine (inner.block here enough').firstOf fun _ => ?_
  refine (inner.functionDecl here enough').firstOf_cons fun _ => ?_
  refine (follows_varDecl here).firstOf_cons fun _ => ?_
  refine (follows_returnStmt here).firstOf_cons fun _ => ?_
  refine (inner.whileStmt here enough').firstOf_cons fun _ => ?_
  refine (inner.ifStmt here enough').firstOf_cons fun _ => ?_
  refine (follows_breakStmt here).firstOf_cons fun _ => ?_
  refine (follows_continueStmt here).firstOf_cons fun _ => ?_
  refine (inner.doWhileStmt here enough').firstOf_cons fun _ => ?_
  refine (inner.forEachStmt here enough').firstOf_cons fun _ => ?_
  refine (inner.forStmt here enough').firstOf_cons fun _ => ?_
  exact (follows_exprStmt here).firstOf_last _

theorem statements_succ (inner : FollowsStmts n) (here : p.state = s)
    (enough : 4 * s.remaining + 3 ≤ n + 1) :
    Follows Parsed.result (Puts Stmt.storeAll p.arena) p (Parser.blockBody s)
      (Build.statements (n + 1)) := by
  rw [Parser.blockBody, Build.statements]
  by_cases closes : s.kind = .mark .rightBrace
  · rw [Parser.nextMark?_of_kind closes]
    refine .eaten here closes ?_
    exact .ok rfl rfl (Place.state_advance here) (Arena.le_refl _) rfl
  · rw [Parser.nextMark?_of_ne closes]
    refine .notEaten here closes (.kind here ?_)
    by_cases ends : s.kind = .endOfInput
    · simp only [if_pos ends]
      exact .error rfl (here ▸ rfl) (Arena.le_refl _)
    · simp only [if_neg ends]
      refine (inner.statement here (by omega)).follows.andThen
        fun first s₁ h₁ x p₁ here₁ _ first' => ?_
      refine (inner.statements here₁ (by omega)).within.andThen
        fun rest s₂ h₂ xs p₂ here₂ _ rest' => ?_
      have whole : Puts Stmt.storeAll p.arena (first :: rest) _ _ :=
        (bind_of_eq first').trans (bind_of_eq rest')
      exact .ok rfl rfl here₂ (Arena.le_refl _) whole

theorem block_succ (inner : FollowsStmts n) (here : p.state = s)
    (enough : 4 * s.remaining + 1 ≤ n + 1) :
    Follows Parsed.result (Puts Stmt.store p.arena) p (Parser.block s) (Build.block (n + 1)) := by
  rw [Parser.block, Build.block]
  refine .span here ?_
  refine (follows_mark .leftBrace here).pass fun _ s₁ h₁ c₁ here₁ => ?_
  refine (inner.statements here₁ (by omega)).within.andThen
    fun stmts s₂ h₂ ids p₂ here₂ _ stmts' => ?_
  refine .step rfl (Arena.le_addStmtList ids p₂.arena) ?_
  exact follows_complete here₂ fun _ => bind_of_eq stmts'

theorem functionDecl_succ (inner : FollowsStmts n) (here : p.state = s)
    (enough : 4 * s.remaining + 1 ≤ n + 1) :
    Follows Parsed.result (Puts Stmt.store p.arena) p (Parser.functionDecl s)
      (Build.functionDecl (n + 1)) := by
  rw [Parser.functionDecl, Build.functionDecl]
  refine .span here ?_
  refine (follows_type here).pass fun ret s₁ h₁ c₁ here₁ => ?_
  refine (follows_ident here₁).within.pass fun name s₂ h₂ c₂ here₂ => ?_
  refine (follows_mark .leftParen here₂).within.pass fun _ s₃ h₃ c₃ here₃ => ?_
  refine (follows_params here₃).within.pass fun params s₄ h₄ c₄ here₄ => ?_
  refine (follows_mark .leftBrace here₄).within.pass fun _ s₅ h₅ c₅ here₅ => ?_
  refine (inner.statements here₅ (by omega)).within.andThen
    fun stmts s₆ h₆ ids p₆ here₆ _ stmts' => ?_
  refine .step rfl (Arena.le_addStmtList ids p₆.arena) ?_
  refine .step rfl (Arena.le_addParams params _) ?_
  exact follows_complete here₆ fun _ => bind_of_eq stmts'

theorem whileStmt_succ (inner : FollowsStmts n) (here : p.state = s)
    (enough : 4 * s.remaining + 1 ≤ n + 1) :
    Follows Parsed.result (Puts Stmt.store p.arena) p (Parser.whileStmt s)
      (Build.whileStmt (n + 1)) := by
  rw [Parser.whileStmt, Build.whileStmt]
  refine .span here ?_
  refine (follows_keyword .whileWord here).pass fun _ s₁ h₁ c₁ here₁ => ?_
  refine (follows_condition here₁).within.andThen fun cond s₂ h₂ c p₂ here₂ _ cond' => ?_
  refine (inner.statement here₂ (by omega)).follows.within.andThen
    fun body s₃ h₃ b p₃ here₃ _ body' => ?_
  exact follows_complete here₃ fun _ => (bind_of_eq cond').trans (bind_of_eq body')

theorem ifStmt_succ (inner : FollowsStmts n) (here : p.state = s)
    (enough : 4 * s.remaining + 1 ≤ n + 1) :
    Follows Parsed.result (Puts Stmt.store p.arena) p (Parser.ifStmt s) (Build.ifStmt (n + 1)) := by
  rw [Parser.ifStmt, Build.ifStmt]
  refine .span here ?_
  refine (follows_keyword .ifWord here).pass fun _ s₁ h₁ c₁ here₁ => ?_
  refine (follows_condition here₁).within.andThen fun cond s₂ h₂ c p₂ here₂ _ cond' => ?_
  refine (inner.statement here₂ (by omega)).follows.within.andThen
    fun thenBranch s₃ h₃ t p₃ here₃ _ then' => ?_
  by_cases isElse : s₃.kind = .keyword .elseWord
  · have shorter := State.remaining_advance_lt_of_keyword isElse
    simp only [Parser.nextKeyword?_of_kind isElse]
    refine .eaten here₃ isElse ?_
    refine (inner.statement (Place.state_advance here₃) (by omega)).follows.within.within.andThen
      fun elseBranch s₄ h₄ e p₄ here₄ _ else' => ?_
    have other : Puts Stmt.storeOption p₃.arena (some elseBranch) (some e) p₄.arena :=
      bind_of_eq else'
    exact follows_complete here₄ fun _ =>
      (bind_of_eq cond').trans ((bind_of_eq then').trans (bind_of_eq other))
  · simp only [Parser.nextKeyword?_of_ne isElse]
    refine .notEaten here₃ isElse ?_
    exact follows_complete here₃ fun _ =>
      (bind_of_eq cond').trans ((bind_of_eq then').trans rfl)

theorem doWhileStmt_succ (inner : FollowsStmts n) (here : p.state = s)
    (enough : 4 * s.remaining + 1 ≤ n + 1) :
    Follows Parsed.result (Puts Stmt.store p.arena) p (Parser.doWhileStmt s)
      (Build.doWhileStmt (n + 1)) := by
  rw [Parser.doWhileStmt, Build.doWhileStmt]
  refine .span here ?_
  refine (follows_keyword .doWord here).pass fun _ s₁ h₁ c₁ here₁ => ?_
  refine (inner.statement here₁ (by omega)).follows.within.andThen
    fun body s₂ h₂ b p₂ here₂ _ body' => ?_
  refine (follows_keyword .whileWord here₂).within.pass fun _ s₃ h₃ c₃ here₃ => ?_
  refine (follows_condition here₃).within.andThen fun cond s₄ h₄ c p₄ here₄ _ cond' => ?_
  refine (follows_mark .semicolon here₄).within.pass fun _ s₅ h₅ c₅ here₅ => ?_
  exact follows_complete here₅ fun _ => (bind_of_eq body').trans (bind_of_eq cond')

theorem forEachStmt_succ (inner : FollowsStmts n) (here : p.state = s)
    (enough : 4 * s.remaining + 1 ≤ n + 1) :
    Follows Parsed.result (Puts Stmt.store p.arena) p (Parser.forEachStmt s)
      (Build.forEachStmt (n + 1)) := by
  rw [Parser.forEachStmt, Build.forEachStmt]
  refine .span here ?_
  refine (follows_keyword .forWord here).pass fun _ s₁ h₁ c₁ here₁ => ?_
  refine (follows_mark .leftParen here₁).within.pass fun _ s₂ h₂ c₂ here₂ => ?_
  refine (follows_binder here₂).within.pass fun binder s₃ h₃ c₃ here₃ => ?_
  refine (follows_mark .colon here₃).within.pass fun _ s₄ h₄ c₄ here₄ => ?_
  refine (follows_expression here₄).within.andThen
    fun iterable s₅ h₅ i p₅ here₅ _ iterable' => ?_
  refine (follows_mark .rightParen here₅).within.pass fun _ s₆ h₆ c₆ here₆ => ?_
  refine (inner.statement here₆ (by omega)).follows.within.andThen
    fun body s₇ h₇ b p₇ here₇ _ body' => ?_
  exact follows_complete here₇ fun _ => (bind_of_eq iterable').trans (bind_of_eq body')

theorem forStmt_succ (inner : FollowsStmts n) (here : p.state = s)
    (enough : 4 * s.remaining + 1 ≤ n + 1) :
    Follows Parsed.result (Puts Stmt.store p.arena) p (Parser.forStmt s)
      (Build.forStmt (n + 1)) := by
  rw [Parser.forStmt, Build.forStmt]
  refine .span here ?_
  refine (follows_keyword .forWord here).pass fun _ s₁ h₁ c₁ here₁ => ?_
  refine (follows_mark .leftParen here₁).within.pass fun _ s₂ h₂ c₂ here₂ => ?_
  refine (follows_forInit here₂).within.andThen fun init s₃ h₃ i p₃ here₃ _ init' => ?_
  refine (follows_optionalBefore .semicolon here₃).within.andThen
    fun cond s₄ h₄ c p₄ here₄ _ cond' => ?_
  refine (follows_optionalBefore .rightParen here₄).within.andThen
    fun step s₅ h₅ st p₅ here₅ _ step' => ?_
  refine (inner.statement here₅ (by omega)).follows.within.andThen
    fun body s₆ h₆ b p₆ here₆ _ body' => ?_
  exact follows_complete here₆ fun _ => (bind_of_eq init').trans
    ((bind_of_eq cond').trans ((bind_of_eq step').trans (bind_of_eq body')))

end FollowsStmts

theorem followsStmts : ∀ n, FollowsStmts n
  | 0 =>
      { statement := by omega
        statements := by omega
        block := by omega
        functionDecl := by omega
        whileStmt := by omega
        ifStmt := by omega
        doWhileStmt := by omega
        forEachStmt := by omega
        forStmt := by omega }
  | n + 1 =>
      let inner := followsStmts n
      { statement := inner.statement_succ
        statements := inner.statements_succ
        block := inner.block_succ
        functionDecl := inner.functionDecl_succ
        whileStmt := inner.whileStmt_succ
        ifStmt := inner.ifStmt_succ
        doWhileStmt := inner.doWhileStmt_succ
        forEachStmt := inner.forEachStmt_succ
        forStmt := inner.forStmt_succ }

/-- Reading a statement into storage adds the storage of the tree that is read, or nothing. -/
theorem tries_fullStatement (here : p.state = s) :
    Tries Parsed.result (Puts Stmt.store p.arena) p (Parser.statement s) fullStatement := by
  have bound : p.cursor.remaining = s.remaining := here ▸ rfl
  exact ((followsStmts (4 * p.cursor.remaining + 2)).statement here (by omega)).of_eq rfl

end Formulae.Build
