import Formulae.Proofs.Arena.Agreement
import Formulae.Proofs.Arena.GivenUp

/-!
# How far reading statements and programs looks ahead

The forms of statements are steps in a row, and the choice between them looks no further ahead than
the forms, since each form that is given up fails before the statement ends.
-/

namespace Formulae.Build

variable {a b n : Nat} {p : Place}

/-! ## Forms that begin with a word -/

/-- A kind of token that declarations and blocks start with. -/
def opensDeclared (kind : Token.Kind) : Prop :=
  kind = .mark .leftBrace ∨ opensBinder kind

/-- A word that a form of statements starts with. -/
def opensWord (kind : Token.Kind) : Prop :=
  ∃ word, Parser.leadsStmt word ∧ kind = .keyword word

theorem not_opensWord_of_opensDeclared {kind : Token.Kind} (declared : opensDeclared kind) :
    ¬opensWord kind := by
  rintro ⟨word, leads, rfl⟩
  rcases declared with brace | (isWord | ⟨name, isName⟩) | isMut | isVar
  · cases brace
  · cases word <;> first | cases leads; done | cases isWord
  · cases isName
  · cases isMut
    cases leads
  · cases isVar
    cases leads

theorem not_opensExpr_of_opensWord {kind : Token.Kind} (leads : opensWord kind) :
    ¬kind.opensExpr := by
  obtain ⟨word, leads, rfl⟩ := leads
  cases word <;> first | cases leads; done | nofun

/-! ## The choice between forms -/

/-- What is known of the forms of statements, within a bound. -/
structure DecidedStmts (n : Nat) : Prop where
  statement : ∀ p, Decided 0 0 p (statement n)
  statements : ∀ p, Decided 1 0 p (statements n)
  block : ∀ p, Decided 0 0 p (block n)
  functionDecl : ∀ p, Decided 0 0 p (functionDecl n)
  whileStmt : ∀ p, Decided 0 0 p (whileStmt n)
  ifStmt : ∀ p, Decided 0 0 p (ifStmt n)
  doWhileStmt : ∀ p, Decided 0 0 p (doWhileStmt n)
  forEachStmt : ∀ p, Decided 0 0 p (forEachStmt n)
  forStmt : ∀ p, Decided 0 0 p (forStmt n)
  blockGivenUp : ∀ p, GivenUp p (Build.block n) exprStmt
  loopGivenUp : ∀ p, GivenUp p (Build.forEachStmt n) (Build.forStmt n)

/-- Blocks and declarations. -/
def declaredForms (n : Nat) : List (Build Nat) :=
  [block n, functionDecl n, varDecl]

/-- The forms that begin with a word that no other form begins with. -/
def wordForms (n : Nat) : List (Keyword × Build Nat) :=
  [(.returnWord, returnStmt), (.whileWord, whileStmt n), (.ifWord, ifStmt n),
    (.breakWord, breakStmt), (.continueWord, continueStmt), (.doWord, doWhileStmt n)]

/-- The forms that begin with a word of their own, the two loops that share one included. -/
def leadForms (n : Nat) : List (Build Nat) :=
  (wordForms n).map Prod.snd ++ [forEachStmt n, forStmt n]

theorem statement_eq (n : Nat) : statement (n + 1) =
    firstOf none (declaredForms n ++ (leadForms n ++ [exprStmt])) :=
  rfl

theorem begins_varDecl : Begins opensBinder varDecl :=
  .span fun _ => begins_binder.bind

theorem begins_declaredForms (n : Nat) : ∀ form ∈ declaredForms n, Begins opensDeclared form := by
  simp only [declaredForms, List.forall_mem_cons, List.not_mem_nil, false_imp_iff, implies_true,
    and_true]
  exact ⟨(begins_block n).mono fun _ => .inl,
    (begins_functionDecl n).mono fun _ type => .inr (.inl type), begins_varDecl.mono fun _ => .inr⟩

theorem begins_wordForms (n : Nat) :
    ∀ form ∈ wordForms n, Begins (· = .keyword form.1) form.2 := by
  simp only [wordForms, List.forall_mem_cons, List.not_mem_nil, false_imp_iff, implies_true,
    and_true]
  cases n with
  | zero =>
      simp only [whileStmt, ifStmt, doWhileStmt]
      exact ⟨.span fun _ => (Begins.keyword _).bind, .unexpected _, .unexpected _,
        .span fun _ => (Begins.keyword _).bind, .span fun _ => (Begins.keyword _).bind,
        .unexpected _⟩
  | succ n =>
      simp only [whileStmt, ifStmt, doWhileStmt]
      exact ⟨.span fun _ => (Begins.keyword _).bind, .span fun _ => (Begins.keyword _).bind,
        .span fun _ => (Begins.keyword _).bind, .span fun _ => (Begins.keyword _).bind,
        .span fun _ => (Begins.keyword _).bind, .span fun _ => (Begins.keyword _).bind⟩

theorem begins_loops (n : Nat) :
    ∀ form ∈ [forEachStmt n, forStmt n], Begins (· = .keyword .forWord) form := by
  simp only [List.forall_mem_cons, List.not_mem_nil, false_imp_iff, implies_true, and_true]
  cases n with
  | zero =>
      rw [forEachStmt, forStmt]
      exact ⟨.unexpected _, .unexpected _⟩
  | succ n =>
      rw [forEachStmt, forStmt]
      exact ⟨.span fun _ => (Begins.keyword _).bind, .span fun _ => (Begins.keyword _).bind⟩

theorem begins_leadForms (n : Nat) : ∀ form ∈ leadForms n, Begins opensWord form := by
  have leads : ∀ form ∈ wordForms n, Parser.leadsStmt form.1 := by
    simp [wordForms, Parser.leadsStmt]
  intro form member
  rcases List.mem_append.mp member with member | member
  · obtain ⟨⟨word, form⟩, listed, rfl⟩ := List.mem_map.mp member
    exact (begins_wordForms n _ listed).mono fun kind same => ⟨word, leads _ listed, same⟩
  · exact (begins_loops n form member).mono fun kind same => ⟨.forWord, rfl, same⟩

namespace DecidedStmts

variable (inner : DecidedStmts n)

include inner

theorem decided_declaredForms (p : Place) : ∀ form ∈ declaredForms n, Decided 0 0 p form := by
  simp only [declaredForms, List.forall_mem_cons, List.not_mem_nil, false_imp_iff, implies_true,
    and_true]
  exact ⟨inner.block p, inner.functionDecl p, decided_varDecl⟩

theorem decided_wordForms (p : Place) : ∀ form ∈ wordForms n, Decided 0 0 p form.2 := by
  simp only [wordForms, List.forall_mem_cons, List.not_mem_nil, false_imp_iff, implies_true,
    and_true]
  exact ⟨decided_returnStmt, inner.whileStmt p, inner.ifStmt p, decided_breakStmt,
    decided_continueStmt, inner.doWhileStmt p⟩

theorem decided_loops (p : Place) :
    ∀ form ∈ [Build.forEachStmt n, Build.forStmt n], Decided 0 0 p form := by
  simp only [List.forall_mem_cons, List.not_mem_nil, false_imp_iff, implies_true, and_true]
  exact ⟨inner.forEachStmt p, inner.forStmt p⟩

theorem decided_leadForms (p : Place) : ∀ form ∈ leadForms n, Decided 0 0 p form := by
  intro form member
  rcases List.mem_append.mp member with member | member
  · obtain ⟨form, listed, rfl⟩ := List.mem_map.mp member
    exact inner.decided_wordForms p form listed
  · exact inner.decided_loops p form member

theorem givenUp_declaredForms (p : Place) : (declaredForms n).Pairwise (GivenUp p) := by
  have apart (kind : Token.Kind) (brace : kind = .mark .leftBrace) : ¬opensBinder kind :=
    brace ▸ not_opensBinder_mark .leftBrace
  have function : GivenUp p (Build.block n) (Build.functionDecl n) :=
    (begins_block n).givenUp (inner.functionDecl p)
      (fun _ _ ran => .inl ((begins_functionDecl n).of_ok ran)) apart
  have var : GivenUp p (Build.block n) varDecl :=
    (begins_block n).givenUp decided_varDecl (fun _ _ ran => begins_varDecl.of_ok ran) apart
  simp [declaredForms, function, var, givenUp_functionDecl_varDecl]

theorem givenUp_leadForms (p : Place) : (leadForms n).Pairwise (GivenUp p) := by
  have apart {word other : Keyword} (different : word ≠ other) (kind : Token.Kind)
      (like : kind = .keyword word) : ¬kind = .keyword other := by
    rintro rfl
    cases like
    exact different rfl
  have words : (wordForms n).Pairwise fun form form' => form.1 ≠ form'.1 := by simp [wordForms]
  have noLoop : ∀ form ∈ wordForms n, form.1 ≠ .forWord := by simp [wordForms]
  rw [leadForms, List.pairwise_append, List.pairwise_map]
  refine ⟨words.imp_of_mem fun member member' different => ?_, ?_, ?_⟩
  · exact (begins_wordForms n _ member).givenUp (inner.decided_wordForms p _ member')
      (fun _ _ ran => (begins_wordForms n _ member').of_ok ran) (apart different)
  · simp [inner.loopGivenUp p]
  · intro form member loop member'
    obtain ⟨form, listed, rfl⟩ := List.mem_map.mp member
    exact (begins_wordForms n form listed).givenUp (inner.decided_loops p loop member')
      (fun _ _ ran => (begins_loops n loop member').of_ok ran) (apart (noLoop form listed))

theorem givenUp_forms (p : Place) :
    (declaredForms n ++ (leadForms n ++ [exprStmt])).Pairwise (GivenUp p) := by
  have beforeExpr : ∀ form ∈ declaredForms n, GivenUp p form exprStmt := by
    simp [declaredForms, inner.blockGivenUp p, givenUp_functionDecl_exprStmt,
      givenUp_varDecl_exprStmt]
  rw [List.pairwise_append, List.pairwise_append]
  refine ⟨inner.givenUp_declaredForms p, ⟨inner.givenUp_leadForms p, ?_, ?_⟩, ?_⟩
  · exact List.pairwise_singleton ..
  · intro form member other member'
    obtain rfl := List.mem_singleton.mp member'
    exact (begins_leadForms n form member).givenUp decided_exprStmt
      (fun _ _ ran => opensExpr_of_exprStmt ran) fun _ => not_opensExpr_of_opensWord
  · intro form member other member'
    rcases List.mem_append.mp member' with member' | member'
    · exact (begins_declaredForms n form member).givenUp (inner.decided_leadForms p other member')
        (fun _ _ ran => (begins_leadForms n other member').of_ok ran)
        fun _ => not_opensWord_of_opensDeclared
    · obtain rfl := List.mem_singleton.mp member'
      exact beforeExpr form member

theorem statement_succ (p : Place) : Decided 0 0 p (Build.statement (n + 1)) := by
  rw [statement_eq]
  refine decided_firstOf nofun (fun form member => ?_) (inner.givenUp_forms p)
  rcases List.mem_append.mp member with member | member
  · exact inner.decided_declaredForms p form member
  · rcases List.mem_append.mp member with member | member
    · exact inner.decided_leadForms p form member
    · obtain rfl := List.mem_singleton.mp member
      exact decided_exprStmt

theorem statements_succ (p : Place) : Decided 1 0 p (Build.statements (n + 1)) := by
  rw [Build.statements]
  refine .eat (fun closes => ?_) fun _ => .kind ?_
  · refine (decided_advance (by rw [closes]; rfl)).thenQuiet fun _ => ?_
    exact quiet_pure []
  · by_cases ends : p.cursor.kind = .endOfInput
    · rw [if_pos ends]
      exact decided_unexpected _
    · rw [if_neg ends]
      refine (inner.statement p).andThen fun first p₁ => ?_
      exact (inner.statements p₁).thenQuiet fun rest => quiet_pure (first :: rest)

theorem block_succ (p : Place) : Decided 0 0 p (Build.block (n + 1)) := by
  rw [Build.block]
  refine .span ((decided_mark rfl).bind fun _ p₁ _ => ?_)
  exact decided_blockSteps inner.statements _

theorem functionDecl_succ (p : Place) : Decided 0 0 p (Build.functionDecl (n + 1)) := by
  rw [Build.functionDecl]
  refine .span (decided_typeExpr.andThen fun ret _ => decided_ident.andThen fun name _ => ?_)
  refine (decided_mark rfl).andThen fun _ _ => decided_params.andThen fun list _ => ?_
  refine (decided_mark rfl).bind fun _ p₁ _ => ?_
  refine (inner.statements p₁).thenQuiet fun stmts => ?_
  refine (quiet_alloc (Arena.le_addStmtList stmts)).bind fun body => ?_
  exact (quiet_alloc (Arena.le_addParams list)).bind fun params => quiet_addStmt _ _

theorem whileStmt_succ (p : Place) : Decided 0 0 p (Build.whileStmt (n + 1)) := by
  rw [Build.whileStmt]
  refine .span ((decided_keyword _).andThen fun _ _ => decided_condition.andThen fun cond p₁ => ?_)
  exact (inner.statement p₁).thenQuiet fun body => quiet_addStmt _ _

theorem ifStmt_succ (p : Place) : Decided 0 0 p (Build.ifStmt (n + 1)) := by
  rw [Build.ifStmt]
  refine .span ((decided_keyword _).andThen fun _ _ => decided_condition.andThen fun cond p₁ => ?_)
  refine (inner.statement p₁).andThen fun thenBranch p₂ => .eatKeyword fun other p₃ => ?_
  cases other with
  | true => exact (inner.statement p₃).thenQuiet fun elseBranch => quiet_addStmt _ _
  | false => exact (quiet_addStmt _ _).decided

theorem doWhileStmt_succ (p : Place) : Decided 0 0 p (Build.doWhileStmt (n + 1)) := by
  rw [Build.doWhileStmt]
  refine .span ((decided_keyword _).andThen fun _ p₁ => ?_)
  refine (inner.statement p₁).andThen fun body _ => ?_
  refine (decided_keyword _).andThen fun _ _ => decided_condition.andThen fun cond _ => ?_
  exact (decided_mark rfl).thenQuiet fun _ => quiet_addStmt _ _

theorem forEachStmt_succ (p : Place) : Decided 0 0 p (Build.forEachStmt (n + 1)) := by
  rw [Build.forEachStmt]
  refine .span ((decided_keyword _).andThen fun _ _ => (decided_mark rfl).andThen fun _ _ => ?_)
  exact decided_binder.andThen fun binder _ => decided_elementSteps inner.statement _ binder

theorem forStmt_succ (p : Place) : Decided 0 0 p (Build.forStmt (n + 1)) := by
  rw [Build.forStmt]
  refine .span ((decided_keyword _).andThen fun _ _ => (decided_mark rfl).andThen fun _ _ => ?_)
  exact decided_forInit.andThen fun init _ => decided_loopSteps inner.statement _ init

end DecidedStmts

/-- Within no bound every form fails where it stands. -/
theorem decidedStmts_zero : DecidedStmts 0 := by
  constructor
  case blockGivenUp =>
    intro p rising error p₁ value p₂ fails ran
    rw [block] at fails
    cases fails
    exact decided_exprStmt.start_le rising ran
  case loopGivenUp =>
    intro p rising error p₁ value p₂ fails ran
    rw [forStmt] at ran
    cases ran
  all_goals
    intro p
    simp only [statement, statements, block, functionDecl, whileStmt, ifStmt, doWhileStmt,
      forEachStmt, forStmt]
    exact decided_unexpected "statement"

theorem decidedStmts : ∀ n, DecidedStmts n
  | 0 => decidedStmts_zero
  | n + 1 =>
      let inner := decidedStmts n
      { statement := inner.statement_succ
        statements := inner.statements_succ
        block := inner.block_succ
        functionDecl := inner.functionDecl_succ
        whileStmt := inner.whileStmt_succ
        ifStmt := inner.ifStmt_succ
        doWhileStmt := inner.doWhileStmt_succ
        forEachStmt := inner.forEachStmt_succ
        forStmt := inner.forStmt_succ
        blockGivenUp := fun _ => givenUp_block_exprStmt inner.statements
        loopGivenUp := fun _ => givenUp_forEachStmt_forStmt inner.statement }

/-! ## Programs -/

theorem decided_fullStatement : Decided 0 0 p fullStatement := by
  refine Decided.of_bounds (fun n => (decidedStmts n).statement p) fun p' => ?_
  refine ⟨4 * p'.cursor.remaining + 2, fun m enough => ?_⟩
  refine agree_of_follows (tries_fullStatement rfl).follows
    ((followsStmts m).statement rfl enough).follows fun puts puts' => ?_
  exact Prod.mk.inj (puts.symm.trans puts')

/-- A statement that cannot be read leaves the reader where it began. -/
theorem attempt_fullStatement : attempt fullStatement = fullStatement := by
  funext p
  cases tries_fullStatement (p := p) rfl with
  | ok _ ran => rw [attempt_of_ok ran, ran]
  | error _ ran same =>
      subst same
      rw [attempt_of_error ran (Arena.le_refl _), ran]

theorem decided_wholeExpression : Decided 0 0 p wholeExpression := by
  refine decided_expression.andThen fun e p₁ => .kind ?_
  by_cases ends : p₁.cursor.kind = .endOfInput
  · rw [if_pos ends]
    exact (quiet_pure e).decided
  · rw [if_neg ends]
    exact decided_unexpected _

/-- Where one expression is left, reading a statement fails at the end of the input or before. -/
theorem givenUp_fullStatement : GivenUp p fullStatement wholeExpression := by
  intro rising error p₁ value p₂ fails ran
  obtain ⟨seen, -⟩ := (decided_fullStatement rising).fails fails
  obtain ⟨tokens, passes, depth⟩ := (decided_wholeExpression rising).passes ran
  have ends : p₂.cursor.kind = .endOfInput := by
    obtain ⟨e, p', -, rest⟩ := bind_eq_ok_iff.mp ran
    change (if p'.cursor.kind = .endOfInput then pure e else unexpected "end of input") p' = _
      at rest
    by_cases atEnd : p'.cursor.kind = .endOfInput
    · rw [if_pos atEnd] at rest
      cases rest
      exact atEnd
    · rw [if_neg atEnd] at rest
      cases rest
  refine seen.le_of_stuck rising passes ?_
  have last : p₂.cursor.current.kind = .endOfInput := ends
  rw [Token.depthAfter_append, depth]
  change Token.depthAfter 0 [p₂.cursor.current] = none
  rw [Token.depthAfter_cons, last]
  rfl

theorem decided_programBody (n : Nat) (p : Place) : Decided 0 0 p (programBody n) := by
  induction n generalizing p with
  | zero => exact decided_unexpected "statement"
  | succ n inductionHypothesis =>
      rw [programBody, ← attempt_fullStatement]
      refine .kind ?_
      by_cases ends : p.cursor.kind = .endOfInput
      · rw [if_pos ends]
        exact (quiet_pure _).decided
      · rw [if_neg ends]
        refine decided_fullStatement.orAttempt (fun first p₁ _ => ?_)
          (decided_wholeExpression.thenQuiet fun e => quiet_pure _) ?_
        · exact (inductionHypothesis p₁).thenQuiet fun rest => quiet_pure _
        · intro rising error p₁ value p₂ fails ran
          obtain ⟨e, p', whole, same⟩ := bind_eq_ok_iff.mp ran
          cases same
          exact givenUp_fullStatement rising _ _ _ _ fails whole

theorem decided_program : Decided 0 0 p program := by
  have body : Decided 0 0 p fun p => programBody (p.cursor.remaining + 1) p := by
    refine Decided.of_bounds (fun n => decided_programBody n p) fun p' => ?_
    refine ⟨p'.cursor.remaining + 1, fun m enough => ?_⟩
    have follows := follows_programBody (p'.cursor.remaining + 1) (p := p') rfl (Nat.le_refl _)
    refine agree_of_follows (follows.of_eq rfl) (follows_programBody m rfl enough)
      fun puts puts' => ?_
    exact Prod.mk.inj (puts.symm.trans puts')
  refine .span (body.thenQuiet fun read => ?_)
  refine (quiet_alloc (Arena.le_addStmtList read.1)).bind fun window => ?_
  exact (quiet_spanFrom _).bind fun span => quiet_pure _

theorem decided_loneExpression : Decided 0 0 p loneExpression :=
  .span <| decided_wholeExpression.thenQuiet fun _ => (quiet_spanFrom _).bind fun _ => quiet_pure _

end Formulae.Build
