import Formulae.Proofs.Arena.ExprForesight
import Formulae.Proofs.Arena.StmtFollows
import Formulae.Proofs.Parser.StmtChoice

/-!
# Forms that are given up

The forms of statements are tried one after the other.  Where one of them fits, every form before
it has failed, and no further on than where the statement ends: most fail at their first token, a
declaration fails at the latest behind a type and a name, and a block that is an array after all
fails before the brace that closes the array.
-/

namespace Formulae.Build

open Formulae.Parser (State)

variable {α β : Type} {a b n : Nat} {p p₁ p₂ : Place} {value : α}

/-! ## Statements without statements inside -/

theorem decided_condition : Decided 0 0 p condition :=
  (decided_mark rfl).andThen fun _ _ => decided_expression.andThen fun cond _ =>
    (decided_mark rfl).thenQuiet fun _ => quiet_pure cond

theorem decided_optionalBefore {close : Mark} (plain : (Token.Kind.mark close).depth 0 = some 0) :
    Decided 0 0 p (optionalBefore close) := by
  rw [optionalBefore]
  refine .kind ?_
  by_cases closes : p.cursor.kind = .mark close
  · rw [if_pos closes]
    exact (decided_mark plain).thenQuiet fun _ => quiet_pure none
  · rw [if_neg closes]
    exact decided_expression.andThen fun e _ =>
      (decided_mark plain).thenQuiet fun _ => quiet_pure (some e)

/-- What stands behind the name in the declaration of a variable. -/
def initSteps (start : Span) (binder : Binder) : Build Nat := do
  let _ ← mark .equal
  let init ← expression
  let _ ← mark .semicolon
  addStmt (.varDecl binder init) start

theorem decided_initSteps (start : Span) (binder : Binder) :
    Decided 0 0 p (initSteps start binder) :=
  (decided_mark rfl).andThen fun _ _ => decided_expression.andThen fun _ _ =>
    (decided_mark rfl).thenQuiet fun _ => quiet_addStmt _ _

theorem decided_varDecl : Decided 0 0 p varDecl :=
  .span (decided_binder.andThen fun binder _ => decided_initSteps _ binder)

theorem decided_returnStmt : Decided 0 0 p returnStmt :=
  .span <| (decided_keyword _).andThen fun _ _ =>
    (decided_optionalBefore rfl).thenQuiet fun _ => quiet_addStmt _ _

theorem decided_breakStmt : Decided 0 0 p breakStmt :=
  .span <| (decided_keyword _).andThen fun _ _ =>
    (decided_mark rfl).thenQuiet fun _ => quiet_addStmt _ _

theorem decided_continueStmt : Decided 0 0 p continueStmt :=
  .span <| (decided_keyword _).andThen fun _ _ =>
    (decided_mark rfl).thenQuiet fun _ => quiet_addStmt _ _

theorem decided_exprStmt : Decided 0 0 p exprStmt :=
  .span <| decided_expression.andThen fun _ _ =>
    (decided_mark rfl).thenQuiet fun _ => quiet_addStmt _ _

/-! ## Where a run ends -/

theorem Settled.passes {step : Build α} (settled : Settled a b p step)
    (ran : step p = .ok value p₁) : ∃ tokens, p.cursor.Passes tokens p₁.cursor ∧
      Token.depthAfter a tokens = some b := by
  cases settled with
  | error impossible => cases ran.symm.trans impossible
  | ok ran' _ passes depth _ =>
      cases ran.symm.trans ran'
      exact ⟨_, passes, depth⟩

theorem Settled.fails {step : Build α} {error : ParseError} (settled : Settled a b p step)
    (ran : step p = .error error p₁) : Seen p error ∧ p.arena ≤ p₁.arena := by
  cases settled with
  | ok impossible => cases ran.symm.trans impossible
  | error ran' grown seen _ =>
      cases ran.symm.trans ran'
      exact ⟨seen, grown⟩

theorem Decided.start_le {step : Build α} (decided : Decided a b p step)
    (rising : p.cursor.Rising) (ran : step p = .ok value p₁) :
    p.cursor.span.start ≤ p₁.cursor.span.start := by
  obtain ⟨tokens, passes, -⟩ := (decided rising).passes ran
  exact rising.start_le passes

theorem read_of_gives {rule : (s : State) → Parser.Outcome α s} {s' : State}
    (gives : Parser.Gives (rule p.state) value s') :
    read rule p = .ok value ⟨s'.cursor, p.arena⟩ := by
  obtain ⟨_, given⟩ := gives
  rw [read, given]

/-! ## Steps that fail at once -/

/-- Unless the next token is of such a kind, the step fails where it stands. -/
def Begins (first : Token.Kind → Prop) (step : Build α) : Prop :=
  ∀ p, ¬first p.cursor.kind → ∃ expected p₁, step p = .error (p.cursor.unexpected expected) p₁

namespace Begins

variable {first other : Token.Kind → Prop} {step : Build α} {later : Build β}

theorem mono (begins : Begins first step) (wider : ∀ kind, first kind → other kind) :
    Begins other step :=
  fun p unlike => begins p fun like => unlike (wider _ like)

theorem bind {next : α → Build β} (begins : Begins first step) : Begins first (step >>= next) := by
  intro p unlike
  obtain ⟨expected, p₁, fails⟩ := begins p unlike
  exact ⟨expected, p₁, bind_of_error fails⟩

theorem span {next : Span → Build α} (begins : ∀ start, Begins first (next start)) :
    Begins first (Build.span >>= next) :=
  fun p unlike => begins p.cursor.span p unlike

theorem unexpected (expected : String) : Begins first (unexpected expected : Build α) :=
  fun p _ => ⟨expected, p, rfl⟩

theorem mark (mark : Mark) : Begins (· = .mark mark) (Build.mark mark) :=
  fun p unlike => ⟨_, p, mark_of_ne unlike⟩

theorem keyword (word : Keyword) : Begins (· = .keyword word) (Build.keyword word) :=
  fun p unlike => ⟨_, p, keyword_of_ne unlike⟩

theorem of_ok (begins : Begins first step) (ran : step p = .ok value p₁) :
    first p.cursor.kind := by
  by_contra unlike
  obtain ⟨expected, _, fails⟩ := begins p unlike
  cases ran.symm.trans fails

/-- A form is given up at its first token if the form that fits begins otherwise. -/
theorem givenUp (begins : Begins first step) (decided : Decided a b p later)
    (begins' : ∀ value p₂, later p = .ok value p₂ → other p.cursor.kind)
    (apart : ∀ kind, first kind → ¬other kind) : GivenUp p step later := by
  intro rising error p₁ value p₂ fails ran
  obtain ⟨expected, _, fails'⟩ := begins p fun like => apart _ like (begins' value p₂ ran)
  cases fails.symm.trans fails'
  exact decided.start_le rising ran

end Begins

/-- A type starts with a token of this kind. -/
def opensType (kind : Token.Kind) : Prop :=
  kind.isTypeWord ∨ ∃ name, kind = .ident name

/-- A declaration of a variable starts with a token of this kind. -/
def opensBinder (kind : Token.Kind) : Prop :=
  opensType kind ∨ kind = .keyword .mutWord ∨ kind = .keyword .varWord

theorem not_opensBinder_mark (mark : Mark) : ¬opensBinder (.mark mark) := by
  rintro ((word | ⟨name, isName⟩) | isMut | isVar)
  · cases word
  · cases isName
  · cases isMut
  · cases isVar

theorem begins_typeExpr : Begins opensType (read Parser.typeExpr) := by
  intro p unlike
  have fails : Parser.typeExpr p.state = .error (p.state.unexpected "type") := by
    rw [Parser.typeExpr]
    split
    · next word found =>
        change p.cursor.kind = _ at found
        exact absurd (.inl (by rw [found]; rfl)) unlike
    · next name found => exact absurd (.inr ⟨name, found⟩) unlike
    · next found =>
        change p.cursor.kind = _ at found
        exact absurd (.inl (by rw [found]; rfl)) unlike
    · rfl
  exact ⟨"type", p, by rw [read, fails]; rfl⟩

/-! ## Declarations and expressions -/

theorem binderSteps_of_ne (notMut : p.cursor.kind ≠ .keyword .mutWord)
    (notVar : p.cursor.kind ≠ .keyword .varWord) : binderSteps p =
      (read Parser.typeExpr >>= fun written => read Parser.expectIdent >>= fun name =>
        pure ⟨false, some written, name⟩ : Build Binder) p := by
  rw [binderSteps, bind_of_ok (eat_of_ne notMut), namedSteps, bind_of_ok (eat_of_ne notVar)]
  rfl

theorem begins_binder : Begins opensBinder (read Parser.binder) := by
  intro p unlike
  obtain ⟨expected, p₁, fails⟩ := begins_typeExpr p fun like => unlike (.inl like)
  have steps : binderSteps p = .error (p.cursor.unexpected expected) p₁ := by
    rw [binderSteps_of_ne (fun isMut => unlike (.inr (.inl isMut)))
      fun isVar => unlike (.inr (.inr isVar))]
    exact bind_of_error fails
  obtain ⟨p₂, fails', -⟩ := (agree_binder p).error_iff.mpr ⟨p₁, steps⟩
  exact ⟨expected, p₂, fails'⟩

theorem gives_of_exprStmt {id : Nat} (ran : exprStmt p = .ok id p₂) :
    ∃ stmt, Parser.Gives (Parser.exprStmt p.state) stmt p₂.state := by
  cases follows_exprStmt (p := p) rfl with
  | error _ fails => cases ran.symm.trans fails
  | ok gives ran' state =>
      cases ran.symm.trans ran'
      rw [state]
      exact ⟨_, Parser.gives_of_eq_ok gives⟩

theorem opensExpr_of_exprStmt {id : Nat} (ran : exprStmt p = .ok id p₂) :
    p.cursor.kind.opensExpr := by
  obtain ⟨stmt, gives⟩ := gives_of_exprStmt ran
  rcases Parser.gives_exprStmt.mp gives with ⟨e, s₁, read, -⟩
  exact Parser.opensExpr_of_gives read

/-- An expression statement takes up a token, and it closes the braces that it opens. -/
theorem passes_of_exprStmt (rising : p.cursor.Rising) {id : Nat} (ran : exprStmt p = .ok id p₂) :
    ∃ rest, p.cursor.Passes (p.cursor.current :: rest) p₂.cursor ∧
      Token.depthAfter 0 (p.cursor.current :: rest) = some 0 := by
  obtain ⟨tokens, passes, depth⟩ := (decided_exprStmt rising).passes ran
  obtain ⟨stmt, gives⟩ := gives_of_exprStmt ran
  have shorter := gives.remaining_lt
  change p₂.cursor.ahead.length < p.cursor.ahead.length at shorter
  cases tokens with
  | nil => simp [passes.ahead] at shorter
  | cons token rest =>
      have first : p.cursor.current = token := by
        rw [Cursor.current, passes.ahead]
        rfl
      rw [first]
      exact ⟨rest, passes, depth⟩

/-- What is read as an expression statement is read as no type with a name behind it, and that is
seen before the statement ends. -/
theorem untyped_of_exprStmt (rising : p.cursor.Rising) {id : Nat} (ran : exprStmt p = .ok id p₂)
    (next : TypeExpr → String → Build β) : ∃ error p₁,
      (read Parser.typeExpr >>= fun type => read Parser.expectIdent >>= next type) p
        = .error error p₁ ∧ error.position ≤ p₂.cursor.span.start := by
  obtain ⟨rest, passes, -⟩ := passes_of_exprStmt rising ran
  obtain ⟨stmt, gives⟩ := gives_of_exprStmt ran
  rcases Parser.gives_exprStmt.mp gives with ⟨e, s₁, expression, semicolon, -⟩
  have nothing := Parser.namesNothing_of_gives expression (by simp [semicolon])
  by_cases isName : ∃ name, p.cursor.kind = .ident name
  · obtain ⟨name, isName⟩ := isName
    obtain ⟨type, s₂, type'⟩ : ∃ type s₂, Parser.Gives (Parser.typeExpr p.state) type s₂ :=
      ⟨_, _, (Parser.gives_typeExpr_named (s := p.state) isName).mpr ⟨rfl, rfl⟩⟩
    obtain ⟨-, rfl⟩ := Parser.name_of_expression_and_type expression type'
    have fails := ident_of_ne (p := ⟨p.cursor.advance, p.arena⟩) fun name named =>
      nothing type _ type' name named
    refine ⟨_, _, (bind_of_ok (read_of_gives type')).trans (bind_of_error fails), ?_⟩
    have real : p.cursor.kind ≠ .endOfInput := by simp [isName]
    have rising' := rising.of_passes (Cursor.Passes.one real)
    exact rising'.start_le ((Cursor.Passes.one real).rest passes)
  · have unlike : ¬opensType p.cursor.kind := by
      rintro (word | named)
      · have noWord := Token.Kind.isTypeWord_of_opensExpr (opensExpr_of_exprStmt ran)
        exact Bool.noConfusion (noWord.symm.trans word)
      · exact isName named
    obtain ⟨expected, p₁, fails⟩ := begins_typeExpr p unlike
    exact ⟨_, p₁, bind_of_error fails, rising.start_le passes⟩

theorem unbound_of_exprStmt (rising : p.cursor.Rising) {id : Nat} (ran : exprStmt p = .ok id p₂) :
    ∃ error p₁, read Parser.binder p = .error error p₁ ∧
      error.position ≤ p₂.cursor.span.start := by
  have opens := opensExpr_of_exprStmt ran
  obtain ⟨error, p₁, fails, nearer⟩ := untyped_of_exprStmt rising ran
    fun written name => (pure ⟨false, some written, name⟩ : Build Binder)
  have steps : binderSteps p = .error error p₁ := by
    rw [binderSteps_of_ne]
    · exact fails
    · intro isMut
      rw [isMut] at opens
      cases opens
    · intro isVar
      rw [isVar] at opens
      cases opens
  obtain ⟨p₃, fails', -⟩ := (agree_binder p).error_iff.mpr ⟨p₁, steps⟩
  exact ⟨error, p₃, fails', nearer⟩

/-- A variable that is declared has an equals sign behind what it is bound by. -/
theorem bound_of_varDecl (rising : p.cursor.Rising) {id : Nat} (ran : varDecl p = .ok id p₂) :
    ∃ binder p₁, read Parser.binder p = .ok binder p₁ ∧ p₁.cursor.kind = .mark .equal ∧
      p₁.cursor.span.start ≤ p₂.cursor.span.start := by
  have ran' : (read Parser.binder >>= initSteps p.cursor.span) p = .ok id p₂ := ran
  obtain ⟨binder, p₁, bound, rest⟩ := bind_eq_ok_iff.mp ran'
  obtain ⟨tokens, passes, -⟩ := (decided_binder rising).passes bound
  have equal := (Begins.mark .equal).bind.of_ok rest
  exact ⟨binder, p₁, bound, equal, (decided_initSteps _ binder).start_le
    (rising.of_passes passes) rest⟩

/-- What stands behind the name in the declaration of a function. -/
def functionSteps (n : Nat) (start : Span) (ret : TypeExpr) (name : String) : Build Nat := do
  let _ ← mark .leftParen
  let list ← read Parser.params
  let _ ← mark .leftBrace
  let stmts ← statements n
  let body ← alloc (Arena.addStmtList stmts)
  let params ← alloc (Arena.addParams list)
  addStmt (.function ret name params body) start

theorem functionDecl_eq (n : Nat) (p : Place) : functionDecl (n + 1) p =
    (read Parser.typeExpr >>= fun ret => read Parser.expectIdent >>= fun name =>
      functionSteps n p.cursor.span ret name) p := by
  rw [functionDecl]
  rfl

theorem begins_functionDecl (n : Nat) : Begins opensType (functionDecl n) := by
  cases n with
  | zero =>
      rw [functionDecl]
      exact .unexpected "statement"
  | succ n =>
      rw [functionDecl]
      exact .span fun _ => begins_typeExpr.bind

theorem givenUp_varDecl_exprStmt : GivenUp p varDecl exprStmt := by
  intro rising error p₁ value p₂ fails ran
  obtain ⟨error', p₁', unbound, nearer⟩ := unbound_of_exprStmt rising ran
  have fails' : varDecl p = .error error' p₁' :=
    (bind_of_error unbound : (read Parser.binder >>= initSteps p.cursor.span) p = _)
  cases fails.symm.trans fails'
  exact nearer

theorem givenUp_functionDecl_exprStmt (n : Nat) : GivenUp p (functionDecl n) exprStmt := by
  intro rising error p₁ value p₂ fails ran
  cases n with
  | zero =>
      rw [functionDecl] at fails
      cases fails
      exact decided_exprStmt.start_le rising ran
  | succ n =>
      obtain ⟨error', p₁', untyped, nearer⟩ :=
        untyped_of_exprStmt rising ran (functionSteps n p.cursor.span)
      cases fails.symm.trans ((functionDecl_eq n p).trans untyped)
      exact nearer

/-- A function that turns out to be a variable fails at the equals sign. -/
theorem givenUp_functionDecl_varDecl (n : Nat) : GivenUp p (functionDecl n) varDecl := by
  intro rising error p₁ value p₂ fails ran
  have later := decided_varDecl.start_le rising ran
  by_cases typed : opensType p.cursor.kind
  · cases n with
    | zero =>
        rw [functionDecl] at fails
        cases fails
        exact later
    | succ n =>
        obtain ⟨binder, q, bound, equal, nearer⟩ := bound_of_varDecl rising ran
        have steps := (agree_binder p).ok_iff.mp bound
        rw [binderSteps_of_ne] at steps
        · obtain ⟨type, r, typed', rest⟩ := bind_eq_ok_iff.mp steps
          obtain ⟨name, r', named, same⟩ := bind_eq_ok_iff.mp rest
          cases same
          have unlike : q.cursor.kind ≠ .mark .leftParen := by simp [equal]
          have stuck : functionSteps n p.cursor.span type name q = .error _ q :=
            bind_of_error (mark_of_ne unlike)
          rw [functionDecl_eq, bind_of_ok typed', bind_of_ok named] at fails
          cases fails.symm.trans stuck
          exact nearer
        all_goals
          intro isKeyword
          rw [isKeyword] at typed
          rcases typed with word | ⟨name, isName⟩
          · cases word
          · cases isName
  · obtain ⟨expected, p₁', fails'⟩ := begins_functionDecl n p typed
    cases fails.symm.trans fails'
    exact later

/-! ## Loop headers -/

theorem decided_forInit : Decided 0 0 p forInit := by
  rw [forInit]
  refine .eat (fun closes => ?_) fun _ => ?_
  · refine .pass (by rw [closes]; rfl) ?_
    exact (quiet_pure none).decided
  · have either : Decided 0 0 p (orAttempt (attempt varDecl) pure exprStmt) :=
      .orAttempt decided_varDecl (fun id _ _ => (quiet_pure id).decided) decided_exprStmt
        givenUp_varDecl_exprStmt
    exact either.thenQuiet fun init => quiet_pure (some init)

/-- What stands behind the name in the header of a loop over elements. -/
def elementSteps (n : Nat) (start : Span) (binder : Binder) : Build Nat := do
  let _ ← mark .colon
  let iterable ← expression
  let _ ← mark .rightParen
  let body ← statement n
  addStmt (.forEach binder iterable body) start

/-- What stands behind the first semicolon in the header of a loop. -/
def loopSteps (n : Nat) (start : Span) (init : Option Nat) : Build Nat := do
  let cond ← optionalBefore .semicolon
  let step ← optionalBefore .rightParen
  let body ← statement n
  addStmt (.forLoop init cond step body) start

/-- The start of a loop with a counter is read as no start of a loop over elements, and that is
seen before the first semicolon. -/
theorem uncolon_of_forInit (rising : p.cursor.Rising) {init : Option Nat}
    (ran : forInit p = .ok init p₂) (n : Nat) (start : Span) : ∃ error p₁,
      (read Parser.binder >>= elementSteps n start) p = .error error p₁ ∧
        error.position ≤ p₂.cursor.span.start := by
  have ran' : (eat (.mark .semicolon) >>= fun eaten => if eaten then pure none else
      orAttempt (attempt varDecl) pure exprStmt >>= fun init => pure (some init)) p =
        .ok init p₂ := ran
  by_cases closes : p.cursor.kind = .mark .semicolon
  · have unlike : ¬opensBinder p.cursor.kind := by
      rw [closes]
      exact not_opensBinder_mark _
    obtain ⟨expected, p₁, fails⟩ := begins_binder p unlike
    exact ⟨_, p₁, bind_of_error fails, decided_forInit.start_le rising ran⟩
  · rw [bind_of_ok (eat_of_ne closes)] at ran'
    obtain ⟨id, q, either, same⟩ := bind_eq_ok_iff.mp ran'
    cases same
    rcases orAttempt_eq_ok decided_varDecl decided_exprStmt rising either with declared | evaluated
    · obtain ⟨binder, q', bound, equal, nearer⟩ := bound_of_varDecl rising declared
      have unlike : q'.cursor.kind ≠ .mark .colon := by simp [equal]
      have stuck : elementSteps n start binder q' = .error _ q' :=
        bind_of_error (mark_of_ne unlike)
      exact ⟨_, q', (bind_of_ok bound).trans stuck, nearer⟩
    · obtain ⟨error, q', unbound, nearer⟩ := unbound_of_exprStmt rising evaluated
      exact ⟨error, q', bind_of_error unbound, nearer⟩

/-! ## Statements with statements inside -/

/-- An error that is seen before braces are closed that were open already, or before the end of the
input is passed, lies no further on than where that would be. -/
theorem Seen.le_of_stuck {error : ParseError} {tokens : List Token} {c : Cursor}
    (seen : Seen p error) (rising : p.cursor.Rising) (passes : p.cursor.Passes tokens c)
    (stuck : Token.depthAfter 0 (tokens ++ [c.current]) = none) :
    error.position ≤ c.span.start := by
  obtain ⟨more, c', passes', found, depth, seen⟩ := seen
  rw [ParseError.position, found]
  have both := passes'.upcoming.symm.trans passes.upcoming
  rcases List.append_eq_append_iff.mp both with ⟨between, rfl, -⟩ | ⟨beyond, rfl, behind⟩
  · exact (rising.of_passes passes').start_le (passes'.rest passes)
  · cases beyond with
    | nil =>
        rw [List.append_nil] at passes'
        have same : (tokens ++ []) = tokens := List.append_nil tokens
        exact (rising.of_passes passes').start_le (passes'.rest (same.symm ▸ passes))
    | cons token rest =>
        rw [c.upcoming_eq_cons] at behind
        obtain rfl := (List.cons.inj behind).1
        rw [List.append_cons, Token.depthAfter_append, stuck] at seen
        cases seen

/-- What stands behind the brace that opens a block. -/
def blockSteps (n : Nat) (start : Span) : Build Nat := do
  let stmts ← statements n
  let body ← alloc (Arena.addStmtList stmts)
  addStmt (.block body) start

theorem block_eq (n : Nat) (p : Place) :
    block (n + 1) p = (mark .leftBrace >>= fun _ => blockSteps n p.cursor.span) p := by
  rw [block]
  rfl

theorem decided_blockSteps (inner : ∀ p, Decided 1 0 p (statements n)) (start : Span) :
    Decided 1 0 p (blockSteps n start) :=
  (inner p).thenQuiet fun stmts => (quiet_alloc (Arena.le_addStmtList stmts)).bind fun _ =>
    quiet_addStmt _ _

theorem begins_block (n : Nat) : Begins (· = .mark .leftBrace) (block n) := by
  cases n with
  | zero =>
      rw [block]
      exact .unexpected "statement"
  | succ n =>
      rw [block]
      exact .span fun _ => (Begins.mark .leftBrace).bind

/-- Where a brace opens an array, reading a block fails before the array is closed. -/
theorem givenUp_block_exprStmt (inner : ∀ p, Decided 1 0 p (statements n)) :
    GivenUp p (block (n + 1)) exprStmt := by
  intro rising error p₁ value p₂ fails ran
  by_cases brace : p.cursor.kind = .mark .leftBrace
  · obtain ⟨rest, passes, depth⟩ := passes_of_exprStmt rising ran
    have one := Cursor.Passes.one (by simp [brace] : p.cursor.kind ≠ .endOfInput)
    have closed : Token.depthAfter 1 rest = some 0 := by
      have first : p.cursor.current.kind = .mark .leftBrace := brace
      rw [Token.depthAfter_cons, first] at depth
      exact depth
    -- The brace that closes the array is not one that was opened inside of it.
    have stuck : Token.depthAfter 0 rest = none := by
      cases within : Token.depthAfter 0 rest with
      | none => rfl
      | some depth =>
          have lifted := Token.depthAfter_lift within 1
          rw [Nat.zero_add, closed] at lifted
          cases lifted
    rw [block_eq, bind_of_ok (mark_of_kind brace)] at fails
    have rising' := rising.of_passes one
    obtain ⟨seen, -⟩ := (decided_blockSteps inner p.cursor.span rising').fails fails
    refine seen.le_of_stuck rising' (one.rest passes) ?_
    rw [Token.depthAfter_append, stuck]
    rfl
  · obtain ⟨expected, _, fails'⟩ := begins_block (n + 1) p brace
    cases fails.symm.trans fails'
    exact decided_exprStmt.start_le rising ran

theorem decided_elementSteps (inner : ∀ p, Decided 0 0 p (statement n)) (start : Span)
    (binder : Binder) : Decided 0 0 p (elementSteps n start binder) := by
  refine (decided_mark rfl).andThen fun _ _ => decided_expression.andThen fun _ _ => ?_
  refine (decided_mark rfl).andThen fun _ p₁ => ?_
  exact (inner p₁).thenQuiet fun _ => quiet_addStmt _ _

theorem decided_loopSteps (inner : ∀ p, Decided 0 0 p (statement n)) (start : Span)
    (init : Option Nat) : Decided 0 0 p (loopSteps n start init) := by
  refine (decided_optionalBefore rfl).andThen fun _ _ => ?_
  refine (decided_optionalBefore rfl).andThen fun _ p₁ => ?_
  exact (inner p₁).thenQuiet fun _ => quiet_addStmt _ _

theorem forEachStmt_eq (n : Nat) (p : Place) : forEachStmt (n + 1) p =
    (keyword .forWord >>= fun _ => mark .leftParen >>= fun _ =>
      read Parser.binder >>= elementSteps n p.cursor.span) p := by
  rw [forEachStmt]
  rfl

theorem forStmt_eq (n : Nat) (p : Place) : forStmt (n + 1) p =
    (keyword .forWord >>= fun _ => mark .leftParen >>= fun _ =>
      forInit >>= loopSteps n p.cursor.span) p := by
  rw [forStmt]
  rfl

/-- A loop over elements that turns out to be one with a counter fails before the first
semicolon. -/
theorem givenUp_forEachStmt_forStmt (inner : ∀ p, Decided 0 0 p (statement n)) :
    GivenUp p (forEachStmt (n + 1)) (forStmt (n + 1)) := by
  intro rising error p₁ value p₂ fails ran
  rw [forStmt_eq] at ran
  obtain ⟨first, q, word, ran⟩ := bind_eq_ok_iff.mp ran
  obtain ⟨second, q', paren, ran⟩ := bind_eq_ok_iff.mp ran
  obtain ⟨init, q'', header, ran⟩ := bind_eq_ok_iff.mp ran
  rw [forEachStmt_eq, bind_of_ok word, bind_of_ok paren] at fails
  obtain ⟨_, passes, -⟩ := (decided_keyword (a := 0) .forWord rising).passes word
  have rising₁ := rising.of_passes passes
  obtain ⟨_, passes', -⟩ := (decided_mark (a := 0) (b := 0) rfl rising₁).passes paren
  have rising₂ := rising₁.of_passes passes'
  obtain ⟨error', _, fails', nearer⟩ := uncolon_of_forInit rising₂ header n p.cursor.span
  cases fails.symm.trans fails'
  obtain ⟨_, passes'', -⟩ := (decided_forInit rising₂).passes header
  have later := (decided_loopSteps inner _ init).start_le (rising₂.of_passes passes'') ran
  exact Nat.le_trans nearer later

end Formulae.Build
