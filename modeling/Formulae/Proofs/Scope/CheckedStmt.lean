import Formulae.Proofs.Scope.Checked

/-!
# Checked statements

A statement makes its declaration in the innermost scope and in the environment at
once (`Stmt.Checked`).  Where checking opens an environment inside another one, a scope
is entered, except that a loop over elements has one scope for its variable and its
body, and checking has two environments.
-/

namespace Formulae

open Check Typing

variable {globals env : TypeEnv} {hosts : String → Bool}

namespace Expr

/-- The uses of names in the expression are checked in all scopes that the environment
models. -/
def UsesCheckedIn (globals : TypeEnv) (hosts : String → Bool) (env : TypeEnv) (e : TypedExpr) :
    Prop :=
  ∀ scope : Scope, scope.Models globals env → e.UsesChecked globals hosts scope

/-- The uses of names in an expression that may be missing are checked. -/
def UsesCheckedOption (globals : TypeEnv) (hosts : String → Bool) (env : TypeEnv)
    (e : Option TypedExpr) : Prop :=
  ∀ scope : Scope, scope.Models globals env →
    ∀ r ∈ Expr.resolutionsOption hosts scope e, r.Checked globals hosts

end Expr

namespace Stmt

/-- A checked statement: it declares the same functions, the uses of names in it are
checked, and the environment after it is that of the scopes after it. -/
structure Checked (globals : TypeEnv) (hosts : String → Bool) (env : TypeEnv) (s : Stmt Unit)
    (typed : TypedStmt) (next : TypeEnv) : Prop where
  functions : typed.functions.map Prod.fst = s.functions.map Prod.fst
  uses : ∀ scope : Scope, scope ≠ [] → scope.Models globals env →
    ∀ r ∈ typed.resolutions hosts scope, r.Checked globals hosts
  after : ∀ scope : Scope, scope ≠ [] → scope.Models globals env →
    (typed.after scope).Models globals next

/-- Checked statements in turn. -/
structure CheckedAll (globals : TypeEnv) (hosts : String → Bool) (env : TypeEnv)
    (stmts : List (Stmt Unit)) (typed : List TypedStmt) (next : TypeEnv) : Prop where
  functions : (functionsAll typed).map Prod.fst = (functionsAll stmts).map Prod.fst
  uses : ∀ scope : Scope, scope ≠ [] → scope.Models globals env →
    ∀ r ∈ resolutionsAll hosts scope typed, r.Checked globals hosts
  after : ∀ scope : Scope, scope ≠ [] → scope.Models globals env →
    (afterAll scope typed).Models globals next

/-- A checked branch that may be missing. -/
structure CheckedBranch (globals : TypeEnv) (hosts : String → Bool) (env : TypeEnv)
    (s : Option (Stmt Unit)) (typed : Option TypedStmt) : Prop where
  functions : (functionsOption typed).map Prod.fst = (functionsOption s).map Prod.fst
  uses : ∀ scope : Scope, scope ≠ [] → scope.Models globals env →
    ∀ r ∈ resolutionsBranch hosts scope typed, r.Checked globals hosts

/-- A checked first part of a loop. -/
structure CheckedInit (globals : TypeEnv) (hosts : String → Bool) (env : TypeEnv)
    (s : Option (Stmt Unit)) (typed : Option TypedStmt) (next : TypeEnv) : Prop where
  functions : (functionsOption typed).map Prod.fst = (functionsOption s).map Prod.fst
  uses : ∀ scope : Scope, scope ≠ [] → scope.Models globals env →
    ∀ r ∈ resolutionsOption hosts scope typed, r.Checked globals hosts
  after : ∀ scope : Scope, scope ≠ [] → scope.Models globals env →
    (afterAll scope typed.toList).Models globals next

end Stmt

namespace Scope

theorem enter_ne_nil (declarations : List Declaration) (scope : Scope) :
    scope.enter declarations ≠ [] :=
  nofun

theorem declare_ne_nil {scope : Scope} (inside : scope ≠ []) (declaration : Declaration) :
    scope.declare declaration ≠ [] := by
  cases scope with
  | nil => exact absurd rfl inside
  | cons frame outer => exact nofun

theorem declareAll_ne_nil {scope : Scope} (inside : scope ≠ [])
    (declarations : List Declaration) : scope.declareAll declarations ≠ [] := by
  induction declarations generalizing scope with
  | nil => exact inside
  | cons declaration rest inductionHypothesis =>
      exact inductionHypothesis (declare_ne_nil inside declaration)

theorem after_ne_nil {scope : Scope} (inside : scope ≠ []) (s : TypedStmt) :
    s.after scope ≠ [] :=
  declareAll_ne_nil inside _

end Scope

namespace Typing

/-! ## Expressions in statements -/

theorem meets_expr (env : TypeEnv) (e : Expr Unit) :
    Meets (e.check env) (Expr.UsesCheckedIn globals hosts env) fun _ => True :=
  meets_forall fun _ => meets_forall fun models => checks_expr models e

theorem meets_checkValue (env : TypeEnv) (e : Expr Unit) :
    Meets (e.checkValue env) (Expr.UsesCheckedIn globals hosts env) fun _ => True :=
  meets_forall fun _ => meets_forall fun models =>
    (checks_expr models e).bind fun _ checked => checks_requireValue checked

theorem meets_checkValueOption (env : TypeEnv) (e : Option (Expr Unit)) :
    Meets (Expr.checkValueOption env e) (Expr.UsesCheckedOption globals hosts env)
      fun _ => True := by
  cases e with
  | none => exact meets_pure fun _ _ => nofun
  | some e =>
      apply (meets_checkValue env e).bind
      exact fun value checked => meets_pure fun scope models => (checked scope models).value

theorem meets_checkOption (env : TypeEnv) (e : Option (Expr Unit)) :
    Meets (Expr.checkOption env e) (Expr.UsesCheckedOption globals hosts env)
      fun _ => True := by
  cases e with
  | none => exact meets_pure fun _ _ => nofun
  | some e =>
      apply (meets_expr env e).bind
      exact fun value checked => meets_pure fun scope models => (checked scope models).value

theorem meets_coerce (fit : Fit) (target : Ty) {e : TypedExpr}
    (checked : e.UsesCheckedIn globals hosts env) :
    Meets (coerce fit target e) (Expr.UsesCheckedIn globals hosts env) fun _ => True :=
  meets_forall fun scope => meets_forall fun models => checks_coerce (checked scope models) _ _

/-! ## Declarations -/

theorem meets_declare (env : TypeEnv) (name : String) (type : Ty) (span : Span) :
    Meets (declare env name type span) (fun after => after = env.bind name type)
      fun _ => True := by
  unfold declare
  cases declared : env.declare? name type with
  | none => exact meets_fail trivial
  | some after =>
      unfold TypeEnv.declare? at declared
      split at declared
      · cases declared
      · cases declared
        exact meets_pure rfl

theorem meets_initial (binder : Binder) (node : StmtNode) {value : TypedExpr}
    (checked : value.UsesCheckedIn globals hosts env) :
    Meets (initial binder.type value)
      (fun typed => typed.1.UsesCheckedIn globals hosts env ∧
        (binder.declaration node typed.1.label).type = typed.2.withFinal !binder.mutable)
      fun _ => True := by
  unfold Binder.declaration
  cases binder.type with
  | none => exact meets_pure ⟨checked, rfl⟩
  | some written =>
      apply (meets_coerce .castable (Ty.ofExpr written) checked).bind
      exact fun typed typedChecked => meets_pure ⟨typedChecked, rfl⟩

theorem meets_declareParams (env : TypeEnv) (span : Span) (function position : Nat)
    (params : List Param) :
    Meets (declareParams span env params)
      (fun inner => ∀ scope : Scope, scope ≠ [] → scope.Models globals env →
        (scope.declareAll (Param.declarations function position params)).Models globals inner)
      fun _ => True := by
  induction params generalizing env position with
  | nil => exact meets_pure fun _ _ models => models
  | cons param rest inductionHypothesis =>
      rw [declareParams]
      apply (meets_declare env _ _ _).bind
      rintro _ rfl
      apply (inductionHypothesis _ (position + 1)).mono ?_ fun _ _ => trivial
      intro inner models scope inside outer
      exact models _ (Scope.declare_ne_nil inside _) (outer.declare inside ⟨_, _, param.name, _⟩)

theorem meets_elementType (iterable : TypedExpr) :
    Meets (elementType iterable) (fun element => element = iterable.label.element)
      fun _ => True := by
  unfold elementType Ty.element
  split
  · next same =>
      rw [same]
      exact meets_pure rfl
  · next same =>
      rw [same]
      exact meets_pure rfl
  · exact meets_fail trivial

theorem meets_itemType (binder : Binder) (node : StmtNode) (element : Ty) (span : Span) :
    Meets (itemType binder.type element span)
      (fun type => (binder.declaration node element).type = type.withFinal !binder.mutable)
      fun _ => True := by
  unfold Binder.declaration
  cases binder.type with
  | none => exact meets_pure rfl
  | some written =>
      simp only [itemType]
      split
      · exact meets_pure rfl
      · exact meets_fail trivial

/-! ## Statements -/

theorem checked_of_uses {s : Stmt Unit} {typed : TypedStmt}
    (functions : typed.functions.map Prod.fst = s.functions.map Prod.fst)
    (declaresNothing : typed.declaration? = none)
    (uses : ∀ scope : Scope, scope ≠ [] → scope.Models globals env →
      ∀ r ∈ typed.resolutions hosts scope, r.Checked globals hosts) :
    s.Checked globals hosts env typed env where
  functions := functions
  uses := uses
  after scope inside models := by
    rw [Stmt.after, declaresNothing]
    exact models

mutual

theorem meets_stmt (around : Surroundings) (env : TypeEnv) :
    ∀ s : Stmt Unit, Meets (s.check around env)
      (fun typed => s.Checked globals hosts env typed.1 typed.2) fun _ => True
  | .expr node e => by
      rw [Stmt.check]
      apply (meets_expr env e).bind
      intro typed checked
      exact meets_pure (checked_of_uses rfl rfl fun scope _ models => (checked scope models).value)
  | .varDecl node binder init => by
      rw [Stmt.check]
      apply (meets_checkValue env init).bind
      intro value checked
      apply (meets_initial binder node checked).bind
      rintro ⟨typed, type⟩ ⟨typedChecked, same⟩
      apply (meets_declare env _ _ _).bind
      rintro _ rfl
      apply meets_pure
      refine ⟨rfl, fun scope _ models => (typedChecked scope models).value, ?_⟩
      intro scope inside models
      rw [← same]
      exact models.declare inside (binder.declaration node typed.label)
  | .ret node none => by
      rw [Stmt.check]
      apply (meets_rule _).bind
      exact fun _ _ => meets_pure (checked_of_uses rfl rfl fun _ _ _ => nofun)
  | .ret node (some e) => by
      rw [Stmt.check]
      apply (meets_checkValue env e).bind
      intro value checked
      have returnedChecked : Meets (returned around.returns value)
          (Expr.UsesCheckedIn globals hosts env) fun _ => True := by
        cases around.returns with
        | none => exact meets_pure checked
        | some expected => exact meets_coerce .accepted expected checked
      apply returnedChecked.bind
      intro typed typedChecked
      exact meets_pure
        (checked_of_uses rfl rfl fun scope _ models => (typedChecked scope models).value)
  | .ifElse node cond thenBranch elseBranch => by
      rw [Stmt.check]
      apply (meets_checkValue env cond).bind
      intro c condChecked
      apply (meets_stmt around env.child thenBranch).bind
      rintro ⟨x, _⟩ thenChecked
      apply (meets_branch around env elseBranch).bind
      intro y elseChecked
      apply meets_pure
      apply checked_of_uses
      · simp only [Stmt.functions, List.map_append, thenChecked.functions, elseChecked.functions]
      · rfl
      · intro scope inside models r member
        rw [Stmt.resolutions, List.mem_append, List.mem_append] at member
        rcases member with (member | member) | member
        · exact (condChecked scope models).value r member
        · exact thenChecked.uses _ (Scope.enter_ne_nil _ _) (models.child.enter _) r member
        · exact elseChecked.uses scope inside models r member
  | .whileLoop node cond body => by
      rw [Stmt.check]
      apply (meets_checkValue env cond).bind
      intro c condChecked
      apply (meets_stmt around.loopBody env.child body).bind
      rintro ⟨x, _⟩ bodyChecked
      apply meets_pure
      apply checked_of_uses (by exact bodyChecked.functions) rfl
      intro scope inside models r member
      rw [Stmt.resolutions, List.mem_append] at member
      rcases member with member | member
      · exact (condChecked scope models).value r member
      · exact bodyChecked.uses _ (Scope.enter_ne_nil _ _) (models.child.enter _) r member
  | .doWhile node body cond => by
      rw [Stmt.check]
      apply (meets_checkValue env cond).bind
      intro c condChecked
      apply (meets_stmt around.loopBody env.child body).bind
      rintro ⟨x, _⟩ bodyChecked
      apply meets_pure
      apply checked_of_uses (by exact bodyChecked.functions) rfl
      intro scope inside models r member
      rw [Stmt.resolutions, List.mem_append] at member
      rcases member with member | member
      · exact (condChecked scope models).value r member
      · exact bodyChecked.uses _ (Scope.enter_ne_nil _ _) (models.child.enter _) r member
  | .forLoop node init cond step body => by
      rw [Stmt.check]
      apply (meets_init around env.child init).bind
      rintro ⟨i, inner⟩ initChecked
      apply (meets_checkValueOption inner cond).bind
      intro c condChecked
      apply (meets_checkOption inner step).bind
      intro n stepChecked
      apply (meets_stmt around.loopBody inner.child body).bind
      rintro ⟨x, _⟩ bodyChecked
      apply meets_pure
      apply checked_of_uses
      · simp only [Stmt.functions, List.map_append, initChecked.functions, bodyChecked.functions]
      · rfl
      · intro scope inside models r member
        have entered := Scope.enter_ne_nil (Stmt.declarationOption i) scope
        have innerModels := initChecked.after _ entered (models.child.enter _)
        simp only [Stmt.resolutions, List.mem_append] at member
        rcases member with ((member | member) | member) | member
        · exact initChecked.uses _ entered (models.child.enter _) r member
        · exact condChecked _ innerModels r member
        · exact stepChecked _ innerModels r member
        · exact bodyChecked.uses _ (Scope.enter_ne_nil _ _) (innerModels.child.enter _) r member
  | .forEach node binder iterable body => by
      rw [Stmt.check]
      apply (meets_checkValue env iterable).bind
      intro xs iterableChecked
      apply (meets_elementType xs).bind
      rintro _ rfl
      apply (meets_itemType binder node _ node.span).bind
      intro type same
      apply (meets_declare env.child _ _ _).bind
      rintro _ rfl
      rw [← same]
      apply (meets_stmt around.loopBody _ body).bind
      rintro ⟨x, _⟩ bodyChecked
      apply meets_pure
      apply checked_of_uses (by exact bodyChecked.functions) rfl
      intro scope inside models r member
      rw [Stmt.resolutions, List.mem_append] at member
      rcases member with member | member
      · exact (iterableChecked scope models).value r member
      · have entered := Scope.enter_ne_nil
          (binder.declaration node xs.label.element :: Stmt.declarations [x]) scope
        exact bodyChecked.uses _ (Scope.declare_ne_nil entered _)
          ((models.child.enter _).declare entered (binder.declaration node xs.label.element)).child
          r member
  | .brk node => by
      rw [Stmt.check]
      apply (meets_rule _).bind
      exact fun _ _ => meets_pure (checked_of_uses rfl rfl fun _ _ _ => nofun)
  | .cont node => by
      rw [Stmt.check]
      apply (meets_rule _).bind
      exact fun _ _ => meets_pure (checked_of_uses rfl rfl fun _ _ _ => nofun)
  | .block node stmts => by
      rw [Stmt.check]
      apply (meets_stmts around env.child stmts).bind
      rintro ⟨typed, _⟩ checked
      apply meets_pure
      apply checked_of_uses (by exact checked.functions) rfl
      exact fun scope _ models => checked.uses _ (Scope.enter_ne_nil _ _) (models.child.enter _)
  | .function node written name params body => by
      rw [Stmt.check]
      apply (meets_declare env _ _ _).bind
      rintro _ rfl
      apply (meets_declareParams _ node.span node.id 0 params).bind
      intro inner innerModels
      apply (meets_stmts _ inner body).bind
      rintro ⟨typed, _⟩ checked
      apply (meets_rule _).bind
      intro _ _
      apply meets_pure
      have outerModels (scope : Scope) (inside : scope ≠ []) (models : scope.Models globals env) :=
        models.declare inside ⟨node.id, none, name, functionType params written⟩
      refine ⟨congrArg (node.id :: ·) checked.functions, ?_, outerModels⟩
      intro scope inside models
      have entered := Scope.enter_ne_nil
        (Param.declarations node.id 0 params ++ Stmt.declarations typed)
        (scope.declare ⟨node.id, none, name, functionType params written⟩).capture
      apply checked.uses _ (Scope.declareAll_ne_nil entered _)
      exact innerModels _ entered ((outerModels scope inside models).capture.child.enter _)

theorem meets_branch (around : Surroundings) (env : TypeEnv) :
    ∀ s : Option (Stmt Unit), Meets (Stmt.checkOption around env s)
      (Stmt.CheckedBranch globals hosts env s) fun _ => True
  | none => meets_pure ⟨rfl, fun _ _ _ => nofun⟩
  | some s => by
      rw [Stmt.checkOption]
      apply (meets_stmt around env.child s).bind
      rintro ⟨typed, _⟩ checked
      exact meets_pure ⟨checked.functions, fun scope _ models =>
        checked.uses _ (Scope.enter_ne_nil _ _) (models.child.enter _)⟩

theorem meets_init (around : Surroundings) (env : TypeEnv) :
    ∀ s : Option (Stmt Unit), Meets (Stmt.checkInit around env s)
      (fun typed => Stmt.CheckedInit globals hosts env s typed.1 typed.2) fun _ => True
  | none => meets_pure ⟨rfl, fun _ _ _ => nofun, fun _ _ models => models⟩
  | some s => by
      rw [Stmt.checkInit]
      apply (meets_stmt around env s).bind
      rintro ⟨typed, next⟩ checked
      exact meets_pure ⟨checked.functions, checked.uses, checked.after⟩

theorem meets_stmts (around : Surroundings) (env : TypeEnv) :
    ∀ stmts : List (Stmt Unit), Meets (Stmt.checkAll around env stmts)
      (fun typed => Stmt.CheckedAll globals hosts env stmts typed.1 typed.2) fun _ => True
  | [] => meets_pure ⟨rfl, fun _ _ _ => nofun, fun _ _ models => models⟩
  | s :: rest => by
      rw [Stmt.checkAll]
      apply (meets_stmt around env s).bind
      rintro ⟨first, inner⟩ checked
      apply (meets_stmts around inner rest).bind
      rintro ⟨others, next⟩ othersChecked
      apply meets_pure
      constructor
      · simp only [Stmt.functionsAll, List.map_append, checked.functions, othersChecked.functions]
      · intro scope inside models r member
        rw [Stmt.resolutionsAll, List.mem_append] at member
        rcases member with member | member
        · exact checked.uses scope inside models r member
        · exact othersChecked.uses _ (Scope.after_ne_nil inside _) (checked.after _ inside models)
            r member
      · intro scope inside models
        exact othersChecked.after _ (Scope.after_ne_nil inside _) (checked.after _ inside models)

end

/-! ## Formulas -/

/-- In a checked formula every use of a name has the type of what it means. -/
theorem meets_program (globals : TypeEnv) (hosts : String → Bool) (p : Program Unit) :
    Meets (p.checked globals)
      (fun typed => typed.functions.map Prod.fst = p.functions.map Prod.fst ∧
        ∀ r ∈ typed.resolutions hosts, r.Checked globals hosts)
      fun _ => True := by
  have bodyMeets : Meets (Stmt.checkAll .outside globals.child p.body)
      (fun typed => Stmt.CheckedAll globals hosts globals.child p.body typed.1 typed.2)
      fun _ => True := meets_stmts .outside globals.child p.body
  apply bodyMeets.bind
  rintro ⟨body, env⟩ checked
  have tailMeets : Meets (Expr.checkOption env p.tail)
      (Expr.UsesCheckedOption globals hosts env) fun _ => True := meets_checkOption env p.tail
  apply tailMeets.bind
  intro tail tailChecked
  apply meets_pure
  refine ⟨checked.functions, ?_⟩
  intro r member
  have models : (Scope.enter (Stmt.declarations body) []).Models globals globals.child := by
    intro name
    rw [TypeEnv.lookup_child]
    rfl
  have entered := Scope.enter_ne_nil (Stmt.declarations body) []
  rw [Program.resolutions, List.mem_append] at member
  rcases member with member | member
  · exact checked.uses _ entered models r member
  · exact tailChecked _ (checked.after _ entered models) r member

end Typing

end Formulae
