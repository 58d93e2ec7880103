import Formulae.Proofs.Scope.CheckedStmt
import Formulae.Proofs.Typing.Derivation
import Formulae.Proofs.Typing.Rewrites

/-!
# The types of a checked formula form a derivation

In a checked formula every expression has a type, and the type follows from those of its
parts (`Mode.derives_of_check`).
-/

namespace Formulae

/-! ## Statements -/

namespace Stmt

/-- All expressions of the statement derive. -/
def Derived (s : TypedStmt) : Prop :=
  ∀ e ∈ s.exprs, e.Derives

/-- All expressions of a statement that may be missing derive. -/
def DerivedOption (s : Option TypedStmt) : Prop :=
  ∀ e ∈ exprsOption s, e.Derives

/-- All expressions of several statements derive. -/
def DerivedAll (stmts : List TypedStmt) : Prop :=
  ∀ e ∈ exprsAll stmts, e.Derives

end Stmt

/-- An expression that may be missing derives with all its parts. -/
def Expr.DerivedOption (e : Option TypedExpr) : Prop :=
  ∀ x ∈ exprsOption e, x.Derives

namespace Typing

open Check Expr

theorem derives_checkValue (env : TypeEnv) (e : Expr Unit) :
    Meets (e.checkValue env) Derived fun _ => True :=
  (derives_expr env e).bind fun _ derived =>
    (meets_requireValue _).mono (fun _ ⟨same, _⟩ => same ▸ derived) fun _ _ => trivial

theorem derives_checkValueOption (env : TypeEnv) : ∀ e : Option (Expr Unit),
    Meets (Expr.checkValueOption env e) Expr.DerivedOption fun _ => True
  | none => meets_pure nofun
  | some e => (derives_checkValue env e).bind fun _ derived => meets_pure derived

theorem derives_checkOption (env : TypeEnv) : ∀ e : Option (Expr Unit),
    Meets (Expr.checkOption env e) Expr.DerivedOption fun _ => True
  | none => meets_pure nofun
  | some e => (derives_expr env e).bind fun _ derived => meets_pure derived

theorem derives_initial {value : TypedExpr} (derived : value.Derived) :
    ∀ written : Option TypeExpr,
      Meets (initial written value) (fun typed => typed.1.Derived) fun _ => True
  | none => meets_pure derived
  | some _ => (derives_coerce derived .castable _).bind fun _ coerced => meets_pure coerced.1

theorem derives_returned {value : TypedExpr} (derived : value.Derived) (expected : Option Ty) :
    Meets (returned expected value) Derived fun _ => True := by
  cases expected with
  | none => exact meets_pure derived
  | some _ =>
      exact (derives_coerce derived .accepted _).mono (fun _ coerced => coerced.1)
        fun _ _ => trivial

mutual

theorem derives_stmt (around : Surroundings) (env : TypeEnv) : ∀ s : Stmt Unit,
    Meets (s.check around env) (fun typed => typed.1.Derived) fun _ => True
  | .expr node e => by
      rw [Stmt.check]
      exact (derives_expr env e).bind fun _ derived => meets_pure derived
  | .varDecl node binder init => by
      rw [Stmt.check]
      apply (derives_checkValue env init).bind
      intro value derived
      apply (derives_initial derived binder.type).bind
      intro typed derived
      exact (meets_rule _).bind fun _ _ => meets_pure derived
  | .ret node none => by
      rw [Stmt.check]
      exact (meets_rule _).bind fun _ _ => meets_pure nofun
  | .ret node (some e) => by
      rw [Stmt.check]
      apply (derives_checkValue env e).bind
      intro value derived
      exact (derives_returned derived around.returns).bind fun _ derived => meets_pure derived
  | .ifElse node cond thenBranch elseBranch => by
      rw [Stmt.check]
      apply (derives_checkValue env cond).bind
      intro c condDerived
      apply (derives_stmt around env.child thenBranch).bind
      intro x thenDerived
      apply (derives_branch around env elseBranch).bind
      intro y elseDerived
      exact meets_pure (List.forall_mem_append.mpr
        ⟨List.forall_mem_append.mpr ⟨condDerived, thenDerived⟩, elseDerived⟩)
  | .whileLoop node cond body => by
      rw [Stmt.check]
      apply (derives_checkValue env cond).bind
      intro c condDerived
      apply (derives_stmt around.loopBody env.child body).bind
      exact fun x bodyDerived =>
        meets_pure (List.forall_mem_append.mpr ⟨condDerived, bodyDerived⟩)
  | .doWhile node body cond => by
      rw [Stmt.check]
      apply (derives_checkValue env cond).bind
      intro c condDerived
      apply (derives_stmt around.loopBody env.child body).bind
      exact fun x bodyDerived =>
        meets_pure (List.forall_mem_append.mpr ⟨bodyDerived, condDerived⟩)
  | .forLoop node init cond step body => by
      rw [Stmt.check]
      apply (derives_init around env.child init).bind
      rintro ⟨i, inner⟩ initDerived
      apply (derives_checkValueOption inner cond).bind
      intro c condDerived
      apply (derives_checkOption inner step).bind
      intro n stepDerived
      apply (derives_stmt around.loopBody inner.child body).bind
      intro x bodyDerived
      apply meets_pure
      simp only [Stmt.Derived, Stmt.exprs, List.forall_mem_append]
      exact ⟨⟨⟨initDerived, condDerived⟩, stepDerived⟩, bodyDerived⟩
  | .forEach node binder iterable body => by
      rw [Stmt.check]
      apply (derives_checkValue env iterable).bind
      intro xs iterableDerived
      apply (meets_rule _).bind
      intro element _
      apply (meets_rule _).bind
      intro type _
      apply (meets_rule _).bind
      intro inner _
      apply (derives_stmt around.loopBody inner.child body).bind
      exact fun x bodyDerived =>
        meets_pure (List.forall_mem_append.mpr ⟨iterableDerived, bodyDerived⟩)
  | .brk node | .cont node => by
      rw [Stmt.check]
      exact (meets_rule _).bind fun _ _ => meets_pure nofun
  | .block node stmts => by
      rw [Stmt.check]
      exact (derives_stmts around env.child stmts).bind fun _ derived => meets_pure derived
  | .function node written name params body => by
      rw [Stmt.check]
      apply (meets_rule _).bind
      intro after _
      apply (meets_rule _).bind
      intro inner _
      apply (derives_stmts _ inner body).bind
      intro typed derived
      exact (meets_rule _).bind fun _ _ => meets_pure derived

theorem derives_branch (around : Surroundings) (env : TypeEnv) : ∀ s : Option (Stmt Unit),
    Meets (Stmt.checkOption around env s) Stmt.DerivedOption fun _ => True
  | none => meets_pure nofun
  | some s => by
      rw [Stmt.checkOption]
      exact (derives_stmt around env.child s).bind fun _ derived => meets_pure derived

theorem derives_init (around : Surroundings) (env : TypeEnv) : ∀ s : Option (Stmt Unit),
    Meets (Stmt.checkInit around env s) (fun typed => Stmt.DerivedOption typed.1)
      fun _ => True
  | none => meets_pure nofun
  | some s => by
      rw [Stmt.checkInit]
      exact (derives_stmt around env s).bind fun _ derived => meets_pure derived

theorem derives_stmts (around : Surroundings) (env : TypeEnv) : ∀ stmts : List (Stmt Unit),
    Meets (Stmt.checkAll around env stmts) (fun typed => Stmt.DerivedAll typed.1) fun _ => True
  | [] => meets_pure nofun
  | s :: rest => by
      rw [Stmt.checkAll]
      apply (derives_stmt around env s).bind
      rintro ⟨first, inner⟩ derived
      apply (derives_stmts around inner rest).bind
      exact fun others othersDerived =>
        meets_pure (List.forall_mem_append.mpr ⟨derived, othersDerived⟩)

end

/-! ## Formulas -/

theorem derives_program (globals : TypeEnv) (p : Program Unit) :
    Meets (p.checked globals) (fun typed => ∀ e ∈ typed.exprs, e.Derives) fun _ => True := by
  apply (derives_stmts .outside globals.child p.body).bind
  rintro ⟨body, env⟩ bodyDerived
  apply (derives_checkOption env p.tail).bind
  exact fun tail tailDerived =>
    meets_pure (List.forall_mem_append.mpr ⟨bodyDerived, tailDerived⟩)

end Typing

end Formulae
