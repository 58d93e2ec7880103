import Formulae.Proofs.Typing.Mirrored
import Formulae.Typing.Program

/-!
# Checking renamed formulas

Checking a formula in which a variable is renamed to a name of the same type, which the formula
does not mention, gives the renamed tree, or the same error (`Typing.mirrors_program`).
-/

namespace Formulae

variable {α : Type} {r : Renaming} {bound : List String} {env env' : TypeEnv}

namespace Stmt

mutual

@[simp]
theorem alwaysReturns_rename (bound : List String) : ∀ s : Stmt α,
    (s.rename r bound).alwaysReturns = s.alwaysReturns
  | .block _ stmts => someReturns_rename bound stmts
  | .ifElse _ _ thenBranch (some elseBranch) => by
      rw [rename, renameOption, alwaysReturns, alwaysReturns, alwaysReturns_rename bound thenBranch,
        alwaysReturns_rename bound elseBranch]
  | .ifElse _ _ _ none | .expr .. | .varDecl .. | .ret .. | .whileLoop .. | .doWhile ..
  | .forLoop .. | .forEach .. | .brk .. | .cont .. | .function .. => rfl

@[simp]
theorem someReturns_rename (bound : List String) : ∀ stmts : List (Stmt α),
    someReturns (renameAll r bound stmts) = someReturns stmts
  | [] => rfl
  | s :: rest => by
      rw [renameAll, someReturns, someReturns, alwaysReturns_rename bound s,
        someReturns_rename _ rest]

end

end Stmt

namespace Typing

open Check TypeEnv

/-! ## Statements -/

section

variable (renames : env.Renames r bound env')
include renames

theorem mirrors_declare {name : String} (different : name ≠ r.new) (type : Ty) (span : Span) :
    Mirrors r (TypeEnv.Renames r (name :: bound)) (declare env name type span)
      (declare env' name type span) := by
  unfold declare declare? isLocal
  rw [renames.top]
  split
  · next after declared =>
      split at declared
      · cases declared
      · next fresh =>
          cases declared
          rw [if_neg fresh]
          exact mirrors_pure (renames.bind different type)
  · next undeclared =>
      split at undeclared
      · next taken =>
          rw [if_pos taken]
          exact mirrors_fail _ _
      · cases undeclared

section

variable (ofVariables : r.role = .variable)
include ofVariables

theorem mirrors_checkValue {e : Expr Unit} (spared : r.new ∉ e.mentions) :
    Mirrors r (Expr.Renamed r bound .variable) (e.checkValue env)
      ((e.rename r bound .variable).checkValue env') :=
  (mirrors_expr ofVariables renames _ e spared).bind fun _ _ => mirrors_requireValue

theorem mirrors_checkValueOption {e : Option (Expr Unit)} (spared : r.new ∉ Expr.mentionsOption e) :
    Mirrors r (Expr.RenamedOption r bound) (Expr.checkValueOption env e)
      (Expr.checkValueOption env' (e.map (Expr.rename r bound .variable))) := by
  cases e with
  | none => exact mirrors_pure Expr.renamedOption_none
  | some e =>
      apply (mirrors_checkValue renames ofVariables spared).bind
      exact fun _ _ renamed => mirrors_pure renamed.option

theorem mirrors_checkOption {e : Option (Expr Unit)} (spared : r.new ∉ Expr.mentionsOption e) :
    Mirrors r (Expr.RenamedOption r bound) (Expr.checkOption env e)
      (Expr.checkOption env' (e.map (Expr.rename r bound .variable))) := by
  cases e with
  | none => exact mirrors_pure Expr.renamedOption_none
  | some e =>
      apply (mirrors_expr ofVariables renames _ e spared).bind
      exact fun _ _ renamed => mirrors_pure renamed.option

end

theorem mirrors_declareParams (span : Span) {params : List Param}
    (fresh : r.new ∉ params.map Param.name) :
    Mirrors r (TypeEnv.Renames r (params.map Param.name ++ bound)) (declareParams span env params)
      (declareParams span env' params) := by
  induction params generalizing env env' bound with
  | nil => exact mirrors_pure renames
  | cons param rest inductionHypothesis =>
      rw [List.map_cons, List.mem_cons, not_or] at fresh
      rw [declareParams, declareParams]
      apply (mirrors_declare renames (Ne.symm fresh.1) _ _).bind
      intro inner inner' renames'
      apply (inductionHypothesis renames' fresh.2).mono
      exact fun _ _ after => after.of_mem (by simp [or_left_comm])

end

section

variable {x x' : TypedExpr}

theorem mirrors_initial (written : Option TypeExpr) (renamed : x.Renamed r bound .variable x') :
    Mirrors r (fun made made' => made.1.Renamed r bound .variable made'.1 ∧ made'.2 = made.2)
      (initial written x) (initial written x') := by
  unfold initial
  split
  · apply (mirrors_coerce _ _ renamed).bind
    exact fun _ _ fits => mirrors_pure ⟨fits, rfl⟩
  · exact mirrors_pure ⟨renamed, by rw [renamed.label_eq]⟩

theorem mirrors_returned (expected : Option Ty) (renamed : x.Renamed r bound .variable x') :
    Mirrors r (Expr.Renamed r bound .variable) (returned expected x) (returned expected x') := by
  unfold returned
  split
  · exact mirrors_coerce _ _ renamed
  · exact mirrors_pure renamed

theorem elementType_eq (renamed : x.Renamed r bound .variable x') :
    elementType x' = elementType x := by
  unfold elementType
  rw [renamed.label_eq, renamed.span_eq]

end

theorem mustReturn_rename (name : String) (ret : Ty) (body : List (Stmt Unit)) (span : Span) :
    mustReturn name ret (Stmt.renameAll r bound body) span = mustReturn name ret body span := by
  rw [mustReturn, Stmt.someReturns_rename, mustReturn]

/-- The typed statement is renamed, in environments where its declarations are made. -/
structure StmtMirrored (r : Renaming) (bound declared : List String)
    (typed typed' : TypedStmt × TypeEnv) : Prop where
  stmt : typed.1.Renamed r bound typed'.1
  declares : typed.1.declared = declared
  renames : typed.2.Renames r (declared ++ bound) typed'.2

/-- The same of a statement that may be missing. -/
structure OptionMirrored (r : Renaming) (bound declared : List String)
    (typed typed' : Option TypedStmt × TypeEnv) : Prop where
  stmt : Stmt.RenamedOption r bound typed.1 typed'.1
  declares : Stmt.declaredOption typed.1 = declared
  renames : typed.2.Renames r (declared ++ bound) typed'.2

/-- The same of several statements, after which these names are declared. -/
structure StmtsMirrored (r : Renaming) (bound after : List String)
    (typed typed' : List TypedStmt × TypeEnv) : Prop where
  stmts : Stmt.RenamedAll r bound typed.1 typed'.1
  leads : Stmt.boundAfter bound typed.1 = after
  renames : typed.2.Renames r after typed'.2

mutual

theorem mirrors_stmt {bound : List String} {env env' : TypeEnv} (ofVariables : r.role = .variable)
    (renames : env.Renames r bound env') (around : Surroundings) : ∀ s : Stmt Unit,
      r.new ∉ s.mentions →
        Mirrors r (StmtMirrored r bound s.declared) (s.check around env)
          ((s.rename r bound).check around env')
  | .expr node e, spared => by
      rw [Stmt.rename, Stmt.check, Stmt.check]
      apply (mirrors_expr ofVariables renames _ e spared).bind
      exact fun _ _ typed => mirrors_pure ⟨Stmt.renamed_expr typed node, rfl, renames⟩
  | .varDecl node binder init, spared => by
      rw [Stmt.mentions, List.mem_cons, not_or] at spared
      rw [Stmt.rename, Stmt.check, Stmt.check]
      apply (mirrors_checkValue renames ofVariables spared.2).bind
      intro value value' typed
      apply (mirrors_initial binder.type typed).bind
      rintro ⟨made, type⟩ ⟨made', _⟩ ⟨isMade, rfl⟩
      apply (mirrors_declare renames (Ne.symm spared.1) _ _).bind
      exact fun _ _ after =>
        mirrors_pure ⟨Stmt.renamed_varDecl isMade node (Ne.symm spared.1), rfl, after⟩
  | .ret node none, spared => by
      rw [Stmt.rename, Option.map_none, Stmt.check, Stmt.check]
      exact Mirrors.after fun _ => mirrors_pure
        ⟨Stmt.renamed_ret Expr.renamedOption_none node, rfl, renames⟩
  | .ret node (some e), spared => by
      rw [Stmt.rename, Option.map_some, Stmt.check, Stmt.check]
      apply (mirrors_checkValue renames ofVariables spared).bind
      intro value value' typed
      apply (mirrors_returned around.returns typed).bind
      exact fun _ _ fits => mirrors_pure ⟨Stmt.renamed_ret fits.option node, rfl, renames⟩
  | .ifElse node cond thenBranch elseBranch, spared => by
      simp only [Stmt.mentions, List.mem_append, not_or] at spared
      rw [Stmt.rename, Stmt.check, Stmt.check]
      apply (mirrors_checkValue renames ofVariables spared.1.1).bind
      intro c c' isCond
      apply (mirrors_stmt ofVariables renames.child around thenBranch spared.1.2).bind
      intro x x' first
      apply (mirrors_branch ofVariables renames around elseBranch spared.2).bind
      exact fun _ _ second =>
        mirrors_pure ⟨Stmt.renamed_ifElse isCond first.stmt second node, rfl, renames⟩
  | .whileLoop node cond body, spared => by
      rw [Stmt.mentions, List.mem_append, not_or] at spared
      rw [Stmt.rename, Stmt.check, Stmt.check]
      apply (mirrors_checkValue renames ofVariables spared.1).bind
      intro c c' isCond
      apply (mirrors_stmt ofVariables renames.child around.loopBody body spared.2).bind
      exact fun _ _ typed =>
        mirrors_pure ⟨Stmt.renamed_whileLoop isCond typed.stmt node, rfl, renames⟩
  | .doWhile node body cond, spared => by
      rw [Stmt.mentions, List.mem_append, not_or] at spared
      rw [Stmt.rename, Stmt.check, Stmt.check]
      apply (mirrors_checkValue renames ofVariables spared.2).bind
      intro c c' isCond
      apply (mirrors_stmt ofVariables renames.child around.loopBody body spared.1).bind
      exact fun _ _ typed =>
        mirrors_pure ⟨Stmt.renamed_doWhile isCond typed.stmt node, rfl, renames⟩
  | .forLoop node init cond step body, spared => by
      simp only [Stmt.mentions, List.mem_append, not_or] at spared
      rcases spared with ⟨⟨⟨initSpared, condSpared⟩, stepSpared⟩, bodySpared⟩
      rw [Stmt.rename, Stmt.check, Stmt.check]
      apply (mirrors_init ofVariables renames.child around init initSpared).bind
      rintro ⟨i, inner⟩ ⟨i', inner'⟩ ⟨isInit, declared, inside⟩
      apply (mirrors_checkValueOption inside ofVariables condSpared).bind
      intro c c' isCond
      apply (mirrors_checkOption inside ofVariables stepSpared).bind
      intro n n' isStep
      apply (mirrors_stmt ofVariables inside.child around.loopBody body bodySpared).bind
      intro x x' typed
      rw [← declared] at isCond isStep typed
      exact mirrors_pure
        ⟨Stmt.renamed_forLoop isInit isCond isStep typed.stmt node, rfl, renames⟩
  | .forEach node binder iterable body, spared => by
      simp only [Stmt.mentions, List.mem_append, List.mem_cons, not_or] at spared
      rw [Stmt.rename, Stmt.check, Stmt.check]
      apply (mirrors_checkValue renames ofVariables spared.1.2).bind
      intro xs xs' isIterable
      rw [elementType_eq isIterable]
      apply Mirrors.after
      intro element
      apply Mirrors.after
      intro type
      apply (mirrors_declare renames.child (Ne.symm spared.1.1) _ _).bind
      intro inner inner' inside
      apply (mirrors_stmt ofVariables inside.child around.loopBody body spared.2).bind
      exact fun _ _ typed => mirrors_pure
        ⟨Stmt.renamed_forEach (Ne.symm spared.1.1) isIterable typed.stmt node, rfl, renames⟩
  | .brk node, _ | .cont node, _ => by
      rw [Stmt.rename, Stmt.check, Stmt.check]
      exact Mirrors.after fun _ => mirrors_pure ⟨⟨rfl, List.not_mem_nil⟩, rfl, renames⟩
  | .block node stmts, spared => by
      rw [Stmt.rename, Stmt.check, Stmt.check]
      apply (mirrors_stmts ofVariables renames.child around stmts spared).bind
      exact fun _ _ typed => mirrors_pure ⟨Stmt.renamed_block typed.stmts node, rfl, renames⟩
  | .function node written name params body, spared => by
      simp only [Stmt.mentions, List.mem_append, List.mem_cons, not_or] at spared
      rw [Stmt.rename, Stmt.check, Stmt.check]
      apply (mirrors_declare renames (Ne.symm spared.1.1) _ _).bind
      intro after after' isAfter
      apply (mirrors_declareParams isAfter.child _ spared.1.2).bind
      intro inner inner' inside
      apply (mirrors_stmts ofVariables inside _ body spared.2).bind
      intro typed typed' isBody
      dsimp only
      rw [mustReturn_rename]
      exact Mirrors.after fun _ => mirrors_pure
        ⟨Stmt.renamed_function isBody.stmts (Ne.symm spared.1.1) spared.1.2 node written, rfl,
          isAfter⟩

theorem mirrors_branch {bound : List String} {env env' : TypeEnv}
    (ofVariables : r.role = .variable) (renames : env.Renames r bound env')
    (around : Surroundings) : ∀ s : Option (Stmt Unit), r.new ∉ Stmt.mentionsOption s →
      Mirrors r (Stmt.RenamedOption r bound) (Stmt.checkOption around env s)
        (Stmt.checkOption around env' (Stmt.renameOption r bound s))
  | none, _ => mirrors_pure Stmt.renamedOption_none
  | some s, spared => by
      rw [Stmt.renameOption, Stmt.checkOption, Stmt.checkOption]
      apply (mirrors_stmt ofVariables renames.child around s spared).bind
      exact fun _ _ typed => mirrors_pure typed.stmt.option

theorem mirrors_init {bound : List String} {env env' : TypeEnv}
    (ofVariables : r.role = .variable) (renames : env.Renames r bound env')
    (around : Surroundings) : ∀ s : Option (Stmt Unit), r.new ∉ Stmt.mentionsOption s →
      Mirrors r (OptionMirrored r bound (Stmt.declaredOption s)) (Stmt.checkInit around env s)
        (Stmt.checkInit around env' (Stmt.renameOption r bound s))
  | none, _ => mirrors_pure ⟨Stmt.renamedOption_none, rfl, renames⟩
  | some s, spared => by
      rw [Stmt.renameOption, Stmt.checkInit, Stmt.checkInit]
      apply (mirrors_stmt ofVariables renames around s spared).bind
      exact fun _ _ typed => mirrors_pure ⟨typed.stmt.option, typed.declares, typed.renames⟩

theorem mirrors_stmts {bound : List String} {env env' : TypeEnv}
    (ofVariables : r.role = .variable) (renames : env.Renames r bound env')
    (around : Surroundings) : ∀ stmts : List (Stmt Unit), r.new ∉ Stmt.mentionsAll stmts →
      Mirrors r (StmtsMirrored r bound (Stmt.boundAfter bound stmts))
        (Stmt.checkAll around env stmts)
        (Stmt.checkAll around env' (Stmt.renameAll r bound stmts))
  | [], _ => mirrors_pure ⟨Stmt.renamedAll_nil, rfl, renames⟩
  | s :: rest, spared => by
      rw [Stmt.mentionsAll, List.mem_append, not_or] at spared
      rw [Stmt.renameAll, Stmt.checkAll, Stmt.checkAll]
      apply (mirrors_stmt ofVariables renames around s spared.1).bind
      rintro ⟨first, inner⟩ ⟨first', inner'⟩ ⟨isFirst, declared, inside⟩
      apply (mirrors_stmts ofVariables inside around rest spared.2).bind
      intro others others' isRest
      have leads : Stmt.boundAfter bound (first :: others.1) =
          Stmt.boundAfter (s.declared ++ bound) rest := by
        rw [← isRest.leads, ← declared]
        rfl
      exact mirrors_pure ⟨isFirst.cons (declared ▸ isRest.stmts), leads, isRest.renames⟩

end

/-! ## Formulas -/

/-- How checking ends for a formula and for the renamed formula. -/
inductive ProgramMirrored (r : Renaming) :
    Except TypeError TypedProgram → Except TypeError TypedProgram → Prop
  | ok {p : TypedProgram} (spared : r.new ∉ p.mentions) :
      ProgramMirrored r (.ok p) (.ok (p.rename r).2)
  | error {e e' : TypeError} (renamed : e.Renamed r e') : ProgramMirrored r (.error e) (.error e')

/-- Checking the renamed formula gives the renamed tree, or the same error, if the new name
has the type of the old one and the types of other names are the same. -/
theorem mirrors_program (ofVariables : r.role = .variable) {globals globals' : TypeEnv} {type : Ty}
    (same : ∀ name, name ≠ r.new → globals'.lookup name = globals.lookup name)
    (isOld : globals.lookup r.old = some type) (isNew : globals'.lookup r.new = some type)
    {p : Program Unit} (spared : r.new ∉ p.mentions) :
    ProgramMirrored r (p.check globals) ((p.rename r).2.check globals') := by
  rw [Program.mentions, List.mem_append, not_or] at spared
  have renames : globals.child.Renames r [] globals'.child := by
    refine ⟨rfl, fun name different => ?_, fun _ => ⟨type, ?_, ?_⟩⟩
    · rw [lookup_child, lookup_child, same name different]
    · rw [lookup_child, isOld]
    · rw [lookup_child, isNew]
  have checked : Mirrors r (fun q q' => q' = (q.rename r).2 ∧ r.new ∉ q.mentions)
      (p.checked globals) ((p.rename r).2.checked globals') := by
    apply (mirrors_stmts ofVariables renames .outside p.body spared.1).bind
    rintro ⟨body, env⟩ ⟨body', env'⟩ ⟨isBody, leads, inside⟩
    dsimp only at isBody leads inside ⊢
    apply (mirrors_checkOption inside ofVariables spared.2).bind
    intro tail tail' isTail
    apply mirrors_pure
    rw [← leads] at isTail
    rw [Program.rename, Program.mentions, List.mem_append, not_or]
    exact ⟨by rw [isBody.eq, isTail.eq, Program.rename], isBody.spared, isTail.spared⟩
  have outcome := checked p.exprSize
  unfold Program.check StateT.run'
  rw [Program.exprSize_rename]
  revert outcome
  generalize p.checked globals p.exprSize = ended,
    (p.rename r).2.checked globals' p.exprSize = ended'
  intro outcome
  cases outcome with
  | ok h =>
      rcases h with ⟨rfl, spared⟩
      exact .ok spared
  | error renamed => exact .error renamed

end Typing

end Formulae
