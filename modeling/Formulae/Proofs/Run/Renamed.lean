import Formulae.Proofs.Run.Twins

/-!
# Runs of renamed formulas

On a machine that binds a variable from outside under two names, a formula that declares no
functions runs in the same way whichever of the two names it uses (`Machine.run_renamed`).
-/

namespace Formulae

namespace Run

variable {α : Type} {r : Renaming} {global : Nat} {v : Value} {s : Setting α}

/-! ## Calls -/

theorem upholds_bindParams (entries : List (Param × Value)) {m : Machine}
    (inStore : m.env.current < m.store.frames.size) :
    m.Upholds
      (entries.foldl (fun m (param, arg) => m.define param.name ⟨arg, param.mutable⟩) m) := by
  induction entries generalizing m with
  | nil => exact .refl m
  | cons entry rest inductionHypothesis =>
      have defined := Machine.upholds_define inStore entry.1.name ⟨entry.2, entry.1.mutable⟩
      exact defined.trans (inductionHypothesis (Nat.lt_of_lt_of_le inStore defined.store.size))

theorem alike_bindParams {view : View} (entries : List (Param × Value)) {m m' : Machine}
    (alike : m.Alike view m') (inStore : m.env.current < m.store.frames.size) :
    (entries.foldl (fun m (param, arg) => m.define param.name ⟨arg, param.mutable⟩) m).Alike view
      (entries.foldl (fun m (param, arg) => m.define param.name ⟨arg, param.mutable⟩) m') := by
  induction entries generalizing m m' with
  | nil => exact alike
  | cons entry rest inductionHypothesis =>
      have defined := Machine.upholds_define inStore entry.1.name ⟨entry.2, entry.1.mutable⟩
      exact inductionHypothesis (alike.define inStore _ _)
        (Nat.lt_of_lt_of_le inStore defined.store.size)

/-- A call of a function of another formula, which has no body here: its parameters are bound and
forgotten. -/
theorem mirrors_inBody {declared : List String} (noFunctions : s.functions = []) (f : Closure)
    (args : List Value) (bound : Nat) :
    Mirrors r global v declared declared Eq (Run.inBody s bound f args)
      (Run.inBody s bound f args) := by
  have empty : s.body f.declaration = [] := by
    rw [Setting.body, noFunctions]
    rfl
  unfold Run.inBody
  rw [empty]
  intro m m' twins
  have entered : (m.enterCall f.frame).env.current < (m.enterCall f.frame).store.frames.size :=
    Nat.lt_of_lt_of_eq (Nat.lt_succ_self _) (Store.size_push _ _).symm
  have entered' : (m'.enterCall f.frame).env.current < (m'.enterCall f.frame).store.frames.size :=
    Nat.lt_of_lt_of_eq (Nat.lt_succ_self _) (Store.size_push _ _).symm
  have alike := alike_bindParams (f.params.zip args) (twins.alike.enterCall f.frame) entered
  have regains := Machine.regains_leaveCall (upholds_bindParams (f.params.zip args) entered)
  have regains' := Machine.regains_leaveCall (upholds_bindParams (f.params.zip args) entered')
  cases bound with
  | zero => exact .error (.same _)
  | succ bound =>
      exact .ok (twins.regains alike.leaveCall regains regains')
        (regains.upholds twins.inStore) (regains'.upholds twins.inStore') rfl

/-! ## All steps at once -/

/-- Every step within a bound ends in the same way with the variable renamed. -/
structure MirrorsAll (r : Renaming) (global : Nat) (v : Value) (s : Setting α) (bound : Nat) :
    Prop where
  eval : ∀ {declared} role e, r.new ∉ e.mentions →
    Mirrors r global v declared declared Eq (Run.eval s bound e)
      (Run.eval s bound (e.rename r declared role))
  evalAll : ∀ {declared} es, r.new ∉ Expr.mentionsAll es →
    Mirrors r global v declared declared Eq (Run.evalAll s bound es)
      (Run.evalAll s bound (Expr.renameAll r declared es))
  evalCast : ∀ {declared} node operand target, r.new ∉ operand.mentions →
    Mirrors r global v declared declared Eq (Run.evalCast s bound node operand target)
      (Run.evalCast s bound node (operand.rename r declared .variable)
        (target.rename r declared .variable))
  evalPath : ∀ {declared} target, r.new ∉ target.mentions →
    Mirrors r global v declared declared
      (fun place place' => place.1 ≠ r.new ∧
        place' = (r.apply declared .variable place.1, place.2))
      (Run.evalPath s bound target) (Run.evalPath s bound (target.rename r declared .variable))
  evalCall : ∀ {declared} node callee args, r.new ∉ callee.mentions →
    r.new ∉ Expr.mentionsAll args →
    Mirrors r global v declared declared Eq (Run.evalCall s bound node callee args)
      (Run.evalCall s bound node (callee.rename r declared .callee)
        (Expr.renameAll r declared args))
  apply : ∀ {declared} label function args span,
    Mirrors r global v declared declared Eq (Run.apply s bound label function args span)
      (Run.apply s bound label function args span)
  enter : ∀ {declared} f args span,
    Mirrors r global v declared declared Eq (Run.enter s bound f args span)
      (Run.enter s bound f args span)
  exec : ∀ {declared} stmt, r.new ∉ stmt.mentions →
    Mirrors r global v declared (stmt.declared ++ declared) Eq (Run.exec s bound stmt)
      (Run.exec s bound (stmt.rename r declared))
  execAll : ∀ {declared} stmts, r.new ∉ Stmt.mentionsAll stmts →
    Mirrors r global v declared (Stmt.boundAfter declared stmts) Eq (Run.execAll s bound stmts)
      (Run.execAll s bound (Stmt.renameAll r declared stmts))
  loop : ∀ {declared} tested cond step body, r.new ∉ Expr.mentionsOption cond →
    r.new ∉ Expr.mentionsOption step → r.new ∉ body.mentions →
    Mirrors r global v declared declared Eq (Run.loop s bound tested cond step body)
      (Run.loop s bound tested (cond.map (Expr.rename r declared .variable))
        (step.map (Expr.rename r declared .variable)) (body.rename r declared))
  loopItems : ∀ {declared} node binder body items, binder.name ≠ r.new → r.new ∉ body.mentions →
    Mirrors r global v declared declared Eq (Run.loopItems s bound node binder body items)
      (Run.loopItems s bound node binder (body.rename r (binder.name :: declared)) items)

section

variable {bound : Nat} (all : MirrorsAll r global v s bound) {declared : List String}
include all

/-! ## Expressions -/

/-- An assignment to the place that a path leads to. -/
theorem mirrors_assignment (node : Node α) (base : Option Operator) (left right : Expr α)
    (spared : r.new ∉ left.mentions) (spared' : r.new ∉ right.mentions) :
    Mirrors r global v declared declared Eq
      (Run.assignment s bound node base left right)
      (Run.assignment s bound node base (left.rename r declared .variable)
        (right.rename r declared .variable)) := by
  apply (all.evalPath left spared).bind
  rintro ⟨name, path⟩ _ ⟨different, rfl⟩
  apply (all.eval .variable right spared').bind
  rintro value _ rfl
  exact mirrors_assign different path.reverse base value node.span

theorem mirrors_eval (role : Role) (e : Expr α) (spared : r.new ∉ e.mentions) :
    Mirrors r global v declared declared Eq (Run.eval s (bound + 1) e)
      (Run.eval s (bound + 1) (e.rename r declared role)) := by
  rw [Run.eval.eq_def, Run.eval.eq_def s _ (e.rename r declared role)]
  dsimp only
  cases e with
  | ident node name =>
      have different : name ≠ r.new := fun same => spared (List.mem_singleton.mpr same.symm)
      exact mirrors_fetch different .unboundVariable node.span
  | constant node value => exact mirrors_located _ _
  | unary node op operand =>
      apply (all.eval .variable operand spared).bind
      rintro x _ rfl
      exact mirrors_located _ _
  | binary node op left right =>
      rw [Expr.mentions, List.mem_append, not_or] at spared
      have first : Mirrors r global v declared declared Eq (Run.eval s bound left)
          (Run.eval s bound (left.rename r declared .variable)) := all.eval _ left spared.1
      have second : Mirrors r global v declared declared Eq (Run.eval s bound right)
          (Run.eval s bound (right.rename r declared .variable)) := all.eval _ right spared.2
      have decides : Mirrors r global v declared declared Eq
          (do let y ← Run.eval s bound right
              return Value.bool y.isTruthy)
          (do let y ← Run.eval s bound (right.rename r declared .variable)
              return Value.bool y.isTruthy) := by
        apply second.bind
        rintro y _ rfl
        exact mirrors_pure rfl
      have combines : Mirrors r global v declared declared Eq
          (do let x ← Run.eval s bound left
              let y ← Run.eval s bound right
              located node.span (x.binary op y))
          (do let x ← Run.eval s bound (left.rename r declared .variable)
              let y ← Run.eval s bound (right.rename r declared .variable)
              located node.span (x.binary op y)) := by
        apply first.bind
        rintro x _ rfl
        apply second.bind
        rintro y _ rfl
        exact mirrors_located _ _
      cases op
      case typeCast => exact all.evalCast node left right spared.1
      case and =>
        apply first.bind
        rintro x _ rfl
        split
        · exact decides
        · exact mirrors_pure rfl
      case or =>
        apply first.bind
        rintro x _ rfl
        split
        · exact mirrors_pure rfl
        · exact decides
      case assign | addAssign | subAssign | mulAssign | divAssign =>
        exact mirrors_assignment all node _ left right spared.1 spared.2
      all_goals exact combines
  | ternary node cond thenBranch elseBranch =>
      simp only [Expr.mentions, List.mem_append, not_or] at spared
      apply (all.eval .variable cond spared.1.1).bind
      rintro c _ rfl
      split
      · exact all.eval .variable thenBranch spared.1.2
      · exact all.eval .variable elseBranch spared.2
  | call node callee args =>
      rw [Expr.mentions, List.mem_append, not_or] at spared
      exact all.evalCall node callee args spared.1 spared.2
  | array node items =>
      apply (all.evalAll items spared).bind
      rintro xs _ rfl
      exact mirrors_pure rfl
  | index node receiver subscript =>
      rw [Expr.mentions, List.mem_append, not_or] at spared
      apply (all.eval .variable receiver spared.1).bind
      rintro x _ rfl
      apply (all.eval .variable subscript spared.2).bind
      rintro y _ rfl
      exact mirrors_located _ _
  | typeLiteral node type => exact mirrors_fail _ _

theorem mirrors_evalAll (es : List (Expr α)) (spared : r.new ∉ Expr.mentionsAll es) :
    Mirrors r global v declared declared Eq (Run.evalAll s (bound + 1) es)
      (Run.evalAll s (bound + 1) (Expr.renameAll r declared es)) := by
  cases es with
  | nil => exact mirrors_pure rfl
  | cons e rest =>
      rw [Expr.mentionsAll, List.mem_append, not_or] at spared
      apply (all.eval .variable e spared.1).bind
      rintro first _ rfl
      apply (all.evalAll rest spared.2).bind
      rintro others _ rfl
      exact mirrors_pure rfl

theorem mirrors_evalCast (node : Node α) (operand target : Expr α)
    (spared : r.new ∉ operand.mentions) :
    Mirrors r global v declared declared Eq (Run.evalCast s (bound + 1) node operand target)
      (Run.evalCast s (bound + 1) node (operand.rename r declared .variable)
        (target.rename r declared .variable)) := by
  rw [Run.evalCast.eq_def, Run.evalCast.eq_def s _ node (operand.rename r declared .variable)]
  dsimp only
  cases target with
  | typeLiteral _ type =>
      apply (all.eval .variable operand spared).bind
      rintro x _ rfl
      exact mirrors_located _ _
  | _ => exact mirrors_fail _ _

theorem mirrors_evalPath (target : Expr α) (spared : r.new ∉ target.mentions) :
    Mirrors r global v declared declared
      (fun place place' => place.1 ≠ r.new ∧
        place' = (r.apply declared .variable place.1, place.2))
      (Run.evalPath s (bound + 1) target)
      (Run.evalPath s (bound + 1) (target.rename r declared .variable)) := by
  rw [Run.evalPath.eq_def, Run.evalPath.eq_def s _ (target.rename r declared .variable)]
  dsimp only
  cases target with
  | ident node name =>
      exact mirrors_pure ⟨fun same => spared (List.mem_singleton.mpr same.symm), rfl⟩
  | index node receiver subscript =>
      rw [Expr.mentions, List.mem_append, not_or] at spared
      apply (all.evalPath receiver spared.1).bind
      rintro ⟨name, path⟩ _ ⟨different, rfl⟩
      apply (all.eval .variable subscript spared.2).bind
      rintro y _ rfl
      exact mirrors_pure ⟨different, rfl⟩
  | _ => exact mirrors_throw (.same _)

theorem mirrors_evalCall (ofVariables : r.role = .variable) (node : Node α) (callee : Expr α)
    (args : List (Expr α)) (spared : r.new ∉ callee.mentions)
    (spared' : r.new ∉ Expr.mentionsAll args) :
    Mirrors r global v declared declared Eq (Run.evalCall s (bound + 1) node callee args)
      (Run.evalCall s (bound + 1) node (callee.rename r declared .callee)
        (Expr.renameAll r declared args)) := by
  have applies {x y : Run Value} (label : String)
      (function : Mirrors r global v declared declared Eq x y) :
      Mirrors r global v declared declared Eq
        (do let function ← x
            let values ← Run.evalAll s bound args
            Run.apply s bound label function values node.span)
        (do let function ← y
            let values ← Run.evalAll s bound (Expr.renameAll r declared args)
            Run.apply s bound label function values node.span) := by
    apply function.bind
    rintro f _ rfl
    apply (all.evalAll args spared').bind
    rintro values _ rfl
    exact all.apply label f values node.span
  rw [Run.evalCall.eq_def, Run.evalCall.eq_def s _ node (callee.rename r declared .callee)]
  dsimp only
  cases callee with
  | ident calleeNode name =>
      have different : name ≠ r.new := fun same => spared (List.mem_singleton.mpr same.symm)
      have same : r.apply declared .callee name = name := Renaming.apply_callee ofVariables name
      have fetched : Mirrors r global v declared declared Eq
          (fetch name (.unresolvedMethod name) calleeNode.span)
          (fetch (r.apply declared .callee name) (.unresolvedMethod (r.apply declared .callee name))
            calleeNode.span) := mirrors_fetch different .unresolvedMethod calleeNode.span
      rw [same] at fetched
      dsimp only [Expr.rename]
      rw [same]
      exact applies name fetched
  | _ => exact applies "function" (all.eval .callee _ spared)

/-! ## Functions -/

theorem mirrors_apply (label : String) (function : Value) (args : List Value) (span : Span) :
    Mirrors r global v declared declared Eq (Run.apply s (bound + 1) label function args span)
      (Run.apply s (bound + 1) label function args span) := by
  rw [Run.apply.eq_def]
  dsimp only
  cases function with
  | function f =>
      cases f with
      | builtin f => exact mirrors_located _ _
      | declared f => exact all.enter f args span
      | host f =>
          dsimp only
          split
          · exact mirrors_pure rfl
          · exact mirrors_fail _ _
  | _ => exact mirrors_fail _ _

omit all in
theorem mirrors_enter (noFunctions : s.functions = []) (f : Closure) (args : List Value)
    (span : Span) :
    Mirrors r global v declared declared Eq (Run.enter s (bound + 1) f args span)
      (Run.enter s (bound + 1) f args span) := by
  rw [Run.enter_succ]
  split
  · exact mirrors_fail _ _
  · apply Mirrors.atDepth
    intro depth
    unfold Run.entered
    split
    · exact mirrors_fail _ _
    · apply (mirrors_inBody noFunctions f args bound).bind
      rintro flow _ rfl
      cases flow with
      | ret _ | next => exact mirrors_pure rfl
      | brk | cont => exact mirrors_fail _ _

/-! ## Statements -/

theorem mirrors_exec (stmt : Stmt α) (spared : r.new ∉ stmt.mentions) :
    Mirrors r global v declared (stmt.declared ++ declared) Eq (Run.exec s (bound + 1) stmt)
      (Run.exec s (bound + 1) (stmt.rename r declared)) := by
  rw [Run.exec.eq_def, Run.exec.eq_def s _ (stmt.rename r declared)]
  dsimp only
  rw [Stmt.span_rename]
  apply Mirrors.unlessCancelled
  cases stmt with
  | expr _ e =>
      apply (all.eval .variable e spared).bind
      exact fun _ _ _ => mirrors_pure rfl
  | varDecl node binder init =>
      rw [Stmt.mentions, List.mem_cons, not_or] at spared
      apply (all.eval .variable init spared.2).bind
      rintro value _ rfl
      apply (mirrors_define (Ne.symm spared.1) ⟨value, binder.mutable⟩).bind
      exact fun _ _ _ => mirrors_pure rfl
  | ret node value =>
      cases value with
      | none => exact mirrors_pure rfl
      | some e =>
          apply (all.eval .variable e spared).bind
          rintro x _ rfl
          exact mirrors_pure rfl
  | ifElse node cond thenBranch elseBranch =>
      simp only [Stmt.mentions, List.mem_append, not_or] at spared
      apply (all.eval .variable cond spared.1.1).bind
      rintro c _ rfl
      split
      · exact (all.exec thenBranch spared.1.2).inScope
      · cases elseBranch with
        | none => exact mirrors_pure rfl
        | some other => exact (all.exec other spared.2).inScope
  | whileLoop node cond body =>
      rw [Stmt.mentions, List.mem_append, not_or] at spared
      exact all.loop true (some cond) none body spared.1 List.not_mem_nil spared.2
  | doWhile node body cond =>
      rw [Stmt.mentions, List.mem_append, not_or] at spared
      exact all.loop false (some cond) none body spared.2 List.not_mem_nil spared.1
  | forLoop node init cond step body =>
      simp only [Stmt.mentions, List.mem_append, not_or] at spared
      rcases spared with ⟨⟨⟨initSpared, condSpared⟩, stepSpared⟩, bodySpared⟩
      cases init with
      | none => exact (all.loop true cond step body condSpared stepSpared bodySpared).inScope
      | some first =>
          exact ((all.exec first initSpared).bind fun _ _ _ =>
            all.loop true cond step body condSpared stepSpared bodySpared).inScope
  | forEach node binder iterable body =>
      simp only [Stmt.mentions, List.mem_append, List.mem_cons, not_or] at spared
      apply (all.eval .variable iterable spared.1.2).bind
      rintro items _ rfl
      cases items with
      | array items =>
          exact all.loopItems node binder body items (Ne.symm spared.1.1) spared.2
      | _ =>
          dsimp only
          rw [Expr.span_rename]
          exact mirrors_fail _ _
  | brk _ | cont _ => exact mirrors_pure rfl
  | block node stmts => exact (all.execAll stmts spared).inScope
  | function node written name params body =>
      simp only [Stmt.mentions, List.mem_append, List.mem_cons, not_or] at spared
      apply (mirrors_declare (Ne.symm spared.1.1) node.id (s.names.number name) params).bind
      exact fun _ _ _ => mirrors_pure rfl

theorem mirrors_execAll (stmts : List (Stmt α)) (spared : r.new ∉ Stmt.mentionsAll stmts) :
    Mirrors r global v declared (Stmt.boundAfter declared stmts) Eq
      (Run.execAll s (bound + 1) stmts)
      (Run.execAll s (bound + 1) (Stmt.renameAll r declared stmts)) := by
  cases stmts with
  | nil => exact mirrors_pure rfl
  | cons stmt rest =>
      rw [Stmt.mentionsAll, List.mem_append, not_or] at spared
      apply (all.exec stmt spared.1).bind
      rintro flow _ rfl
      -- What the statements left out would declare makes no difference.
      have skipped (flow : Flow) : Mirrors r global v (stmt.declared ++ declared)
          (Stmt.boundAfter declared (stmt :: rest)) Eq (pure flow) (pure flow) :=
        (mirrors_pure rfl).of_mem fun member => Stmt.subset_boundAfter _ rest member
      cases flow with
      | next => exact all.execAll rest spared.2
      | _ => exact skipped _

theorem mirrors_loop (tested : Bool) (cond step : Option (Expr α)) (body : Stmt α)
    (condSpared : r.new ∉ Expr.mentionsOption cond)
    (stepSpared : r.new ∉ Expr.mentionsOption step) (bodySpared : r.new ∉ body.mentions) :
    Mirrors r global v declared declared Eq (Run.loop s (bound + 1) tested cond step body)
      (Run.loop s (bound + 1) tested (cond.map (Expr.rename r declared .variable))
        (step.map (Expr.rename r declared .variable)) (body.rename r declared)) := by
  have again : Mirrors r global v declared declared Eq (Run.loop s bound true cond step body)
      (Run.loop s bound true (cond.map (Expr.rename r declared .variable))
        (step.map (Expr.rename r declared .variable)) (body.rename r declared)) :=
    all.loop true cond step body condSpared stepSpared bodySpared
  rw [Run.loop.eq_def, Run.loop.eq_def s _ tested (cond.map _)]
  dsimp only
  rw [Stmt.span_rename]
  apply Mirrors.unlessCancelled
  have round (goesOn : Bool) : Mirrors r global v declared declared Eq
      (Run.round s bound cond step body goesOn)
      (Run.round s bound (cond.map (Expr.rename r declared .variable))
        (step.map (Expr.rename r declared .variable)) (body.rename r declared) goesOn) := by
    unfold Run.round
    split
    · apply (all.exec body bodySpared).inScope.bind
      rintro flow _ rfl
      cases flow with
      | brk | ret _ => exact mirrors_pure rfl
      | next | cont =>
          cases step with
          | none => exact again
          | some e => exact (all.eval .variable e stepSpared).bind fun _ _ _ => again
    · exact mirrors_pure rfl
  cases cond with
  | none => exact round true
  | some e =>
      cases tested with
      | true =>
          have tests : Mirrors r global v declared declared Eq
              (Value.isTruthy <$> Run.eval s bound e)
              (Value.isTruthy <$> Run.eval s bound (e.rename r declared .variable)) := by
            rw [← bind_pure_comp, ← bind_pure_comp]
            apply (all.eval .variable e condSpared).bind
            rintro c _ rfl
            exact mirrors_pure rfl
          apply tests.bind
          rintro goesOn _ rfl
          exact round goesOn
      | false => exact round true

theorem mirrors_loopItems (node : StmtNode) (binder : Binder) (body : Stmt α) (items : List Value)
    (different : binder.name ≠ r.new) (spared : r.new ∉ body.mentions) :
    Mirrors r global v declared declared Eq (Run.loopItems s (bound + 1) node binder body items)
      (Run.loopItems s (bound + 1) node binder (body.rename r (binder.name :: declared))
        items) := by
  cases items with
  | nil => exact mirrors_pure rfl
  | cons item rest =>
      rw [Run.loopItems.eq_def, Run.loopItems.eq_def s _ node binder (body.rename r _)]
      dsimp only
      apply Mirrors.unlessCancelled
      apply (mirrors_loopItem binder node.span item).bind
      rintro value _ rfl
      have body' : Mirrors r global v (binder.name :: declared)
          (body.declared ++ binder.name :: declared) Eq (Run.exec s bound body)
          (Run.exec s bound (body.rename r (binder.name :: declared))) := all.exec body spared
      have round := (mirrors_define different ⟨value, binder.mutable⟩).bind fun _ _ _ => body'
      apply round.inScope.bind
      rintro flow _ rfl
      cases flow with
      | brk | ret _ => exact mirrors_pure rfl
      | next | cont => exact all.loopItems node binder body rest different spared

omit all in
theorem mirrorsAll (ofVariables : r.role = .variable) (global : Nat) (v : Value)
    (noFunctions : s.functions = []) (bound : Nat) : MirrorsAll r global v s bound := by
  induction bound with
  | zero =>
      constructor <;> intros <;> exact mirrors_throw (.same _)
  | succ bound all =>
      exact ⟨mirrors_eval all, mirrors_evalAll all, mirrors_evalCast all, mirrors_evalPath all,
        mirrors_evalCall all ofVariables, mirrors_apply all, mirrors_enter noFunctions,
        mirrors_exec all, mirrors_execAll all, mirrors_loop all, mirrors_loopItems all⟩

end

/-- What is run of a formula in the scope inside of the frame with the bindings from outside. -/
theorem mirrors_program (ofVariables : r.role = .variable) (noFunctions : s.functions = [])
    (bound : Nat) {p : Program α} (spared : r.new ∉ p.mentions) :
    Mirrors r global v [] (Stmt.boundAfter [] p.body) Eq
      (Run.inside s bound p) (Run.inside s bound (p.rename r).2) := by
  rw [Program.mentions, List.mem_append, not_or] at spared
  have all : MirrorsAll r global v s bound := mirrorsAll ofVariables global v noFunctions bound
  apply (all.execAll p.body spared.1).bind
  rintro flow _ rfl
  cases flow with
  | ret x => exact mirrors_pure rfl
  | brk | cont => exact mirrors_fail _ _
  | next =>
      dsimp only [Program.rename]
      cases tail : p.tail with
      | none => exact mirrors_pure rfl
      | some e =>
          rw [tail] at spared
          exact all.eval .variable e spared.2

end Run

/-- The formula with the variable renamed gives the same value, or it fails for the same reason,
on a machine where the new name is bound as well. -/
theorem Machine.run_renamed {α : Type} {r : Renaming} {s : Setting α}
    (ofVariables : r.role = .variable) (noFunctions : s.functions = []) {global : Nat} {v : Value}
    {m m' : Machine} (twins : m.Twins r global v [] m') (bound : Nat) {p : Program α}
    (spared : r.new ∉ p.mentions) :
    (∃ x, (m.run s bound p).1 = .ok x ∧ (m'.run s bound (p.rename r).2).1 = .ok x) ∨
      ∃ stop stop', (m.run s bound p).1 = .error stop ∧
        (m'.run s bound (p.rename r).2).1 = .error stop' ∧ stop.Renamed r stop' := by
  have mirrored := (Run.mirrors_program ofVariables noFunctions bound spared).inScope m m' twins
  unfold run
  rw [Run.program_eq, Run.program_eq]
  unfold Run.between
  dsimp only [id]
  revert mirrored
  generalize Run.inScope _ m = ended, Run.inScope _ m' = ended'
  intro mirrored
  cases mirrored with
  | ok twins upholds upholds' same =>
      subst same
      exact .inl ⟨_, rfl, rfl⟩
  | error renamed => exact .inr ⟨_, _, rfl, rfl, renamed⟩

end Formulae
