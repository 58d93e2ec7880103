import Formulae.Proofs.Run.Scoping
import Formulae.Proofs.Ty.Conversions

/-!
# Runs keep to the scopes of the text

Every step of the run of a checked formula looks names up as their meanings say
(`Layout.scopedAll`), and so does the run (`Layout.scoped_program`).
-/

namespace Formulae.Layout

variable {globals : TypeEnv} {start : Start} {s : Setting Ty} {uses : List Resolution}
  {layout : Layout} {scope : Scope}

namespace Known

variable {functions functions' : List (Nat × List TypedStmt)} {resolutions resolutions' :
  List Resolution}

theorem left (known : Known s uses (functions ++ functions') (resolutions ++ resolutions')) :
    Known s uses functions resolutions :=
  ⟨fun f member => known.bodies f (List.mem_append_left _ member),
    (List.append_subset.mp known.uses).1⟩

theorem right (known : Known s uses (functions ++ functions') (resolutions ++ resolutions')) :
    Known s uses functions' resolutions' :=
  ⟨fun f member => known.bodies f (List.mem_append_right _ member),
    (List.append_subset.mp known.uses).2⟩

/-- A statement behind an expression. -/
theorem behind (known : Known s uses functions (resolutions ++ resolutions')) :
    Known s uses functions resolutions' :=
  ⟨known.bodies, (List.append_subset.mp known.uses).2⟩

end Known

/-- All values are fine. -/
def FineAll (start : Start) (s : Setting Ty) (uses : List Resolution) (layout : Layout)
    (vs : List Value) : Prop :=
  ∀ v ∈ vs, layout.Fine start s uses v

theorem FineAll.grows {vs : List Value} {layout' : Layout} (fine : layout.FineAll start s uses vs)
    (grows : layout.Grows layout') : layout'.FineAll start s uses vs :=
  fun v member => (fine v member).grows grows

/-- A computation on values that makes data of them. -/
theorem evaluates_data {result : Except EvalFault Value} {span : Span}
    (givesData : Value.GivesData result) :
    Evaluates start s uses layout scope (Logged.lift (Run.located span result))
      fun after v => after.Fine start s uses v :=
  evaluates_located fun _ _ => Value.GivesData.gives (@Value.no_function_of_isData _) givesData

/-- A computation on values that hands on parts of them. -/
theorem evaluates_gives {result : Except EvalFault Value} {span : Span}
    (gives : ∀ after, layout.Grows after →
      Value.Gives (fun part => ∀ f, part = .function (.declared f) → after.Fits start s uses f)
        result) :
    Evaluates start s uses layout scope (Logged.lift (Run.located span result))
      fun after v => after.Fine start s uses v :=
  evaluates_located gives

/-! ## All steps at once -/

/-- Every step within a bound keeps to the scopes. -/
structure ScopedAll (start : Start) (s : Setting Ty) (uses : List Resolution) (bound : Nat) :
    Prop where
  eval : ∀ {layout scope} e, e.resolutions start.hosts scope .value ⊆ uses →
    Evaluates start s uses layout scope (Logged.eval s bound e)
      fun after v => after.Fine start s uses v
  evalAll : ∀ {layout scope} es, Expr.resolutionsAll start.hosts scope es ⊆ uses →
    Evaluates start s uses layout scope (Logged.evalAll s bound es)
      fun after vs => after.FineAll start s uses vs
  evalCast : ∀ {layout scope} node operand target,
    operand.resolutions start.hosts scope .value ⊆ uses →
    Evaluates start s uses layout scope (Logged.evalCast s bound node operand target)
      fun after v => after.Fine start s uses v
  evalPath : ∀ {layout scope} target, target.resolutions start.hosts scope .target ⊆ uses →
    Evaluates start s uses layout scope (Logged.evalPath s bound target)
      fun _ given => given.1 = target.root.name ∧ target.root.usage = .target ∧
        useIn start scope target.root ∈ uses
  evalCall : ∀ {layout scope} node callee args,
    callee.resolutions start.hosts scope .callee ⊆ uses →
    Expr.resolutionsAll start.hosts scope args ⊆ uses →
    Evaluates start s uses layout scope (Logged.evalCall s bound node callee args)
      fun after v => after.Fine start s uses v
  apply : ∀ {layout scope} label function args span, layout.Fine start s uses function →
    layout.FineAll start s uses args →
    Evaluates start s uses layout scope (Logged.apply s bound label function args span)
      fun after v => after.Fine start s uses v
  enter : ∀ {layout scope} f args span, layout.Fits start s uses f →
    layout.FineAll start s uses args →
    Evaluates start s uses layout scope (Logged.enter s bound f args span)
      fun after v => after.Fine start s uses v
  exec : ∀ {layout scope} stmt, Awaits scope stmt.declaration?.toList →
    Known s uses stmt.functions (stmt.resolutions start.hosts scope) →
    Step start s uses layout scope (Logged.exec s bound stmt) fun after id flow =>
      after.Follows start (stmt.after scope) id ∧ after.FineFlow start s uses flow
  execAll : ∀ {layout scope} stmts, Awaits scope (Stmt.declarations stmts) →
    Known s uses (Stmt.functionsAll stmts) (Stmt.resolutionsAll start.hosts scope stmts) →
    Executes start s uses layout scope (Stmt.afterAll scope stmts) (Logged.execAll s bound stmts)
  loop : ∀ {layout scope} tested cond step body,
    Expr.resolutionsOption start.hosts scope cond ⊆ uses →
    Expr.resolutionsOption start.hosts scope step ⊆ uses →
    Known s uses body.functions
      (body.resolutions start.hosts (scope.enter (Stmt.declarations [body]))) →
    Evaluates start s uses layout scope (Logged.loop s bound tested cond step body)
      fun after flow => after.FineFlow start s uses flow
  loopItems : ∀ {layout scope} node binder element body items,
    layout.FineAll start s uses items →
    Known s uses body.functions (body.resolutions start.hosts
      ((scope.enter (binder.declaration node element :: Stmt.declarations [body])).declare
        (binder.declaration node element))) →
    Evaluates start s uses layout scope
      (Logged.loopItems s bound node binder element body items)
      fun after flow => after.FineFlow start s uses flow

section

variable {bound : Nat} (all : ScopedAll start s uses bound) (relies : Relies globals start s uses)
include all

/-! ## Expressions -/

include relies in
/-- An assignment to the place that a path leads to. -/
theorem evaluates_assignment (layout : Layout) (node : Node Ty) (base : Option Operator)
    (left right : TypedExpr)
    (leftKnown : left.resolutions start.hosts scope .target ⊆ uses)
    (rightKnown : right.resolutions start.hosts scope .value ⊆ uses) :
    Evaluates start s uses layout scope
      (Logged.assignment s bound node base left right) fun after v => after.Fine start s uses v := by
  apply (all.evalPath left leftKnown).bind
  rintro later ⟨name, path⟩ _ ⟨isName, isTarget, member⟩
  obtain rfl : name = left.root.name := isName
  apply (all.eval right rightKnown).bind
  intro later value _ fine
  apply (evaluates_note member).bind
  intro later _ grows _
  exact evaluates_assign relies member isTarget _ base (fine.grows grows) node.span

include relies in
theorem scoped_eval (e : TypedExpr) (known : e.resolutions start.hosts scope .value ⊆ uses) :
    Evaluates start s uses layout scope (Logged.eval s (bound + 1) e)
      fun after v => after.Fine start s uses v := by
  rw [Logged.eval.eq_def]
  dsimp only
  cases e with
  | ident node name => exact evaluates_fetch relies (known (List.mem_singleton_self _)) _
  | constant node value => exact evaluates_data (Value.givesData_constant value)
  | unary node op operand =>
      exact (all.eval operand known).bind fun _ v _ _ => evaluates_data (Value.givesData_unary op v)
  | binary node op left right =>
      rw [Expr.resolutions, List.append_subset] at known
      have assigns (base : Option Operator) (isAssignment : op.isAssignment) :=
        evaluates_assignment all relies layout node base left right
          (by simpa [isAssignment] using known.1) known.2
      have plain (isPlain : op.isAssignment = false) :
          left.resolutions start.hosts scope .value ⊆ uses := by simpa [isPlain] using known.1
      have combines (isPlain : op.isAssignment = false) : Evaluates start s uses layout scope
          (do let x ← Logged.eval s bound left
              let y ← Logged.eval s bound right
              Logged.lift (Run.located node.span (x.binary op y)))
          fun after v => after.Fine start s uses v := by
        apply (all.eval left (plain isPlain)).bind
        intro _ x _ _
        apply (all.eval right known.2).bind
        exact fun _ y _ _ => evaluates_data (Value.givesData_binary op x y)
      have truth (b : Bool) {layout : Layout} : Evaluates start s uses layout scope
          (pure (.bool b) : Logged Value) fun after v => after.Fine start s uses v :=
        evaluates_pure fun _ _ => Value.functions_of_isData rfl
      cases op
      case typeCast => exact all.evalCast node left right (plain rfl)
      case and =>
        apply (all.eval left (plain rfl)).bind
        intro _ x _ _
        split
        · exact (all.eval right known.2).bind fun _ y _ _ => truth _
        · exact truth _
      case or =>
        apply (all.eval left (plain rfl)).bind
        intro _ x _ _
        split
        · exact truth _
        · exact (all.eval right known.2).bind fun _ y _ _ => truth _
      case assign | addAssign | subAssign | mulAssign | divAssign => exact assigns _ rfl
      all_goals exact combines rfl
  | ternary node cond thenBranch elseBranch =>
      simp only [Expr.resolutions, List.append_subset] at known
      apply (all.eval cond known.1.1).bind
      intro _ c _ _
      split
      · exact all.eval thenBranch known.1.2
      · exact all.eval elseBranch known.2
  | call node callee args =>
      rw [Expr.resolutions, List.append_subset] at known
      exact all.evalCall node callee args known.1 known.2
  | array node items =>
      apply (all.evalAll items known).bind
      intro later vs _ fine
      exact evaluates_pure fun _ grows => Value.every_array.mpr (fine.grows grows)
  | index node receiver subscript =>
      rw [Expr.resolutions, List.append_subset] at known
      apply (all.eval receiver known.1).bind
      intro later x _ fine
      apply (all.eval subscript known.2).bind
      intro later y grows _
      exact evaluates_gives fun _ grows' =>
        Value.gives_element (@Value.no_function_of_isData _) ((fine.grows grows).grows grows')
  | typeLiteral node type => exact step_fail rfl

theorem scoped_evalAll (es : List TypedExpr)
    (known : Expr.resolutionsAll start.hosts scope es ⊆ uses) :
    Evaluates start s uses layout scope (Logged.evalAll s (bound + 1) es)
      fun after vs => after.FineAll start s uses vs := by
  cases es with
  | nil => exact evaluates_pure fun _ _ => List.forall_mem_nil _
  | cons e rest =>
      rw [Expr.resolutionsAll, List.append_subset] at known
      apply (all.eval e known.1).bind
      intro later first _ fine
      apply (all.evalAll rest known.2).bind
      intro later others grows fine'
      exact evaluates_pure fun _ grows' => List.forall_mem_cons.mpr
        ⟨fine.grows (grows.trans grows'), fine'.grows grows'⟩

theorem scoped_evalCast (node : Node Ty) (operand target : TypedExpr)
    (known : operand.resolutions start.hosts scope .value ⊆ uses) :
    Evaluates start s uses layout scope (Logged.evalCast s (bound + 1) node operand target)
      fun after v => after.Fine start s uses v := by
  rw [Logged.evalCast.eq_def]
  dsimp only
  cases target with
  | typeLiteral _ type =>
      apply (all.eval operand known).bind
      intro later v _ fine
      exact evaluates_gives fun _ grows =>
        Value.gives_cast (@Value.no_function_of_isData _) _ (fine.grows grows)
  | _ => exact step_fail rfl

theorem scoped_evalPath (target : TypedExpr)
    (known : target.resolutions start.hosts scope .target ⊆ uses) :
    Evaluates start s uses layout scope (Logged.evalPath s (bound + 1) target)
      fun _ given => given.1 = target.root.name ∧ target.root.usage = .target ∧
        useIn start scope target.root ∈ uses := by
  rw [Logged.evalPath.eq_def]
  dsimp only
  cases target with
  | ident node name =>
      exact evaluates_pure fun _ _ => ⟨rfl, rfl, known (List.mem_singleton_self _)⟩
  | index node receiver subscript =>
      rw [Expr.resolutions, List.append_subset] at known
      apply (all.evalPath receiver known.1).bind
      rintro later ⟨name, path⟩ _ found
      apply (all.eval subscript known.2).bind
      exact fun _ v _ _ => evaluates_pure fun _ _ => found
  | _ => exact step_fail rfl

include relies in
theorem scoped_evalCall (node : Node Ty) (callee : TypedExpr) (args : List TypedExpr)
    (calleeKnown : callee.resolutions start.hosts scope .callee ⊆ uses)
    (argsKnown : Expr.resolutionsAll start.hosts scope args ⊆ uses) :
    Evaluates start s uses layout scope (Logged.evalCall s (bound + 1) node callee args)
      fun after v => after.Fine start s uses v := by
  have applies {x : Logged Value} {layout : Layout} (label : String)
      (gives : Evaluates start s uses layout scope x fun after v => after.Fine start s uses v) :
      Evaluates start s uses layout scope
        (do let function ← x
            let values ← Logged.evalAll s bound args
            Logged.apply s bound label function values node.span)
        fun after v => after.Fine start s uses v := by
    apply gives.bind
    intro later function _ fine
    apply (all.evalAll args argsKnown).bind
    intro later values grows fine'
    exact all.apply label function values node.span (fine.grows grows) fine'
  rw [Logged.evalCall.eq_def]
  dsimp only
  cases callee with
  | ident calleeNode name =>
      exact applies name (evaluates_fetch relies (calleeKnown (List.mem_singleton_self _)) _)
  | _ => exact applies "function" (all.eval _ calleeKnown)

/-! ## Calls -/

include relies in
theorem scoped_apply (label : String) (function : Value) (args : List Value) (span : Span)
    (fine : layout.Fine start s uses function) (fineArgs : layout.FineAll start s uses args) :
    Evaluates start s uses layout scope (Logged.apply s (bound + 1) label function args span)
      fun after v => after.Fine start s uses v := by
  rw [Logged.apply.eq_def]
  dsimp only
  cases function with
  | function f =>
      cases f with
      | builtin f =>
          exact evaluates_gives fun _ grows =>
            Value.gives_call (@Value.no_function_of_isData _) f (fineArgs.grows grows)
      | declared f => exact all.enter f args span (Value.functions_declared.mp fine) fineArgs
      | host f =>
          dsimp only
          cases given : s.hosts f.handle args with
          | ok v =>
              exact evaluates_pure fun _ grows =>
                relies.handsOn f.handle args v given _ (fineArgs.grows grows)
          | error reason => exact step_fail rfl
  | _ => exact step_fail rfl

omit all in
theorem Awaits.declareAll {ds rest : List Declaration} (awaits : Awaits scope (ds ++ rest)) :
    Awaits (scope.declareAll ds) rest := by
  induction ds generalizing scope with
  | nil => exact awaits
  | cons d others inductionHypothesis => exact inductionHypothesis awaits.tail

omit all in
theorem step_bindParams (function position : Nat) {params : List Param} {args : List Value}
    (length : args.length = params.length) {rest : List Declaration}
    (awaits : Awaits scope (Param.declarations function position params ++ rest))
    (fine : layout.FineAll start s uses args) :
    Step start s uses layout scope (Logged.bindParams function position params args)
      fun after id _ =>
        after.Follows start (scope.declareAll (Param.declarations function position params)) id := by
  induction params generalizing layout scope position args with
  | nil =>
      rw [List.length_eq_zero_iff.mp length]
      exact step_pure fun _ _ _ follows => follows
  | cons param others inductionHypothesis =>
      cases args with
      | nil => cases length
      | cons arg args =>
          have fine' := List.forall_mem_cons.mp fine
          rw [Logged.bindParams]
          apply (step_make awaits ?_).bind
          · intro later id _ grows follows
            exact ⟨_, follows, inductionHypothesis (position + 1) (Nat.succ.inj length) awaits.tail
              (FineAll.grows fine'.2 grows)⟩
          · intro before m grows _
            refine ⟨⟨arg, param.mutable⟩, defines_define m param.name _, ?_, fine'.1.grows grows⟩
            rw [Ty.isFinal_withFinal, Bool.not_not]

theorem scoped_enter (f : Closure) (args : List Value) (span : Span)
    (fits : layout.Fits start s uses f) (fine : layout.FineAll start s uses args) :
    Evaluates start s uses layout scope (Logged.enter s (bound + 1) f args span)
      fun after v => after.Fine start s uses v := by
  rw [Logged.enter_succ]
  split
  · exact step_fail rfl
  · next isLength =>
      have length : args.length = f.params.length := Decidable.not_not.mp isLength
      rcases fits with ⟨outer, captured, around, known⟩
      have runs : Evaluates start s uses layout scope
          (Logged.inBody s bound f args) fun after flow => after.FineFlow start s uses flow := by
        have awaits := awaits_enter (Param.declarations f.declaration 0 f.params
          ++ Stmt.declarations (s.body f.declaration)) outer
        apply Step.inCall captured around
        apply (step_bindParams f.declaration 0 length awaits fine).bind
        intro later id _ _ follows
        exact ⟨_, follows, (all.execAll _ awaits.declareAll known).mono fun _ _ _ _ ends => ends.1⟩
      intro before w
      have rest : Evaluates start s uses layout scope
          (Logged.entered s bound f args span w.machine.callDepth)
          fun after v => after.Fine start s uses v := by
        unfold Logged.entered
        split
        · exact step_fail rfl
        · apply runs.bind
          intro later flow _ fine
          cases flow with
          | ret v => exact evaluates_pure fun _ grows => Fine.grows fine grows
          | next => exact evaluates_pure fun _ _ => Value.functions_void
          | brk | cont => exact step_fail rfl
      exact rest before w

/-! ## Statements -/

omit all in
theorem evaluates_checkCancelled (span : Span) :
    Evaluates start s uses layout scope (Logged.lift (Run.checkCancelled s span))
      fun _ _ => True := by
  unfold Run.checkCancelled
  split
  · exact step_fail rfl
  · exact evaluates_pure fun _ _ => trivial

omit all in
theorem declarations_singleton (stmt : TypedStmt) :
    Stmt.declarations [stmt] = stmt.declaration?.toList := by
  unfold Stmt.declarations
  cases found : stmt.declaration? <;> simp [found]

/-- A statement in a scope of its own. -/
theorem evaluates_branch (stmt : TypedStmt)
    (known : Known s uses stmt.functions
      (stmt.resolutions start.hosts (scope.enter (Stmt.declarations [stmt])))) :
    Evaluates start s uses layout scope (Logged.inScope (Logged.exec s bound stmt))
      fun after flow => after.FineFlow start s uses flow := by
  have awaits := awaits_enter (Stmt.declarations [stmt]) scope
  apply Step.inScope (Stmt.declarations [stmt])
  exact (all.exec stmt (declarations_singleton stmt ▸ awaits) known).mono
    fun _ _ _ _ ends => ends.2

theorem scoped_exec (stmt : TypedStmt) (awaits : Awaits scope stmt.declaration?.toList)
    (known : Known s uses stmt.functions (stmt.resolutions start.hosts scope)) :
    Step start s uses layout scope (Logged.exec s (bound + 1) stmt) fun after id flow =>
      after.Follows start (stmt.after scope) id ∧ after.FineFlow start s uses flow := by
  rw [Logged.exec.eq_def]
  dsimp only
  apply (evaluates_checkCancelled _).bind
  intro layout _ _ _
  cases stmt with
  | expr _ e =>
      exact (all.eval e known.uses).bind fun _ _ _ _ => evaluates_pure fun _ _ => trivial
  | varDecl node binder init =>
      apply (all.eval init known.uses).bind
      intro later value _ fine
      apply (step_make awaits ?_).bind
      · intro later id _ _ follows
        exact ⟨_, follows, evaluates_pure fun _ _ => trivial⟩
      · intro before m grows _
        refine ⟨⟨value, binder.mutable⟩, defines_define m binder.name _, ?_, fine.grows grows⟩
        rw [Binder.declaration, Ty.isFinal_withFinal, Bool.not_not]
  | ret _ value =>
      cases value with
      | none => exact evaluates_pure fun _ _ => Value.functions_void
      | some e =>
          apply (all.eval e known.uses).bind
          exact fun _ v _ fine => evaluates_pure fun _ grows => fine.grows grows
  | ifElse _ cond thenBranch elseBranch =>
      have condKnown := (List.append_subset.mp (List.append_subset.mp known.uses).1).1
      apply (all.eval cond condKnown).bind
      intro later c _ _
      split
      · exact evaluates_branch all thenBranch (known.left.behind)
      · cases elseBranch with
        | none => exact evaluates_pure fun _ _ => trivial
        | some other => exact evaluates_branch all other known.right
  | whileLoop _ cond body =>
      have condKnown := (List.append_subset.mp known.uses).1
      exact all.loop true (some cond) none body condKnown nofun known.behind
  | doWhile _ body cond =>
      have condKnown := (List.append_subset.mp known.uses).1
      exact all.loop false (some cond) none body condKnown nofun known.behind
  | forLoop _ init cond step body =>
      have uses' := known.uses
      simp only [Stmt.resolutions, List.append_subset] at uses'
      rcases uses' with ⟨⟨⟨initUses, condUses⟩, stepUses⟩, bodyUses⟩
      have bodyKnown : Known s uses body.functions _ := ⟨known.right.bodies, bodyUses⟩
      apply Step.inScope (Stmt.declarationOption init)
      cases init with
      | none =>
          exact (all.loop true cond step body condUses stepUses bodyKnown).mono
            fun _ _ _ _ ends => ends.2
      | some first =>
          have awaits' := awaits_enter (Stmt.declarationOption (some first)) scope
          have firstKnown : Known s uses first.functions _ := ⟨known.left.bodies, initUses⟩
          have awaits'' : Awaits (scope.enter (Stmt.declarationOption (some first)))
              first.declaration?.toList := declarations_singleton first ▸ awaits'
          apply (all.exec first awaits'' firstKnown).bind
          intro later id _ _ ends
          refine ⟨_, ends.1, ?_⟩
          exact (all.loop true cond step body condUses stepUses bodyKnown).mono
            fun _ _ _ _ ends => ends.2
  | forEach node binder iterable body =>
      have iterableKnown := (List.append_subset.mp known.uses).1
      apply (all.eval iterable iterableKnown).bind
      intro later items _ fine
      cases items with
      | array items =>
          exact all.loopItems node binder _ body items (Value.every_array.mp fine) known.behind
      | _ => exact step_fail rfl
  | brk _ => exact evaluates_pure fun _ _ => trivial
  | cont _ => exact evaluates_pure fun _ _ => trivial
  | block _ stmts =>
      apply Step.inScope (Stmt.declarations stmts)
      exact (all.execAll stmts (awaits_enter _ _) known).mono fun _ _ _ _ ends => ends.1
  | function node written name params body =>
      have isBody : s.body node.id = body := known.bodies (node.id, body) List.mem_cons_self
      apply (step_make awaits ?_).bind
      · intro later id _ _ follows
        exact ⟨_, follows, evaluates_pure fun _ _ => trivial⟩
      · intro before m grows follows
        have fits : before.Fits start s uses
            ⟨m.store.declared, node.id, name, s.names.number name, params, m.env.current⟩ := by
          refine ⟨_, ?_, follows.capture, ?_⟩
          · exact List.forall_mem_map.mpr fun _ _ => rfl
          · rw [isBody]
            exact ⟨fun f member => known.bodies f (List.mem_cons_of_mem _ member), known.uses⟩
        exact ⟨_, defines_declare m node.id name _ params, rfl, Value.functions_declared.mpr fits⟩

theorem scoped_execAll (stmts : List TypedStmt) (awaits : Awaits scope (Stmt.declarations stmts))
    (known : Known s uses (Stmt.functionsAll stmts)
      (Stmt.resolutionsAll start.hosts scope stmts)) :
    Executes start s uses layout scope (Stmt.afterAll scope stmts)
      (Logged.execAll s (bound + 1) stmts) := by
  cases stmts with
  | nil => exact step_pure fun _ _ _ follows => ⟨trivial, follows⟩
  | cons stmt rest =>
      have split : Stmt.declarations (stmt :: rest) =
          stmt.declaration?.toList ++ Stmt.declarations rest := by
        rw [← declarations_singleton]
        exact @List.filterMap_append _ _ [stmt] rest Stmt.declaration?
      rw [split] at awaits
      have first : Awaits scope stmt.declaration?.toList := by
        rcases awaits with ⟨frame, outer, others, rfl, current, next⟩
        exact ⟨frame, outer, _, rfl, current, next.trans (List.append_assoc _ _ _)⟩
      rw [Logged.execAll]
      apply (all.exec stmt first known.left).bind
      intro later id flow _ ends
      refine ⟨_, ends.1, ?_⟩
      cases flow with
      | next => exact all.execAll rest awaits.declareAll known.right
      | ret v => exact step_pure fun _ _ grows follows => ⟨Fine.grows ends.2 grows, _, follows⟩
      | brk | cont => exact step_pure fun _ _ _ follows => ⟨trivial, _, follows⟩

theorem scoped_loop (tested : Bool) (cond step : Option TypedExpr) (body : TypedStmt)
    (condKnown : Expr.resolutionsOption start.hosts scope cond ⊆ uses)
    (stepKnown : Expr.resolutionsOption start.hosts scope step ⊆ uses)
    (bodyKnown : Known s uses body.functions
      (body.resolutions start.hosts (scope.enter (Stmt.declarations [body])))) :
    Evaluates start s uses layout scope (Logged.loop s (bound + 1) tested cond step body)
      fun after flow => after.FineFlow start s uses flow := by
  have again (layout : Layout) : Evaluates start s uses layout scope
      (Logged.loop s bound true cond step body)
      fun after flow => after.FineFlow start s uses flow :=
    all.loop true cond step body condKnown stepKnown bodyKnown
  have round (goes : Bool) (layout : Layout) : Evaluates start s uses layout scope
      (Logged.round s bound cond step body goes)
      fun after flow => after.FineFlow start s uses flow := by
    unfold Logged.round
    split
    · apply (evaluates_branch all body bodyKnown).bind
      intro later flow _ fine
      cases flow with
      | brk => exact evaluates_pure fun _ _ => trivial
      | ret v => exact evaluates_pure fun _ grows => Fine.grows fine grows
      | next | cont =>
          cases step with
          | none => exact again later
          | some e => exact (all.eval e stepKnown).bind fun later _ _ _ => again later
    · exact evaluates_pure fun _ _ => trivial
  rw [Logged.loop.eq_def]
  dsimp only
  apply (evaluates_checkCancelled _).bind
  intro later _ grows _
  cases cond with
  | none => exact round true later
  | some e =>
      cases tested with
      | false => exact round true later
      | true =>
          have tests : Evaluates start s uses later scope
              (Value.isTruthy <$> Logged.eval s bound e) fun _ _ => True :=
            (all.eval e condKnown).bind fun _ _ _ _ => evaluates_pure fun _ _ => trivial
          exact tests.bind fun later goes _ _ => round goes later

omit all in
theorem evaluates_loopItem (binder : Binder) (span : Span) {item : Value}
    (fine : layout.Fine start s uses item) :
    Evaluates start s uses layout scope (Logged.lift (Run.loopItem binder span item))
      fun after v => after.Fine start s uses v := by
  unfold Run.loopItem
  split
  · exact evaluates_gives fun _ grows =>
      Value.gives_cast (@Value.no_function_of_isData _) _ (fine.grows grows)
  · exact evaluates_pure fun _ grows => fine.grows grows

theorem scoped_loopItems (node : StmtNode) (binder : Binder) (element : Ty) (body : TypedStmt)
    (items : List Value) (fine : layout.FineAll start s uses items)
    (known : Known s uses body.functions (body.resolutions start.hosts
      ((scope.enter (binder.declaration node element :: Stmt.declarations [body])).declare
        (binder.declaration node element)))) :
    Evaluates start s uses layout scope
      (Logged.loopItems s (bound + 1) node binder element body items)
      fun after flow => after.FineFlow start s uses flow := by
  cases items with
  | nil => exact evaluates_pure fun _ _ => trivial
  | cons item rest =>
      have fine' := List.forall_mem_cons.mp fine
      rw [Logged.loopItems]
      apply (evaluates_checkCancelled _).bind
      intro later _ grows _
      apply (evaluates_loopItem binder node.span (fine'.1.grows grows)).bind
      intro later value grows' fineValue
      have awaits := awaits_enter
        (binder.declaration node element :: Stmt.declarations [body]) scope
      have round : Evaluates start s uses later scope
          (Logged.inScope do
            Logged.make (binder.declaration node element)
              (·.define binder.name ⟨value, binder.mutable⟩)
            Logged.exec s bound body)
          fun after flow => after.FineFlow start s uses flow := by
        apply Step.inScope (binder.declaration node element :: Stmt.declarations [body])
        apply (step_make awaits ?_).bind
        · intro later id _ _ follows
          refine ⟨_, follows, ?_⟩
          have awaits' := declarations_singleton body ▸ awaits.tail
          exact (all.exec body awaits' known).mono fun _ _ _ _ ends => ends.2
        · intro before m grows _
          refine ⟨⟨value, binder.mutable⟩, defines_define m binder.name _, ?_,
            fineValue.grows grows⟩
          rw [Binder.declaration, Ty.isFinal_withFinal, Bool.not_not]
      apply round.bind
      intro last flow grows'' fineFlow
      cases flow with
      | brk => exact evaluates_pure fun _ _ => trivial
      | ret v => exact evaluates_pure fun _ grows => Fine.grows fineFlow grows
      | next | cont =>
          exact all.loopItems node binder element body rest
            (FineAll.grows fine'.2 (grows.trans (grows'.trans grows''))) known

end

theorem scopedAll (relies : Relies globals start s uses) (bound : Nat) :
    ScopedAll start s uses bound := by
  induction bound with
  | zero => constructor <;> intros <;> exact step_throw trivial
  | succ bound all =>
      exact
        { eval := scoped_eval all relies
          evalAll := scoped_evalAll all
          evalCast := scoped_evalCast all
          evalPath := scoped_evalPath all
          evalCall := scoped_evalCall all relies
          apply := scoped_apply all relies
          enter := scoped_enter all
          exec := scoped_exec all
          execAll := scoped_execAll all
          loop := scoped_loop all
          loopItems := scoped_loopItems all }

end Formulae.Layout
