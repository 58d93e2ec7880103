import Formulae.Proofs.Run.Unseen

/-!
# Runs that do not see a binding

No step of a run looks a name up where it is hidden, as long as the names that a tree uses
without declaring them are not hidden (`Run.unawareAll`).  So runs of a formula from machines
that show the same have the same outcome (`Run.unaware_program`).
-/

namespace Formulae

variable {α : Type} {view : View} {s : Setting α}

/-- The functions have these bodies in the setting. -/
def Setting.Holds (s : Setting α) (functions : List (Nat × List (Stmt α))) : Prop :=
  ∀ function ∈ functions, s.body function.1 = function.2

/-- What is declared inside of functions has its body in the setting as well. -/
def Setting.Closed (s : Setting α) : Prop :=
  ∀ declaration, s.Holds (Stmt.functionsAll (s.body declaration))

theorem Setting.holds_append {functions functions' : List (Nat × List (Stmt α))} :
    s.Holds (functions ++ functions') ↔ s.Holds functions ∧ s.Holds functions' :=
  List.forall_mem_append

/-- What a statement returns is discreet. -/
def Flow.Discreet (view : View) (s : Setting α) (store : Store) (flow : Flow) : Prop :=
  ∀ v, flow = .ret v → v.Discreet view s store

/-- All of the values are discreet. -/
abbrev Value.DiscreetAll (view : View) (s : Setting α) (store : Store) (vs : List Value) : Prop :=
  ∀ v ∈ vs, v.Discreet view s store

theorem Expr.declared_of_spared {declared : List String} {node : Node α} {name key : String}
    (spared : key ∉ (Expr.ident node name).names declared) : name = key → key ∈ declared := by
  rintro rfl
  refine Classical.byContradiction fun undeclared => spared ?_
  simp [Expr.names, Expr.free, Expr.occurrence, undeclared]

namespace Run

theorem lasting_discreetAll (vs : List Value) :
    Lasting fun m => Value.DiscreetAll view s m.store vs :=
  fun _ _ becomes fine v member => Value.Discreet.extends (fine v member) becomes.store

/-- Every step within a bound ends in the same way on machines that show the same. -/
structure UnawareAll (view : View) (s : Setting α) (bound : Nat) : Prop where
  eval : ∀ {declared} e, view.name ∉ e.names declared →
    Unseen view s (Machine.Sees view declared) (Run.eval s bound e)
      fun m v => v.Discreet view s m.store
  evalAll : ∀ {declared} es, view.name ∉ Expr.namesAll declared es →
    Unseen view s (Machine.Sees view declared) (Run.evalAll s bound es)
      fun m vs => Value.DiscreetAll view s m.store vs
  evalCast : ∀ {declared} node operand target, view.name ∉ operand.names declared →
    Unseen view s (Machine.Sees view declared) (Run.evalCast s bound node operand target)
      fun m v => v.Discreet view s m.store
  evalPath : ∀ {declared} target, view.name ∉ target.names declared →
    Unseen view s (Machine.Sees view declared) (Run.evalPath s bound target)
      fun _ place => place.1 = view.name → view.name ∈ declared
  evalCall : ∀ {declared} node callee args, view.name ∉ callee.names declared →
    view.name ∉ Expr.namesAll declared args →
    Unseen view s (Machine.Sees view declared) (Run.evalCall s bound node callee args)
      fun m v => v.Discreet view s m.store
  apply : ∀ label function args span,
    Unseen view s
      (fun m => function.Discreet view s m.store ∧ Value.DiscreetAll view s m.store args)
      (Run.apply s bound label function args span) fun m v => v.Discreet view s m.store
  enter : ∀ f args span,
    Unseen view s
      (fun m => Closure.Discreet view s m.store f ∧ Value.DiscreetAll view s m.store args)
      (Run.enter s bound f args span) fun m v => v.Discreet view s m.store
  exec : ∀ {declared} stmt, s.Holds stmt.functions → view.name ∉ stmt.names declared →
    Unseen view s (Machine.Sees view declared) (Run.exec s bound stmt)
      fun m flow => m.Sees view (stmt.declared ++ declared) ∧ flow.Discreet view s m.store
  execAll : ∀ {declared} stmts, s.Holds (Stmt.functionsAll stmts) →
    view.name ∉ Stmt.namesAll declared stmts →
    Unseen view s (Machine.Sees view declared) (Run.execAll s bound stmts)
      fun m flow => (flow = .next → m.Sees view (Stmt.boundAfter declared stmts)) ∧
        flow.Discreet view s m.store
  loop : ∀ {declared} tested cond step body, s.Holds body.functions →
    view.name ∉ Expr.namesOption declared cond → view.name ∉ Expr.namesOption declared step →
    view.name ∉ body.names declared →
    Unseen view s (Machine.Sees view declared) (Run.loop s bound tested cond step body)
      fun m flow => flow.Discreet view s m.store
  loopItems : ∀ {declared} node binder body items, s.Holds body.functions →
    view.name ∉ body.names (binder.name :: declared) →
    Unseen view s
      (fun m => m.Sees view declared ∧ Value.DiscreetAll view s m.store items)
      (Run.loopItems s bound node binder body items)
      fun m flow => flow.Discreet view s m.store

section

variable {bound : Nat} (all : UnawareAll view s bound) {declared : List String}
include all

/-! ## Expressions -/

/-- An assignment to the place that a path leads to. -/
theorem unaware_assignment (node : Node α) (base : Option Operator) (left right : Expr α)
    (spared : view.name ∉ left.names declared) (spared' : view.name ∉ right.names declared) :
    Unseen view s (Machine.Sees view declared)
      (Run.assignment s bound node base left right) fun m v => v.Discreet view s m.store := by
  apply (all.evalPath left spared).bind (lasting_sees view declared)
  rintro ⟨name, path⟩
  have lasting : Lasting fun m : Machine => m.Sees view declared ∧
      (name = view.name → view.name ∈ declared) :=
    (lasting_sees view declared).and fun _ _ _ h => h
  apply Unseen.bind ((all.eval right spared').given fun _ h => h.1) lasting
  intro value m m' alike guarded ⟨⟨sees, isDeclared⟩, fine⟩
  exact unseen_assign isDeclared path.reverse base value node.span m m' alike guarded ⟨sees, fine⟩

theorem unaware_eval (e : Expr α) (spared : view.name ∉ e.names declared) :
    Unseen view s (Machine.Sees view declared) (Run.eval s (bound + 1) e)
      fun m v => v.Discreet view s m.store := by
  have lasting := lasting_sees view declared
  rw [Run.eval.eq_def]
  dsimp only
  cases e with
  | ident node name => exact unseen_fetch (Expr.declared_of_spared spared) _ _
  | constant node value => exact unseen_data _ (Value.givesData_constant value)
  | unary node op operand =>
      exact (all.eval operand spared).bind lasting fun v => unseen_data _ (Value.givesData_unary op v)
  | binary node op left right =>
      rw [Expr.names_binary, List.mem_append, not_or] at spared
      have first := all.eval left spared.1
      have second := all.eval right spared.2
      have truth {pre : Machine → Prop} (b : Bool) :
          Unseen view s pre (pure (Value.bool b)) fun m v => v.Discreet view s m.store :=
        unseen_pure fun _ _ => Value.functions_of_isData rfl
      have decides {first : Value} : Unseen view s
          (fun m => m.Sees view declared ∧ first.Discreet view s m.store)
          (do return Value.bool (← Run.eval s bound right).isTruthy)
          fun m v => v.Discreet view s m.store :=
        (second.given fun _ h => h.1).bind (lasting.and (lasting_discreet _))
          fun _ => truth _
      have combines : Unseen view s (Machine.Sees view declared)
          (do let x ← Run.eval s bound left
              let y ← Run.eval s bound right
              located node.span (x.binary op y)) fun m v => v.Discreet view s m.store :=
        first.bind lasting fun x =>
          (second.given fun _ h => h.1).bind (lasting.and (lasting_discreet _))
            fun y => unseen_data _ (Value.givesData_binary op x y)
      have assigns (base : Option Operator) :=
        unaware_assignment all node base left right spared.1 spared.2
      cases op
      case typeCast => exact all.evalCast node left right spared.1
      case and =>
        apply first.bind lasting
        intro x
        split
        · exact decides
        · exact truth _
      case or =>
        apply first.bind lasting
        intro x
        split
        · exact truth _
        · exact decides
      case assign | addAssign | subAssign | mulAssign | divAssign => exact assigns _
      all_goals exact combines
  | ternary node cond thenBranch elseBranch =>
      simp only [Expr.names_ternary, List.mem_append, not_or] at spared
      apply (all.eval cond spared.1.1).seq lasting
      intro c
      split
      · exact all.eval thenBranch spared.1.2
      · exact all.eval elseBranch spared.2
  | call node callee args =>
      rw [Expr.names_call, List.mem_append, not_or] at spared
      exact all.evalCall node callee args spared.1 spared.2
  | array node items =>
      apply (all.evalAll items spared).bind lasting
      exact fun vs => unseen_pure fun _ h => Value.every_array.mpr h.2
  | index node receiver subscript =>
      rw [Expr.names_index, List.mem_append, not_or] at spared
      apply (all.eval receiver spared.1).bind lasting
      intro x
      apply Unseen.bind ((all.eval subscript spared.2).given fun _ h => h.1)
        (lasting.and (lasting_discreet x))
      exact fun y => unseen_located _ fun _ h _ => discreet_of_gives
        (Value.gives_element (@Value.no_function_of_isData _) h.1.2)
  | typeLiteral node type => exact unseen_fail _ _

theorem unaware_evalAll (es : List (Expr α)) (spared : view.name ∉ Expr.namesAll declared es) :
    Unseen view s (Machine.Sees view declared) (Run.evalAll s (bound + 1) es)
      fun m vs => Value.DiscreetAll view s m.store vs := by
  cases es with
  | nil => exact unseen_pure fun _ _ => List.forall_mem_nil _
  | cons e rest =>
      rw [Expr.namesAll_cons, List.mem_append, not_or] at spared
      apply (all.eval e spared.1).bind (lasting_sees view declared)
      intro first
      apply Unseen.bind ((all.evalAll rest spared.2).given fun _ h => h.1)
        ((lasting_sees view declared).and (lasting_discreet first))
      exact fun others => unseen_pure fun _ h => List.forall_mem_cons.mpr ⟨h.1.2, h.2⟩

theorem unaware_evalCast (node : Node α) (operand target : Expr α)
    (spared : view.name ∉ operand.names declared) :
    Unseen view s (Machine.Sees view declared) (Run.evalCast s (bound + 1) node operand target)
      fun m v => v.Discreet view s m.store := by
  rw [Run.evalCast.eq_def]
  dsimp only
  cases target with
  | typeLiteral _ type =>
      apply (all.eval operand spared).bind (lasting_sees view declared)
      exact fun v => (unseen_cast _ v _).given fun _ h => h.2
  | _ => exact unseen_fail _ _

theorem unaware_evalPath (target : Expr α) (spared : view.name ∉ target.names declared) :
    Unseen view s (Machine.Sees view declared) (Run.evalPath s (bound + 1) target)
      fun _ place => place.1 = view.name → view.name ∈ declared := by
  rw [Run.evalPath.eq_def]
  dsimp only
  cases target with
  | ident node name => exact unseen_pure fun _ _ => Expr.declared_of_spared spared
  | index node receiver subscript =>
      rw [Expr.names_index, List.mem_append, not_or] at spared
      apply (all.evalPath receiver spared.1).bind (lasting_sees view declared)
      rintro ⟨name, path⟩
      have lasting : Lasting fun m : Machine => m.Sees view declared ∧
          (name = view.name → view.name ∈ declared) :=
        (lasting_sees view declared).and fun _ _ _ h => h
      apply Unseen.bind ((all.eval subscript spared.2).given fun _ h => h.1) lasting
      exact fun _ => unseen_pure fun _ h => h.1.2
  | _ => exact unseen_fail _ _

theorem unaware_evalCall (node : Node α) (callee : Expr α) (args : List (Expr α))
    (spared : view.name ∉ callee.names declared)
    (spared' : view.name ∉ Expr.namesAll declared args) :
    Unseen view s (Machine.Sees view declared) (Run.evalCall s (bound + 1) node callee args)
      fun m v => v.Discreet view s m.store := by
  have applies {x : Run Value} (label : String)
      (gives : Unseen view s (Machine.Sees view declared) x fun m v => v.Discreet view s m.store) :
      Unseen view s (Machine.Sees view declared)
        (do let function ← x
            let values ← Run.evalAll s bound args
            Run.apply s bound label function values node.span)
        fun m v => v.Discreet view s m.store := by
    apply gives.bind (lasting_sees view declared)
    intro function
    apply Unseen.bind ((all.evalAll args spared').given fun _ h => h.1)
      ((lasting_sees view declared).and (lasting_discreet function))
    exact fun values => (all.apply label function values node.span).given
      fun _ h => ⟨h.1.2, h.2⟩
  rw [Run.evalCall.eq_def]
  dsimp only
  cases callee with
  | ident calleeNode name =>
      exact applies name (unseen_fetch (Expr.declared_of_spared spared) _ _)
  | _ => exact applies "function" (all.eval _ spared)

/-! ## Calls -/

theorem unaware_apply (handsOn : HandsOn s.hosts) (label : String) (function : Value)
    (args : List Value) (span : Span) :
    Unseen view s
      (fun m => function.Discreet view s m.store ∧ Value.DiscreetAll view s m.store args)
      (Run.apply s (bound + 1) label function args span)
      fun m v => v.Discreet view s m.store := by
  rw [Run.apply.eq_def]
  dsimp only
  cases function with
  | function f =>
      cases f with
      | builtin f =>
          exact unseen_located _ fun _ h _ => discreet_of_gives
            (Value.gives_call (@Value.no_function_of_isData _) f h.2)
      | declared f =>
          exact (all.enter f args span).given
            fun _ h => ⟨Value.functions_declared.mp h.1, h.2⟩
      | host f =>
          dsimp only
          cases given : s.hosts f.handle args with
          | ok v => exact unseen_pure fun _ h => handsOn f.handle args v given _ h.2
          | error reason => exact unseen_fail _ _
  | _ => exact unseen_fail _ _

/-- The body of a function is executed where the function was declared.  There a scope around
it shields the name, or the body does not use it. -/
theorem unaware_inBody (closed : s.Closed) (f : Closure) {args : List Value}
    (count : args.length = f.params.length) :
    Unseen view s
      (fun m => Closure.Discreet view s m.store f ∧ Value.DiscreetAll view s m.store args)
      (Run.inBody s bound f args) fun m flow => flow.Discreet view s m.store := by
  apply unseen_of_each
  rintro m ⟨discreet, fine⟩
  rcases discreet.spared with ⟨around, shields, spared⟩
  have inside := (unseen_bindParams around count).bind
    ((lasting_sees view around).and (lasting_discreetAll args)) fun _ =>
      ((all.execAll _ (closed f.declaration) spared).mono (fun _ h => h.2) fun _ _ h => h.2)
  apply inside.inCall
  · rintro m guarded rfl
    have called : Machine.Guarded view s
        { m with env := .ofFrame f.frame, callers := m.env :: m.callers } :=
      ⟨guarded.fresh, guarded.discreet⟩
    refine ⟨Machine.sees_pushScope called discreet.inStore discreet.inside shields, ?_⟩
    exact fun arg member => Value.Discreet.extends (fine arg member)
      (Machine.extends_pushScope { m with env := .ofFrame f.frame, callers := m.env :: m.callers })
  · intro n flow fine
    have same : n.leaveCall.store = n.store := by
      unfold Machine.leaveCall
      split <;> rfl
    exact fun v isReturn => same ▸ fine v isReturn

theorem unaware_enter (closed : s.Closed) (f : Closure) (args : List Value) (span : Span) :
    Unseen view s
      (fun m => Closure.Discreet view s m.store f ∧ Value.DiscreetAll view s m.store args)
      (Run.enter s (bound + 1) f args span) fun m v => v.Discreet view s m.store := by
  rw [Run.enter_succ]
  split
  · exact unseen_fail _ _
  · next count =>
      apply Unseen.atDepth
      intro depth
      unfold Run.entered
      split
      · exact unseen_fail _ _
      · have lasting : Lasting fun m : Machine => Closure.Discreet view s m.store f ∧
            Value.DiscreetAll view s m.store args :=
          Lasting.and (fun _ _ becomes discreet => discreet.extends becomes.store)
            (lasting_discreetAll args)
        apply (unaware_inBody all closed f (Classical.not_not.mp count)).bind lasting
        intro flow
        cases flow with
        | ret v => exact unseen_pure fun _ h => h.2 v rfl
        | next => exact unseen_pure fun _ _ => Value.functions_void
        | brk | cont => exact unseen_fail _ _

/-! ## Statements -/

omit all in
/-- A statement that declares nothing leaves what is seen as it was. -/
theorem Unseen.plain {x : Run Flow} {stmt : Stmt α} (isPlain : stmt.declared = [])
    (unseen : Unseen view s (Machine.Sees view declared) x
      fun m flow => flow.Discreet view s m.store) :
    Unseen view s (Machine.Sees view declared) x
      fun m flow => m.Sees view (stmt.declared ++ declared) ∧ flow.Discreet view s m.store := by
  rw [isPlain]
  exact unseen.keeping (lasting_sees view declared)

omit all in
theorem discreet_nothing {store : Store} {flow : Flow} (nothing : flow.value? = none) :
    flow.Discreet view s store :=
  fun v isReturn => absurd isReturn (flow.ne_ret nothing v)

omit all in
theorem unseen_flow {pre : Machine → Prop} {flow : Flow} (nothing : flow.value? = none) :
    Unseen view s pre (pure flow) fun m flow => flow.Discreet view s m.store :=
  unseen_pure fun _ _ => discreet_nothing nothing

/-- A statement in a scope of its own. -/
theorem unaware_branch (stmt : Stmt α) (holds : s.Holds stmt.functions)
    (spared : view.name ∉ stmt.names declared) :
    Unseen view s (Machine.Sees view declared) (inScope (Run.exec s bound stmt))
      fun m flow => flow.Discreet view s m.store :=
  (all.exec stmt holds spared).inScope (fun _ guarded sees => sees.pushScope guarded)
    fun _ _ h => h.2

theorem unaware_exec (stmt : Stmt α) (holds : s.Holds stmt.functions)
    (spared : view.name ∉ stmt.names declared) :
    Unseen view s (Machine.Sees view declared) (Run.exec s (bound + 1) stmt)
      fun m flow => m.Sees view (stmt.declared ++ declared) ∧ flow.Discreet view s m.store := by
  have lasting := lasting_sees view declared
  rw [Run.exec.eq_def]
  dsimp only
  apply Unseen.unlessCancelled _ lasting
  cases stmt with
  | expr _ e =>
      apply Unseen.plain rfl
      exact (all.eval e spared).seq lasting fun _ => unseen_flow rfl
  | varDecl node binder init =>
      apply (all.eval init spared).bind lasting
      intro value
      apply Unseen.bind (unseen_define binder.name ⟨value, binder.mutable⟩)
        (lasting.and (lasting_discreet value))
      exact fun _ => unseen_pure fun _ h => ⟨h.2, discreet_nothing rfl⟩
  | ret node value =>
      apply Unseen.plain rfl
      cases value with
      | none =>
          apply unseen_pure
          rintro _ _ _ ⟨⟩
          exact Value.functions_void
      | some e =>
          apply (all.eval e spared).bind lasting
          intro v
          apply unseen_pure
          rintro _ h _ ⟨⟩
          exact h.2
  | ifElse node cond thenBranch elseBranch =>
      rw [Stmt.functions, Setting.holds_append] at holds
      simp only [Stmt.names_ifElse, List.mem_append, not_or] at spared
      apply Unseen.plain rfl
      apply (all.eval cond spared.1.1).seq lasting
      intro c
      split
      · exact unaware_branch all thenBranch holds.1 spared.1.2
      · cases elseBranch with
        | none => exact unseen_flow rfl
        | some other => exact unaware_branch all other holds.2 spared.2
  | whileLoop node cond body =>
      rw [Stmt.names_whileLoop, List.mem_append, not_or] at spared
      apply Unseen.plain rfl
      exact all.loop true (some cond) none body holds spared.1 List.not_mem_nil spared.2
  | doWhile node body cond =>
      rw [Stmt.names_doWhile, List.mem_append, not_or] at spared
      apply Unseen.plain rfl
      exact all.loop false (some cond) none body holds spared.2 List.not_mem_nil spared.1
  | forLoop node init cond step body =>
      rw [Stmt.functions, Setting.holds_append] at holds
      simp only [Stmt.names_forLoop, List.mem_append, not_or] at spared
      rcases spared with ⟨⟨⟨initSpared, condSpared⟩, stepSpared⟩, bodySpared⟩
      have rounds := all.loop true cond step body holds.2 condSpared stepSpared bodySpared
      apply Unseen.plain rfl
      have enters (m : Machine) (guarded : m.Guarded view s) (sees : m.Sees view declared) :
          m.pushScope.Sees view declared := sees.pushScope guarded
      cases init with
      | none => exact rounds.inScope enters fun _ _ => id
      | some first =>
          have starts := (all.exec first holds.1 initSpared).bind lasting fun _ =>
            rounds.given fun _ h => h.2.1
          exact starts.inScope enters fun _ _ => id
  | forEach node binder iterable body =>
      rw [Stmt.names_forEach, List.mem_append, not_or] at spared
      apply Unseen.plain rfl
      apply (all.eval iterable spared.1).bind lasting
      intro items
      cases items with
      | array items =>
          exact (all.loopItems node binder body items holds spared.2).given
            fun _ h => ⟨h.1, Value.every_array.mp h.2⟩
      | _ => exact unseen_fail _ _
  | brk _ | cont _ => exact Unseen.plain rfl (unseen_flow rfl)
  | block node stmts =>
      apply Unseen.plain rfl
      exact (all.execAll stmts holds spared).inScope (fun _ guarded sees => sees.pushScope guarded)
        fun _ _ h => h.2
  | function node written name params body =>
      have same : s.body node.id = body := holds (node.id, body) List.mem_cons_self
      have declares : Unseen view s (Machine.Sees view declared)
          (modify (·.declare node.id name (s.names.number name) params))
          fun m _ => m.Sees view (name :: declared) := by
        apply unseen_modify
        intro m m' alike guarded sees
        refine ⟨alike.declare sees.inStore _ _ _ _, guarded.declare sees node name _ params ?_,
          Machine.becomes_declare m _ _ _ _, sees.declare _ _ _ _⟩
        rw [same]
        exact spared
      exact declares.bind lasting fun _ => unseen_pure fun _ h => ⟨h.2, discreet_nothing rfl⟩

theorem unaware_execAll (stmts : List (Stmt α)) (holds : s.Holds (Stmt.functionsAll stmts))
    (spared : view.name ∉ Stmt.namesAll declared stmts) :
    Unseen view s (Machine.Sees view declared) (Run.execAll s (bound + 1) stmts)
      fun m flow => (flow = .next → m.Sees view (Stmt.boundAfter declared stmts)) ∧
        flow.Discreet view s m.store := by
  cases stmts with
  | nil => exact unseen_pure fun _ sees => ⟨fun _ => sees, discreet_nothing rfl⟩
  | cons stmt rest =>
      rw [Stmt.functionsAll, Setting.holds_append] at holds
      rw [Stmt.namesAll_cons, List.mem_append, not_or] at spared
      apply (all.exec stmt holds.1 spared.1).bind (lasting_sees view declared)
      intro flow
      cases flow with
      | next => exact (all.execAll rest holds.2 spared.2).given fun _ h => h.2.1
      | ret v => exact unseen_pure fun _ h => ⟨fun isNext => (by cases isNext), h.2.2⟩
      | brk | cont =>
          exact unseen_pure fun _ _ => ⟨fun isNext => (by cases isNext), discreet_nothing rfl⟩

theorem unaware_loop (tested : Bool) (cond step : Option (Expr α)) (body : Stmt α)
    (holds : s.Holds body.functions) (condSpared : view.name ∉ Expr.namesOption declared cond)
    (stepSpared : view.name ∉ Expr.namesOption declared step)
    (bodySpared : view.name ∉ body.names declared) :
    Unseen view s (Machine.Sees view declared) (Run.loop s (bound + 1) tested cond step body)
      fun m flow => flow.Discreet view s m.store := by
  have lasting := lasting_sees view declared
  have again := all.loop true cond step body holds condSpared stepSpared bodySpared
  rw [Run.loop.eq_def]
  dsimp only
  apply Unseen.unlessCancelled _ lasting
  have round (goesOn : Bool) : Unseen view s (Machine.Sees view declared)
      (Run.round s bound cond step body goesOn) fun m flow => flow.Discreet view s m.store := by
    unfold Run.round
    split
    · apply (unaware_branch all body holds bodySpared).bind lasting
      intro flow
      cases flow with
      | brk => exact unseen_flow rfl
      | ret v => exact unseen_pure fun _ h => h.2
      | next | cont =>
          cases step with
          | none => exact again.given fun _ h => h.1
          | some e =>
              exact ((all.eval e stepSpared).seq lasting fun _ => again).given fun _ h => h.1
    · exact unseen_flow rfl
  cases cond with
  | none => exact round true
  | some e =>
      cases tested with
      | true =>
          exact ((all.eval e condSpared).map _ lasting).seq lasting fun goesOn => round goesOn
      | false => exact round true

theorem unaware_loopItems (node : StmtNode) (binder : Binder) (body : Stmt α)
    (items : List Value) (holds : s.Holds body.functions)
    (spared : view.name ∉ body.names (binder.name :: declared)) :
    Unseen view s
      (fun m => m.Sees view declared ∧ Value.DiscreetAll view s m.store items)
      (Run.loopItems s (bound + 1) node binder body items)
      fun m flow => flow.Discreet view s m.store := by
  cases items with
  | nil => exact unseen_flow rfl
  | cons item rest =>
      have lasting : Lasting fun m : Machine =>
          m.Sees view declared ∧ Value.DiscreetAll view s m.store (item :: rest) :=
        (lasting_sees view declared).and (lasting_discreetAll _)
      have again := all.loopItems node binder body rest holds spared
      have round (value : Value) : Unseen view s
          (fun m => m.Sees view declared ∧ value.Discreet view s m.store) (inScope do
            modify (·.define binder.name ⟨value, binder.mutable⟩)
            Run.exec s bound body) fun m flow => flow.Discreet view s m.store := by
        have binds := (unseen_define binder.name ⟨value, binder.mutable⟩).bind
          ((lasting_sees view declared).and (lasting_discreet (s := s) value)) fun _ =>
            (all.exec body holds spared).mono (fun _ h => h.2) fun _ _ h => h.2
        apply binds.inScope _ fun _ _ => id
        intro m guarded h
        exact ⟨h.1.pushScope guarded, h.2.extends (Machine.extends_pushScope m)⟩
      rw [Run.loopItems.eq_def]
      dsimp only
      apply Unseen.unlessCancelled _ lasting
      apply Unseen.bind ((unseen_loopItem binder node.span item).given
        fun _ h => h.2 item List.mem_cons_self) lasting
      intro value
      apply Unseen.bind ((round value).given fun _ h => ⟨h.1.1, h.2⟩)
        (lasting.and (lasting_discreet value))
      intro flow
      cases flow with
      | brk => exact unseen_flow rfl
      | ret v => exact unseen_pure fun _ h => h.2
      | next | cont =>
          exact again.given fun _ h => ⟨h.1.1.1, (List.forall_mem_cons.mp h.1.1.2).2⟩

omit all in
theorem unawareAll (handsOn : HandsOn s.hosts) (closed : s.Closed) (bound : Nat) :
    UnawareAll view s bound := by
  induction bound with
  | zero =>
      constructor <;> intros <;> exact unseen_exhausted
  | succ bound all =>
      exact ⟨unaware_eval all, unaware_evalAll all, unaware_evalCast all, unaware_evalPath all,
        unaware_evalCall all, unaware_apply all handsOn, unaware_enter all closed,
        unaware_exec all, unaware_execAll all, unaware_loop all, unaware_loopItems all⟩

omit all in
/-- A formula is run in a scope inside of the frame with the bindings from outside. -/
theorem unaware_program (handsOn : HandsOn s.hosts) (closed : s.Closed) (bound : Nat)
    {p : Program α} (holds : s.Holds p.functions)
    (spared : view.name ∉ Stmt.namesAll declared p.body)
    (spared' : view.name ∉ Expr.namesOption (Stmt.boundAfter declared p.body) p.tail) :
    Unseen view s
      (fun m => m.env.current < m.store.frames.size ∧ m.store.Inside view m.env.current ∧
        (view.name ∈ declared → m.store.Shields view m.env.current))
      (inScope (Run.inside s bound p)) fun m v => v.Discreet view s m.store := by
  have all : UnawareAll view s bound := unawareAll handsOn closed bound
  have body := all.execAll p.body holds spared
  apply Unseen.inScope (body.bind (lasting_sees view declared) ?_)
    (fun m guarded h => Machine.sees_pushScope guarded h.1 h.2.1 h.2.2) fun _ _ => id
  intro flow
  cases flow with
  | ret v => exact unseen_pure fun _ h => h.2.2 v rfl
  | brk | cont => exact unseen_fail _ _
  | next =>
      cases tail : p.tail with
      | none => exact unseen_pure fun _ _ => Value.functions_void
      | some e =>
          rw [tail] at spared'
          exact (all.eval e spared').given fun _ h => h.2.1 rfl

end

end Run

namespace Machine

theorem Alike.release {m m' : Machine} (alike : m.Alike view m') :
    m.release.store.Alike view m'.release.store := by
  have cleared (ids : List Nat) {store store' : Store} (alike : store.Alike view store') :
      (ids.foldl Store.clear store).Alike view (ids.foldl Store.clear store') := by
    induction ids generalizing store store' with
    | nil => exact alike
    | cons id rest inductionHypothesis => exact inductionHypothesis (alike.clear id)
  unfold Machine.release
  rw [alike.captured]
  exact cleared m.captured alike.store

/-- What is still bound when the variables of functions are forgotten was bound before. -/
theorem find?_release {m : Machine} {id : Nat} {name : String} {b : Binding}
    (found : m.release.store.find? id name = some b) : m.store.find? id name = some b := by
  have cleared (ids : List Nat) {store : Store}
      (found : (ids.foldl Store.clear store).find? id name = some b) :
      store.find? id name = some b := by
    induction ids generalizing store with
    | nil => exact found
    | cons other rest inductionHypothesis =>
        have found := inductionHypothesis found
        rw [Store.find?_clear] at found
        split at found
        · cases found
        · exact found
  exact cleared m.captured found

theorem size_release (m : Machine) : m.release.store.frames.size = m.store.frames.size := by
  have cleared (ids : List Nat) (store : Store) :
      (ids.foldl Store.clear store).frames.size = store.frames.size := by
    induction ids generalizing store with
    | nil => rfl
    | cons id rest inductionHypothesis =>
        exact (inductionHypothesis (store.clear id)).trans (Store.size_modify _ _ _ _)
  exact cleared m.captured m.store

/-- Runs of a formula from machines that show the same have the same outcome, and the machines
show the same again, before the variables of functions are forgotten. -/
theorem run_alike (handsOn : HandsOn s.hosts) (closed : s.Closed) (bound : Nat) {p : Program α}
    (holds : s.Holds p.functions) {declared : List String}
    (spared : view.name ∉ Stmt.namesAll declared p.body)
    (spared' : view.name ∉ Expr.namesOption (Stmt.boundAfter declared p.body) p.tail)
    {m m' : Machine} (alike : m.Alike view m') (guarded : m.Guarded view s)
    (inStore : m.env.current < m.store.frames.size) (inside : m.store.Inside view m.env.current)
    (shields : view.name ∈ declared → m.store.Shields view m.env.current) :
    ∃ (outcome : Except Stop Value) (n n' : Machine), m.run s bound p = (outcome, n.release) ∧
      m'.run s bound p = (outcome, n'.release) ∧ n.Alike view n' ∧ n.Guarded view s ∧
      ∀ v, outcome = .ok v → v.Discreet view s n.store := by
  have pairs := Run.unaware_program handsOn closed bound holds spared spared' m m' alike guarded
    ⟨inStore, inside, shields⟩
  unfold run
  rw [Run.program_eq]
  unfold Run.between
  dsimp only [id]
  revert pairs
  generalize Run.inScope _ m = ended, Run.inScope _ m' = ended'
  intro pairs
  cases pairs with
  | ok alike guarded _ discreet =>
      refine ⟨_, _, _, rfl, rfl, alike, guarded, fun v isValue => ?_⟩
      cases isValue
      exact discreet
  | error alike guarded => exact ⟨_, _, _, rfl, rfl, alike, guarded, nofun⟩

end Machine

end Formulae
