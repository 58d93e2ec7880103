import Formulae.Proofs.Run.Moves

/-!
# What a run leaves behind

Whatever happens in a run, each scope and each call that was entered is left again, and the
frame of the bindings made from outside stays as it is (`Run.keepsAll`).  So the machine is
ready for another run (`Machine.Prepared.ready`), and the runs before make no difference but
for the numbers of functions (`Machine.Prepared.same_outcome`) if the bindings hold no function
of an earlier run.
-/

namespace Formulae

namespace Store

theorem getElem?_modify_of_ne (store : Store) {id other : Nat} (change : Frame → Frame)
    (keeps : ∀ frame, (change frame).parent = frame.parent) (different : other ≠ id) :
    (store.modify id change keeps).frames[other]? = store.frames[other]? := by
  rw [modify, Array.getElem?_modify, if_neg (Ne.symm different)]

theorem getElem?_push_of_lt (store : Store) (parent : Option Nat) {id : Nat}
    (old : id < store.frames.size) : (store.push parent).2.frames[id]? = store.frames[id]? := by
  rw [push, Array.getElem?_push, if_neg (Nat.ne_of_lt old)]

theorem getElem?_define_of_ne (store : Store) {id other : Nat} (name : String) (b : Binding)
    (different : other ≠ id) : (store.define id name b).frames[other]? = store.frames[other]? :=
  getElem?_modify_of_ne _ _ _ different

theorem size_define (store : Store) (id : Nat) (name : String) (b : Binding) :
    (store.define id name b).frames.size = store.frames.size :=
  size_modify _ _ _ _

theorem parent?_define (store : Store) (id other : Nat) (name : String) (b : Binding) :
    (store.define id name b).parent? other = store.parent? other :=
  parent?_modify _ _ _ _ _

theorem getElem?_write_of_ne (store : Store) {id other : Nat} (name : String) (v : Value)
    (different : other ≠ id) : (store.write id name v).frames[other]? = store.frames[other]? :=
  getElem?_modify_of_ne _ _ _ different

theorem size_write (store : Store) (id : Nat) (name : String) (v : Value) :
    (store.write id name v).frames.size = store.frames.size :=
  size_modify _ _ _ _

theorem clearAll_of_notMem {ids : List Nat} {other : Nat} (spared : other ∉ ids) (store : Store) :
    (ids.foldl clear store).frames[other]? = store.frames[other]? ∧
      (ids.foldl clear store).frames.size = store.frames.size ∧
      (ids.foldl clear store).declared = store.declared := by
  induction ids generalizing store with
  | nil => exact ⟨rfl, rfl, rfl⟩
  | cons id rest inductionHypothesis =>
      rw [List.mem_cons, not_or] at spared
      rcases inductionHypothesis spared.2 (store.clear id) with ⟨same, size, declared⟩
      rw [List.foldl_cons, same, size, declared]
      exact ⟨getElem?_modify_of_ne _ _ _ spared.1, size_modify _ _ _ _, rfl⟩

end Store

namespace Machine

/-- The frame is in the store, none of its variables may be replaced, and no function was
declared in it. -/
structure Guards (m : Machine) (g : Nat) : Prop where
  inStore : g < m.store.frames.size
  final : ∀ name b, m.store.find? g name = some b → b.mutable = false
  uncaptured : g ∉ m.captured

/-- The second machine is in the same scopes and calls as the first, and has the same frame
with the number `g`. -/
structure Left (g : Nat) (m m' : Machine) : Prop where
  env : m'.env = m.env
  callers : m'.callers = m.callers
  frames : m.store.frames.size ≤ m'.store.frames.size
  declared : m.store.declared ≤ m'.store.declared
  same : m'.store.frames[g]? = m.store.frames[g]?
  uncaptured : g ∉ m'.captured

variable {g : Nat} {m m₁ m₂ : Machine}

theorem Guards.left (guards : m.Guards g) : m.Left g m :=
  ⟨rfl, rfl, Nat.le_refl _, Nat.le_refl _, rfl, guards.uncaptured⟩

theorem Left.trans (first : Left g m m₁) (second : Left g m₁ m₂) : Left g m m₂ where
  env := second.env.trans first.env
  callers := second.callers.trans first.callers
  frames := Nat.le_trans first.frames second.frames
  declared := Nat.le_trans first.declared second.declared
  same := second.same.trans first.same
  uncaptured := second.uncaptured

theorem find?_of_same {store store' : Store} (same : store'.frames[g]? = store.frames[g]?)
    (name : String) : store'.find? g name = store.find? g name := by
  rw [Store.find?, same, Store.find?]

theorem Left.guards (left : Left g m m₁) (guards : m.Guards g) : m₁.Guards g where
  inStore := Nat.lt_of_lt_of_le guards.inStore left.frames
  final name b bound := guards.final name b (find?_of_same left.same name ▸ bound)
  uncaptured := left.uncaptured

theorem Guards.pushScope (guards : m.Guards g) : m.pushScope.Guards g where
  inStore := by
    simp only [Machine.pushScope, Environment.push, Store.size_push]
    exact Nat.lt_succ_of_lt guards.inStore
  final name b bound :=
    guards.final name b ((Store.find?_push _ _ _ _).symm.trans bound)
  uncaptured := guards.uncaptured

theorem current_pushScope (m : Machine) : m.pushScope.env.current = m.store.frames.size :=
  rfl

/-- What holds of a machine in a scope of its own holds when the scope is left. -/
theorem Left.popScope (guards : m.Guards g) (left : Left g m.pushScope m₁) :
    Left g m m₁.popScope where
  env := congrArg Environment.pop left.env
  callers := left.callers
  frames := by
    have pushed : m.pushScope.store.frames.size = m.store.frames.size + 1 := Store.size_push _ _
    have grown : m.pushScope.store.frames.size ≤ m₁.store.frames.size := left.frames
    rw [pushed] at grown
    exact Nat.le_of_succ_le grown
  declared := left.declared
  same := left.same.trans (Store.getElem?_push_of_lt _ _ guards.inStore)
  uncaptured := left.uncaptured

/-- The same of a call. -/
theorem Left.leaveCall (guards : m.Guards g) {frame : Nat} (left : Left g (m.enterCall frame) m₁) :
    Left g m m₁.leaveCall := by
  have callers : m₁.callers = m.env :: m.callers := left.callers
  have inside : Left g { m with env := .ofFrame frame, callers := m.env :: m.callers }
      m₁.popScope := by
    apply Left.popScope _ left
    exact { guards with }
  unfold Machine.leaveCall
  rw [callers]
  exact { inside with env := rfl, callers := rfl }

theorem Left.define (guards : m.Guards g) (elsewhere : m.env.current ≠ g) (name : String)
    (b : Binding) : Left g m (m.define name b) where
  env := rfl
  callers := rfl
  frames := Nat.le_of_eq (Store.size_define _ _ _ _).symm
  declared := Nat.le_refl _
  same := Store.getElem?_define_of_ne _ _ _ (Ne.symm elsewhere)
  uncaptured := guards.uncaptured

theorem Left.declare (guards : m.Guards g) (elsewhere : m.env.current ≠ g) (declaration : Nat)
    (name : String) (label : Name) (params : List Param) :
    Left g m (m.declare declaration name label params) where
  env := rfl
  callers := rfl
  frames := Nat.le_of_eq (Store.size_define m.store.freshFunction.2 _ _ _).symm
  declared := Nat.le_succ _
  same := Store.getElem?_define_of_ne m.store.freshFunction.2 _ _ (Ne.symm elsewhere)
  uncaptured := by
    rw [Machine.declare, List.mem_cons, not_or]
    exact ⟨Ne.symm elsewhere, guards.uncaptured⟩

end Machine

namespace Run

open Machine

variable {β γ : Type} {g : Nat}

/-- Whatever its outcome, a step leaves a machine with this property. -/
def Leaves (property : Machine → Prop) : EStateM.Result Stop Machine β → Prop
  | .ok _ m => property m
  | .error _ m => property m

theorem Leaves.mono {property property' : Machine → Prop} {outcome : EStateM.Result Stop Machine β}
    (leaves : Leaves property outcome) (h : ∀ m, property m → property' m) :
    Leaves property' outcome := by
  cases outcome <;> exact h _ leaves

/-- A step leaves the scopes, the calls and the frame `g` as they were. -/
def Restores (g : Nat) (x : Run β) : Prop :=
  ∀ m : Machine, m.Guards g → Leaves (Left g m) (x m)

/-- A step does so in the scopes inside of that frame. -/
def Keeps (g : Nat) (x : Run β) : Prop :=
  ∀ m : Machine, m.Guards g → m.env.current ≠ g → Leaves (Left g m) (x m)

theorem Restores.keeps {x : Run β} (restores : Restores g x) : Keeps g x :=
  fun m guards _ => restores m guards

theorem keeps_pure (x : β) : Keeps g (pure x) :=
  fun _ guards _ => guards.left

theorem keeps_throw (stop : Stop) : Keeps g (throw stop : Run β) :=
  fun _ guards _ => guards.left

theorem keeps_fail (fault : EvalFault) (span : Span) : Keeps g (fail fault span : Run β) :=
  keeps_throw _

theorem Keeps.bind {x : Run β} {f : β → Run γ} (first : Keeps g x) (second : ∀ b, Keeps g (f b)) :
    Keeps g (x >>= f) := by
  intro m guards elsewhere
  have left := first m guards elsewhere
  simp only [Bind.bind, EStateM.bind]
  cases ran : x m with
  | error stop m₁ =>
      rw [ran] at left
      exact left
  | ok b m₁ =>
      rw [ran] at left
      exact (second b m₁ (left.guards guards) (left.env ▸ elsewhere)).mono fun _ => left.trans

theorem Keeps.map {x : Run β} (f : β → γ) (keeps : Keeps g x) : Keeps g (f <$> x) := by
  rw [← bind_pure_comp]
  exact keeps.bind fun _ => keeps_pure _

theorem keeps_located (span : Span) (result : Except EvalFault β) :
    Keeps g (located span result) := by
  cases result with
  | ok x => exact keeps_pure x
  | error fault => exact keeps_fail fault span

theorem keeps_modify {change : Machine → Machine}
    (left : ∀ m : Machine, m.Guards g → m.env.current ≠ g → Left g m (change m)) :
    Keeps g (modify change : Run Unit) :=
  left

theorem leaves_between {enter leave : Machine → Machine} {x : Run β} {m : Machine}
    {property property' : Machine → Prop} (inside : Leaves property (x (enter m)))
    (leaves : ∀ m₁, property m₁ → property' (leave m₁)) :
    Leaves property' (between enter leave x m) := by
  unfold between
  cases ran : x (enter m) with
  | ok b m₁ | error stop m₁ =>
      rw [ran] at inside
      exact leaves m₁ inside

theorem restores_between {enter leave : Machine → Machine} {x : Run β}
    (enters : ∀ m, m.Guards g → (enter m).Guards g ∧ (enter m).env.current ≠ g)
    (leaves : ∀ m m₁, m.Guards g → Left g (enter m) m₁ → Left g m (leave m₁))
    (keeps : Keeps g x) : Restores g (between enter leave x) := by
  intro m guards
  rcases enters m guards with ⟨guarded, elsewhere⟩
  exact leaves_between (keeps (enter m) guarded elsewhere) fun m₁ => leaves m m₁ guards

theorem Keeps.inScope {x : Run β} (keeps : Keeps g x) : Restores g (inScope x) :=
  restores_between
    (fun _ guards => ⟨guards.pushScope, Nat.ne_of_gt guards.inStore⟩)
    (fun _ _ guards left => left.popScope guards) keeps

theorem Keeps.inCall {frame : Nat} {x : Run β} (keeps : Keeps g x) : Restores g (inCall frame x) := by
  apply restores_between _ (fun _ _ guards left => left.leaveCall guards) keeps
  intro m guards
  have called : Guards { m with env := .ofFrame frame, callers := m.env :: m.callers } g :=
    { guards with }
  exact ⟨called.pushScope, Nat.ne_of_gt guards.inStore⟩

theorem keeps_checkCancelled {α : Type} (s : Setting α) (span : Span) :
    Keeps g (checkCancelled s span) := by
  unfold checkCancelled
  split
  · exact keeps_fail _ _
  · exact keeps_pure ()

theorem keeps_fetch (name : String) (missing : EvalFault) (span : Span) :
    Keeps g (fetch name missing span) := by
  intro m guards _
  unfold fetch
  split
  · exact guards.left
  · split <;> exact guards.left

/-- Only a variable that may be replaced is replaced. -/
theorem keeps_assign (name : String) (path : List Value.Step) (base : Option Operator)
    (value : Value) (span : Span) : Keeps g (assign name path base value span) := by
  intro m guards _
  unfold assign Store.place
  cases found : m.store.resolve? m.env.current name with
  | none => exact guards.left
  | some place =>
      obtain ⟨frame, b⟩ := place
      cases replaceable : b.mutable with
      | false =>
          simp only [replaceable]
          exact guards.left
      | true =>
          simp only [replaceable, if_true]
          cases b.value.update (Value.combined base value span) path with
          | error e => exact guards.left
          | ok change =>
              have different : g ≠ frame := by
                rintro rfl
                have final := guards.final name b (Store.bound_of_resolve? found).1
                rw [final] at replaceable
                cases replaceable
              exact {
                env := rfl
                callers := rfl
                frames := Nat.le_of_eq (Store.size_write _ _ _ _).symm
                declared := Nat.le_refl _
                same := Store.getElem?_write_of_ne _ _ _ different
                uncaptured := guards.uncaptured }

theorem keeps_define (name : String) (b : Binding) : Keeps g (modify (·.define name b)) :=
  keeps_modify fun _ guards elsewhere => Left.define guards elsewhere name b

theorem keeps_bindParams (params : List Param) (args : List Value) :
    Keeps g (bindParams params args) := by
  apply keeps_modify
  induction params.zip args with
  | nil => exact fun _ guards _ => guards.left
  | cons entry rest inductionHypothesis =>
      intro m guards elsewhere
      have left := Left.define guards elsewhere entry.1.name ⟨entry.2, entry.1.mutable⟩
      exact left.trans (inductionHypothesis _ (left.guards guards) elsewhere)

theorem keeps_loopItem (binder : Binder) (span : Span) (item : Value) :
    Keeps g (loopItem binder span item) := by
  unfold loopItem
  split
  · exact keeps_located _ _
  · exact keeps_pure _

/-! ## All steps at once -/

variable {α : Type} {s : Setting α}

/-- Every step within a bound leaves things as they were. -/
structure KeepsAll (g : Nat) (s : Setting α) (bound : Nat) : Prop where
  eval : ∀ e, Keeps g (Run.eval s bound e)
  evalAll : ∀ es, Keeps g (Run.evalAll s bound es)
  evalCast : ∀ node operand target, Keeps g (Run.evalCast s bound node operand target)
  evalPath : ∀ target, Keeps g (Run.evalPath s bound target)
  evalCall : ∀ node callee args, Keeps g (Run.evalCall s bound node callee args)
  apply : ∀ label function args span, Keeps g (Run.apply s bound label function args span)
  enter : ∀ f args span, Keeps g (Run.enter s bound f args span)
  exec : ∀ stmt, Keeps g (Run.exec s bound stmt)
  execAll : ∀ stmts, Keeps g (Run.execAll s bound stmts)
  loop : ∀ tested cond step body, Keeps g (Run.loop s bound tested cond step body)
  loopItems : ∀ node binder body items, Keeps g (Run.loopItems s bound node binder body items)

variable {bound : Nat} (all : KeepsAll g s bound)
include all

theorem keeps_eval (e : Expr α) : Keeps g (Run.eval s (bound + 1) e) := by
  rw [Run.eval.eq_def]
  dsimp only
  cases e with
  | ident node name => exact keeps_fetch _ _ _
  | constant node value => exact keeps_located _ _
  | unary node op operand => exact (all.eval operand).bind fun _ => keeps_located _ _
  | binary node op left right =>
      have plain : Keeps g (do
          let x ← Run.eval s bound left
          let y ← Run.eval s bound right
          located node.span (x.binary op y)) :=
        (all.eval left).bind fun _ => (all.eval right).bind fun _ => keeps_located _ _
      have assigns : Keeps g (Run.assignment s bound node op.compoundBase left right) :=
        (all.evalPath left).bind fun _ => (all.eval right).bind fun _ => keeps_assign _ _ _ _ _
      have truth : Keeps g (do return Value.bool (← Run.eval s bound right).isTruthy) :=
        (all.eval right).bind fun _ => keeps_pure _
      cases op
      case typeCast => exact all.evalCast node left right
      case and =>
        apply (all.eval left).bind
        intro _
        split
        · exact truth
        · exact keeps_pure _
      case or =>
        apply (all.eval left).bind
        intro _
        split
        · exact keeps_pure _
        · exact truth
      case assign | addAssign | subAssign | mulAssign | divAssign => exact assigns
      all_goals exact plain
  | ternary node cond thenBranch elseBranch =>
      apply (all.eval cond).bind
      intro _
      split
      · exact all.eval thenBranch
      · exact all.eval elseBranch
  | call node callee args => exact all.evalCall node callee args
  | array node items => exact (all.evalAll items).bind fun _ => keeps_pure _
  | index node receiver subscript =>
      exact (all.eval receiver).bind fun _ => (all.eval subscript).bind fun _ => keeps_located _ _
  | typeLiteral node type => exact keeps_fail _ _

theorem keeps_evalAll (es : List (Expr α)) : Keeps g (Run.evalAll s (bound + 1) es) := by
  cases es with
  | nil => exact keeps_pure _
  | cons e rest =>
      exact (all.eval e).bind fun _ => (all.evalAll rest).bind fun _ => keeps_pure _

theorem keeps_evalCast (node : Node α) (operand target : Expr α) :
    Keeps g (Run.evalCast s (bound + 1) node operand target) := by
  rw [Run.evalCast.eq_def]
  dsimp only
  cases target with
  | typeLiteral _ type => exact (all.eval operand).bind fun _ => keeps_located _ _
  | _ => exact keeps_fail _ _

theorem keeps_evalPath (target : Expr α) : Keeps g (Run.evalPath s (bound + 1) target) := by
  rw [Run.evalPath.eq_def]
  dsimp only
  cases target with
  | ident _ name => exact keeps_pure _
  | index node receiver subscript =>
      exact (all.evalPath receiver).bind fun _ => (all.eval subscript).bind fun _ => keeps_pure _
  | _ => exact keeps_fail _ _

theorem keeps_evalCall (node : Node α) (callee : Expr α) (args : List (Expr α)) :
    Keeps g (Run.evalCall s (bound + 1) node callee args) := by
  have computed (callee : Expr α) : Keeps g (do
      let function ← Run.eval s bound callee
      let values ← Run.evalAll s bound args
      Run.apply s bound "function" function values node.span) :=
    (all.eval callee).bind fun _ => (all.evalAll args).bind fun _ => all.apply _ _ _ _
  rw [Run.evalCall.eq_def]
  dsimp only
  cases callee with
  | ident calleeNode name =>
      exact (keeps_fetch _ _ _).bind fun _ => (all.evalAll args).bind fun _ => all.apply _ _ _ _
  | _ => exact computed _

theorem keeps_apply (label : String) (function : Value) (args : List Value) (span : Span) :
    Keeps g (Run.apply s (bound + 1) label function args span) := by
  rw [Run.apply.eq_def]
  dsimp only
  cases function with
  | function f =>
      cases f with
      | builtin f => exact keeps_located _ _
      | declared f => exact all.enter f args span
      | host f =>
          dsimp only
          split
          · exact keeps_pure _
          · exact keeps_fail _ _
  | _ => exact keeps_fail _ _

theorem keeps_enter (f : Closure) (args : List Value) (span : Span) :
    Keeps g (Run.enter s (bound + 1) f args span) := by
  rw [Run.enter_succ]
  split
  · exact keeps_fail _ _
  · intro m
    have rest : Keeps g (Run.entered s bound f args span m.callDepth) := by
      unfold Run.entered
      split
      · exact keeps_fail _ _
      · have body : Keeps g (do
            bindParams f.params args
            Run.execAll s bound (s.body f.declaration)) :=
          (keeps_bindParams _ _).bind fun _ => all.execAll _
        apply body.inCall.keeps.bind
        intro flow
        cases flow with
        | ret _ | next => exact keeps_pure _
        | brk | cont => exact keeps_fail _ _
    exact rest m

theorem keeps_exec (stmt : Stmt α) : Keeps g (Run.exec s (bound + 1) stmt) := by
  rw [Run.exec.eq_def]
  dsimp only
  apply (keeps_checkCancelled s _).bind
  intro _
  cases stmt with
  | expr _ e => exact (all.eval e).bind fun _ => keeps_pure _
  | varDecl node binder init =>
      exact (all.eval init).bind fun _ => (keeps_define _ _).bind fun _ => keeps_pure _
  | ret _ value =>
      cases value with
      | none => exact keeps_pure _
      | some e => exact (all.eval e).bind fun _ => keeps_pure _
  | ifElse _ cond thenBranch elseBranch =>
      apply (all.eval cond).bind
      intro _
      split
      · exact (all.exec thenBranch).inScope.keeps
      · cases elseBranch with
        | none => exact keeps_pure _
        | some other => exact (all.exec other).inScope.keeps
  | whileLoop _ cond body => exact all.loop true (some cond) none body
  | doWhile _ body cond => exact all.loop false (some cond) none body
  | forLoop _ init cond step body =>
      apply Restores.keeps
      apply Keeps.inScope
      cases init with
      | none => exact (keeps_pure ()).bind fun _ => all.loop true cond step body
      | some first =>
          exact (all.exec first).bind fun _ =>
            (keeps_pure ()).bind fun _ => all.loop true cond step body
  | forEach node binder iterable body =>
      apply (all.eval iterable).bind
      intro items
      cases items with
      | array items => exact all.loopItems node binder body items
      | _ => exact keeps_fail _ _
  | brk _ => exact keeps_pure _
  | cont _ => exact keeps_pure _
  | block _ stmts => exact (all.execAll stmts).inScope.keeps
  | function node written name params body =>
      apply Keeps.bind _ fun _ => keeps_pure _
      exact keeps_modify fun _ guards elsewhere => Left.declare guards elsewhere _ _ _ _

theorem keeps_execAll (stmts : List (Stmt α)) : Keeps g (Run.execAll s (bound + 1) stmts) := by
  cases stmts with
  | nil => exact keeps_pure _
  | cons stmt rest =>
      apply (all.exec stmt).bind
      intro flow
      cases flow with
      | next => exact all.execAll rest
      | _ => exact keeps_pure _

theorem keeps_loop (tested : Bool) (cond step : Option (Expr α)) (body : Stmt α) :
    Keeps g (Run.loop s (bound + 1) tested cond step body) := by
  rw [Run.loop.eq_def]
  dsimp only
  apply (keeps_checkCancelled s _).bind
  intro _
  -- The condition is tested in one of these cases only, and then they go on alike.
  cases cond <;> cases tested
  all_goals
    dsimp only
    first
    | apply (keeps_pure true).bind
    | apply ((all.eval _).map Value.isTruthy).bind
    intro goesOn
    split
    · apply (all.exec body).inScope.keeps.bind
      intro flow
      cases flow with
      | brk | ret => exact keeps_pure _
      | next | cont =>
          cases step with
          | none => exact all.loop true _ none body
          | some e => exact (all.eval e).bind fun _ => all.loop true _ (some e) body
    · exact keeps_pure _

theorem keeps_loopItems (node : StmtNode) (binder : Binder) (body : Stmt α) (items : List Value) :
    Keeps g (Run.loopItems s (bound + 1) node binder body items) := by
  cases items with
  | nil => exact keeps_pure _
  | cons item rest =>
      rw [Run.loopItems.eq_def]
      dsimp only
      apply (keeps_checkCancelled s _).bind
      intro _
      apply (keeps_loopItem _ _ _).bind
      intro value
      have round : Keeps g (do
          modify (·.define binder.name ⟨value, binder.mutable⟩)
          Run.exec s bound body) :=
        (keeps_define _ _).bind fun _ => all.exec body
      apply round.inScope.keeps.bind
      intro flow
      cases flow with
      | brk | ret => exact keeps_pure _
      | next | cont => exact all.loopItems node binder body rest

omit all in
theorem keepsAll (g : Nat) (s : Setting α) (bound : Nat) : KeepsAll g s bound := by
  induction bound with
  | zero =>
      constructor <;> intros <;> exact keeps_throw _
  | succ bound all =>
      exact ⟨keeps_eval all, keeps_evalAll all, keeps_evalCast all, keeps_evalPath all,
        keeps_evalCall all, keeps_apply all, keeps_enter all, keeps_exec all,
        keeps_execAll all, keeps_loop all, keeps_loopItems all⟩

omit all in
/-- A run leaves the scopes, the calls and the frame `g` as they were, and forgets in which
frames functions were declared. -/
theorem restores_program (g : Nat) (s : Setting α) (bound : Nat) (p : Program α) (m : Machine)
    (guards : m.Guards g) :
    Leaves (fun m' => Left g m m' ∧ m'.captured = []) (Run.program s bound p m) := by
  have released (m' : Machine) (left : Left g m m') :
      Left g m m'.release ∧ m'.release.captured = [] := by
    rcases Store.clearAll_of_notMem left.uncaptured m'.store with ⟨same, size, declared⟩
    refine ⟨{ left with frames := ?_, declared := ?_, same := ?_, uncaptured := nofun }, rfl⟩
    · exact size.symm ▸ left.frames
    · exact declared.symm ▸ left.declared
    · exact same.trans left.same
  refine leaves_between (Keeps.inScope ?_ m guards) released
  apply ((keepsAll g s bound).execAll p.body).bind
  intro flow
  cases flow with
  | ret _ => exact keeps_pure _
  | brk | cont => exact keeps_fail _ _
  | next =>
      cases p.tail with
      | none => exact keeps_pure _
      | some e => exact (keepsAll g s bound).eval e

end Run

end Formulae
