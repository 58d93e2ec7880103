import Formulae.Proofs.Run.Relocated

/-!
# Steps in another place

On machines that are alike but for the numbers of frames and functions, every step of a run
gives results that are alike in the same way (`Relocation.movesAll`), and so does a whole run
(`Relocation.moves_program`).
-/

namespace Formulae

/-- The reason with the functions in it under other numbers. -/
def Stop.renumber (r : Renumbering) : Stop → Stop
  | .failed e => .failed (e.renumber r)
  | .exhausted => .exhausted

/-- The end of a statement with the functions in it under other numbers. -/
def Flow.renumber (r : Renumbering) : Flow → Flow
  | .next => .next
  | .ret v => .ret (v.renumber r)
  | .brk => .brk
  | .cont => .cont

namespace Blind

/-- A function supplied from outside gives no function away that it was not given. -/
theorem frames {hosts : Hosts} (blind : Blind hosts) {holds : Nat → Prop} {handle : Nat}
    {args : List Value} (known : ∀ arg ∈ args, arg.Functions fun f => holds f.frame)
    {v : Value} (given : hosts handle args = .ok v) : v.Functions fun f => holds f.frame := by
  intro part isPart f isFunction
  refine Classical.byContradiction fun unknown => ?_
  -- Another number for the frame of `f` only changes the result, but not the arguments.
  let r : Renumbering := ⟨fun id => if id = f.frame then f.frame + 1 else id, id,
    Function.injective_id⟩
  have sameFunction (g : Closure) (knownG : holds g.frame) : g.renumber r = g := by
    have different : g.frame ≠ f.frame := fun same => unknown (same ▸ knownG)
    simp [Closure.renumber, r, different]
  have sameArgs : Value.renumberAll r args = args :=
    Value.renumberAll_eq_self_iff args |>.mpr fun arg member =>
      Value.Functions.mono (known arg member) sameFunction
  have same := blind r handle args
  rw [sameArgs, given] at same
  have fixed := (Value.renumber_eq_self_iff v).mp (Except.ok.inj same).symm
  have frame := congrArg Closure.frame (fixed part isPart f isFunction)
  simp [Closure.renumber, r] at frame

end Blind

namespace Relocation

variable {β γ : Type} {r : Relocation}

/-- What a result is in the other machine, and that it leads to known frames only. -/
def ValueMoved (r : Relocation) (v v' : Value) : Prop :=
  v' = v.renumber r.renumbering ∧ r.Knows v

/-- The same of several values. -/
def ValuesMoved (r : Relocation) (vs vs' : List Value) : Prop :=
  vs' = Value.renumberAll r.renumbering vs ∧ ∀ v ∈ vs, r.Knows v

/-- The same of the end of a statement. -/
def FlowMoved (r : Relocation) (flow flow' : Flow) : Prop :=
  flow' = flow.renumber r.renumbering ∧ ∀ v, flow = .ret v → r.Knows v

/-- The same of the place that an assignment writes to. -/
def PathMoved (r : Relocation) (path path' : String × List Value.Step) : Prop :=
  path' = Prod.map id (List.map (Value.Step.renumber r.renumbering)) path

/-- Two outcomes are alike. -/
inductive OutcomeMoved (r : Relocation) (result : β → β → Prop) :
    EStateM.Result Stop Machine β → EStateM.Result Stop Machine β → Prop
  | ok {x x' : β} {m m' : Machine} (same : result x x') (moved : r.Moved m m') :
      OutcomeMoved r result (.ok x m) (.ok x' m')
  | error (stop : Stop) {m m' : Machine} (moved : r.Moved m m') :
      OutcomeMoved r result (.error stop m) (.error (stop.renumber r.renumbering) m')

/-- From machines that are alike two steps have outcomes that are alike. -/
def Moves (r : Relocation) (result : β → β → Prop) (x x' : Run β) : Prop :=
  ∀ m m', r.Moved m m' → r.OutcomeMoved result (x m) (x' m')

variable {result : β → β → Prop} {result' : γ → γ → Prop}

theorem moves_pure {x x' : β} (same : result x x') : r.Moves result (pure x) (pure x') :=
  fun _ _ moved => .ok same moved

theorem moves_exhausted : r.Moves result (throw .exhausted) (throw .exhausted) :=
  fun _ _ moved => .error .exhausted moved

theorem moves_fail (fault : EvalFault) (span : Span) :
    r.Moves result (Run.fail fault span) (Run.fail (fault.renumber r.renumbering) span) :=
  fun _ _ moved => .error (.failed ⟨fault, span⟩) moved

theorem Moves.bind {x x' : Run β} {f f' : β → Run γ} (first : r.Moves result x x')
    (second : ∀ b b', result b b' → r.Moves result' (f b) (f' b')) :
    r.Moves result' (x >>= f) (x' >>= f') := by
  intro m m' moved
  have outcome := first m m' moved
  simp only [Bind.bind, EStateM.bind]
  cases ran : x m with
  | ok b m₁ =>
      cases ran' : x' m' with
      | ok b' m₁' =>
          rw [ran, ran'] at outcome
          cases outcome with
          | ok same moved => exact second b b' same m₁ m₁' moved
      | error stop m₁' =>
          rw [ran, ran'] at outcome
          cases outcome
  | error stop m₁ =>
      cases ran' : x' m' with
      | ok b' m₁' =>
          rw [ran, ran'] at outcome
          cases outcome
      | error stop' m₁' =>
          rw [ran, ran'] at outcome
          cases outcome with
          | error _ moved => exact .error stop moved

theorem moves_located {good : β → β} {knows : β → Prop} {bad : EvalFault → Prop}
    {x : Except EvalFault β} (ends : Ends knows bad x) (span : Span) :
    r.Moves (fun b b' => b' = good b ∧ knows b) (Run.located span x)
      (Run.located span (r.renumbering.ends good x)) := by
  cases x with
  | ok b => exact moves_pure ⟨rfl, ends⟩
  | error fault => exact moves_fail fault span

/-- A computation of a value that gives data or parts of known values. -/
theorem moves_result {x x' : Value.Result} (same : x' = r.renumbering.result x)
    (gives : Value.Gives (fun part => ∀ f, part = .function (.declared f) → r.Reaches f.frame) x)
    (span : Span) : r.Moves r.ValueMoved (Run.located span x) (Run.located span x') := by
  rw [same]
  exact moves_located gives span

theorem moves_modify {change change' : Machine → Machine}
    (moves : ∀ m m', r.Moved m m' → r.Moved (change m) (change' m')) :
    r.Moves (fun _ _ => True) (modify change : Run Unit) (modify change') :=
  fun m m' moved => .ok trivial (moves m m' moved)

theorem moves_between {enter enter' leave leave' : Machine → Machine} {x x' : Run β}
    (enters : ∀ m m', r.Moved m m' → r.Moved (enter m) (enter' m'))
    (leaves : ∀ m m', r.Moved m m' → r.Moved (leave m) (leave' m'))
    (moves : r.Moves result x x') :
    r.Moves result (Run.between enter leave x) (Run.between enter' leave' x') := by
  intro m m' moved
  have outcome := moves _ _ (enters m m' moved)
  unfold Run.between
  cases ran : x (enter m) with
  | ok b m₁ =>
      cases ran' : x' (enter' m') with
      | ok b' m₁' =>
          rw [ran, ran'] at outcome
          cases outcome with
          | ok same moved => exact .ok same (leaves _ _ moved)
      | error stop m₁' =>
          rw [ran, ran'] at outcome
          cases outcome
  | error stop m₁ =>
      cases ran' : x' (enter' m') with
      | ok b' m₁' =>
          rw [ran, ran'] at outcome
          cases outcome
      | error stop' m₁' =>
          rw [ran, ran'] at outcome
          cases outcome with
          | error _ moved => exact .error stop (leaves _ _ moved)

theorem Moves.inScope {x x' : Run β} (moves : r.Moves result x x') :
    r.Moves result (Run.inScope x) (Run.inScope x') :=
  moves_between (fun _ _ => Moved.pushScope) (fun _ _ => Moved.popScope) moves

theorem Moves.inCall {frame : Nat} {x x' : Run β} (reaches : r.Reaches frame)
    (moves : r.Moves result x x') :
    r.Moves result (Run.inCall frame x) (Run.inCall (r.frame frame) x') :=
  moves_between (fun _ _ moved => moved.enterCall reaches) (fun _ _ => Moved.leaveCall) moves

theorem moves_checkCancelled {α : Type} (s : Setting α) (span : Span) :
    r.Moves (fun _ _ => True) (Run.checkCancelled s span) (Run.checkCancelled s span) := by
  unfold Run.checkCancelled
  split
  · exact moves_fail .cancelled span
  · exact moves_pure trivial

theorem moves_fetch {missing : EvalFault} (same : missing.renumber r.renumbering = missing)
    (name : String) (span : Span) :
    r.Moves r.ValueMoved (Run.fetch name missing span) (Run.fetch name missing span) := by
  intro m m' moved
  rcases moved.store.resolve? name moved.envInside.current with ⟨resolved, knows⟩
  rw [← moved.current] at resolved
  unfold Run.fetch Machine.lookup? Store.lookup?
  rw [resolved]
  cases found : m.store.resolve? m.env.current name with
  | some place =>
      obtain ⟨frame, b⟩ := place
      exact .ok ⟨rfl, (knows frame b found).2⟩ moved
  | none =>
      dsimp only [Option.map_none]
      cases Builtin.ofName? name with
      | some function => exact .ok ⟨rfl, Value.functions_builtin function⟩ moved
      | none =>
          have failed : r.OutcomeMoved r.ValueMoved (.error (.failed ⟨missing, span⟩) m)
              (.error (.failed ⟨missing.renumber r.renumbering, span⟩) m') :=
            .error (.failed ⟨missing, span⟩) moved
          rw [same] at failed
          exact failed

theorem reaches_of_isData {part : Value} (data : part.isData) (f : Closure)
    (isFunction : part = .function (.declared f)) : r.Reaches f.frame := by
  subst isFunction
  cases data

theorem moves_assign {name : String} {path : List Value.Step} {base : Option Operator}
    {v v' : Value} (given : r.ValueMoved v v') (span : Span) :
    r.Moves r.ValueMoved (Run.assign name path base v span)
      (Run.assign name (path.map (Value.Step.renumber r.renumbering)) base v' span) := by
  intro m m' moved
  rcases moved.store.resolve? name moved.envInside.current with ⟨resolved, knows⟩
  rw [← moved.current] at resolved
  unfold Run.assign Store.place
  rw [resolved, given.1]
  cases found : m.store.resolve? m.env.current name with
  | none => exact .error (.failed ⟨.unboundVariable name, span⟩) moved
  | some place =>
      obtain ⟨frame, b⟩ := place
      rcases knows frame b found with ⟨reaches, knowsOld⟩
      have same := Value.update_renumber
        (Value.combined_renumber (r := r.renumbering) base v span) path b.value
      have stores (old : Value) (_ : r.Knows old) : Value.GivesAt _ (Value.combined base v span old) :=
        Value.gives_combined (fun _ => reaches_of_isData) old given.2
      have ends := Value.ends_update (fun _ => reaches_of_isData) stores path knowsOld
      cases assignable : b.mutable with
      | false =>
          simp only [Option.map_some, Prod.map, binding, assignable]
          exact .error (.failed ⟨.bug (.finalAssigned name), span⟩) moved
      | true =>
          simp only [Option.map_some, Prod.map, binding, assignable, if_true, same]
          cases updated : b.value.update (Value.combined base v span) path with
          | error e => exact .error (.failed e) moved
          | ok change =>
              obtain ⟨changed, new⟩ := change
              rw [updated] at ends
              have written := moved.store.write reaches name ends.1
              exact .ok ⟨rfl, ends.2⟩ { moved with store := written }

theorem moves_bindParams (params : List Param) {args args' : List Value}
    (given : r.ValuesMoved args args') :
    r.Moves (fun _ _ => True) (Run.bindParams params args) (Run.bindParams params args') := by
  apply moves_modify
  rcases given with ⟨rfl, known⟩
  induction params generalizing args with
  | nil => exact fun _ _ moved => moved
  | cons param rest inductionHypothesis =>
      cases args with
      | nil => exact fun _ _ moved => moved
      | cons arg others =>
          rw [List.forall_mem_cons] at known
          intro m m' moved
          exact inductionHypothesis known.2 _ _
            (moved.define param.name (b := ⟨arg, param.mutable⟩) known.1)

theorem moves_define (name : String) {v v' : Value} (given : r.ValueMoved v v') (mutable : Bool) :
    r.Moves (fun _ _ => True) (modify fun m => m.define name ⟨v, mutable⟩)
      (modify fun m => m.define name ⟨v', mutable⟩) := by
  rcases given with ⟨rfl, knows⟩
  exact moves_modify fun _ _ moved => moved.define name (b := ⟨v, mutable⟩) knows

theorem moves_cast (target : Ty) (span : Span) {v v' : Value} (given : r.ValueMoved v v') :
    r.Moves r.ValueMoved (Run.located span (Value.cast target v))
      (Run.located span (Value.cast target v')) := by
  rcases given with ⟨rfl, knows⟩
  exact moves_result (Value.cast_renumber target v)
    (Value.gives_cast (fun _ => reaches_of_isData) target knows) span

theorem moves_loopItem (binder : Binder) (span : Span) {v v' : Value}
    (given : r.ValueMoved v v') :
    r.Moves r.ValueMoved (Run.loopItem binder span v) (Run.loopItem binder span v') := by
  unfold Run.loopItem
  cases binder.type with
  | none => exact moves_pure given
  | some type => exact moves_cast _ span given

/-! ## All steps at once -/

variable {α : Type} {s : Setting α}

/-- Every step within a bound gives the same in the other place. -/
structure MovesAll (r : Relocation) (s : Setting α) (bound : Nat) : Prop where
  eval : ∀ e, r.Moves r.ValueMoved (Run.eval s bound e) (Run.eval s bound e)
  evalAll : ∀ es, r.Moves r.ValuesMoved (Run.evalAll s bound es) (Run.evalAll s bound es)
  evalCast : ∀ node operand target, r.Moves r.ValueMoved
    (Run.evalCast s bound node operand target) (Run.evalCast s bound node operand target)
  evalPath : ∀ target, r.Moves r.PathMoved (Run.evalPath s bound target) (Run.evalPath s bound target)
  evalCall : ∀ node callee args, r.Moves r.ValueMoved
    (Run.evalCall s bound node callee args) (Run.evalCall s bound node callee args)
  apply : ∀ label function function' args args' span, r.ValueMoved function function' →
    r.ValuesMoved args args' → r.Moves r.ValueMoved
      (Run.apply s bound label function args span) (Run.apply s bound label function' args' span)
  enter : ∀ f args args' span, r.Reaches f.frame → r.ValuesMoved args args' →
    r.Moves r.ValueMoved (Run.enter s bound f args span)
      (Run.enter s bound (f.renumber r.renumbering) args' span)
  exec : ∀ stmt, r.Moves r.FlowMoved (Run.exec s bound stmt) (Run.exec s bound stmt)
  execAll : ∀ stmts, r.Moves r.FlowMoved (Run.execAll s bound stmts) (Run.execAll s bound stmts)
  loop : ∀ tested cond step body, r.Moves r.FlowMoved
    (Run.loop s bound tested cond step body) (Run.loop s bound tested cond step body)
  loopItems : ∀ node binder body items items', r.ValuesMoved items items' →
    r.Moves r.FlowMoved (Run.loopItems s bound node binder body items)
      (Run.loopItems s bound node binder body items')

theorem isTruthy_moved {v v' : Value} (given : r.ValueMoved v v') :
    v'.isTruthy = true ↔ v.isTruthy = true := by
  rw [given.1, Value.isTruthy_renumber]

theorem moves_bool (b : Bool) : r.Moves r.ValueMoved (pure (.bool b)) (pure (.bool b)) :=
  moves_pure ⟨rfl, Value.functions_of_isData rfl⟩

theorem moves_skip : r.Moves (fun _ _ => True) (pure ()) (pure ()) :=
  moves_pure trivial

theorem moves_void : r.Moves r.ValueMoved (pure .void) (pure .void) :=
  moves_pure ⟨rfl, Value.functions_void⟩

theorem valueMoved_array {items items' : List Value} (given : r.ValuesMoved items items') :
    r.ValueMoved (.array items) (.array items') :=
  ⟨congrArg Value.array given.1, Value.every_array.mpr given.2⟩

theorem valuesMoved_cons {v v' : Value} {vs vs' : List Value} (first : r.ValueMoved v v')
    (others : r.ValuesMoved vs vs') : r.ValuesMoved (v :: vs) (v' :: vs') :=
  ⟨by rw [first.1, others.1, Value.renumberAll], List.forall_mem_cons.mpr ⟨first.2, others.2⟩⟩

theorem flowMoved_plain {flow : Flow} (nothing : flow.value? = none) : r.FlowMoved flow flow := by
  refine ⟨?_, fun v isReturn => absurd isReturn (flow.ne_ret nothing v)⟩
  cases flow with
  | ret v => cases nothing
  | _ => rfl

theorem flowMoved_ret {v v' : Value} (given : r.ValueMoved v v') :
    r.FlowMoved (.ret v) (.ret v') :=
  ⟨congrArg Flow.ret given.1, fun _ isReturn => Flow.ret.inj isReturn ▸ given.2⟩

theorem moves_flow {flow : Flow} (nothing : flow.value? = none) :
    r.Moves r.FlowMoved (pure flow) (pure flow) :=
  moves_pure (flowMoved_plain nothing)

/-- A condition decides in the same way between steps that give the same. -/
theorem moves_if {c c' : Prop} [Decidable c] [Decidable c'] (same : c' ↔ c) {x x' y y' : Run β}
    (first : r.Moves result x x') (second : r.Moves result y y') :
    r.Moves result (if c then x else y) (if c' then x' else y') := by
  by_cases holds : c
  · rw [if_pos holds, if_pos (same.mpr holds)]
    exact first
  · rw [if_neg holds, if_neg (mt same.mp holds)]
    exact second

variable {bound : Nat} (blind : Blind s.hosts) (all : r.MovesAll s bound)
include all

theorem moves_eval (e : Expr α) :
    r.Moves r.ValueMoved (Run.eval s (bound + 1) e) (Run.eval s (bound + 1) e) := by
  rw [Run.eval.eq_def]
  dsimp only
  cases e with
  | ident node name => exact moves_fetch rfl name node.span
  | constant node value =>
      exact moves_result (Value.value_renumber value).symm
        (Value.GivesData.gives (fun _ => reaches_of_isData) (Value.givesData_constant value)) _
  | unary node op operand =>
      apply (all.eval operand).bind
      rintro v _ ⟨rfl, _⟩
      exact moves_result (Value.unary_renumber op v)
        (Value.GivesData.gives (fun _ => reaches_of_isData) (Value.givesData_unary op v)) _
  | binary node op left right =>
      have plain : r.Moves r.ValueMoved
          (do let x ← Run.eval s bound left
              let y ← Run.eval s bound right
              Run.located node.span (x.binary op y))
          (do let x ← Run.eval s bound left
              let y ← Run.eval s bound right
              Run.located node.span (x.binary op y)) := by
        apply (all.eval left).bind
        rintro v _ ⟨rfl, _⟩
        apply (all.eval right).bind
        rintro w _ ⟨rfl, _⟩
        exact moves_result (Value.binary_renumber op v w)
          (Value.GivesData.gives (fun _ => reaches_of_isData) (Value.givesData_binary op v w)) _
      have assigns : r.Moves r.ValueMoved (Run.assignment s bound node op.compoundBase left right)
          (Run.assignment s bound node op.compoundBase left right) := by
        apply (all.evalPath left).bind
        rintro ⟨name, path⟩ _ rfl
        apply (all.eval right).bind
        intro v v' given
        dsimp only [Prod.map, id]
        rw [← List.map_reverse]
        exact moves_assign given node.span
      have tested {x y : Run Value} (first : r.Moves r.ValueMoved x x)
          (second : r.Moves r.ValueMoved y y) : r.Moves r.ValueMoved
          (do if (← Run.eval s bound left).isTruthy then x else y)
          (do if (← Run.eval s bound left).isTruthy then x else y) :=
        (all.eval left).bind fun _ _ given => moves_if (isTruthy_moved given) first second
      have truth : r.Moves r.ValueMoved
          (do return .bool (← Run.eval s bound right).isTruthy)
          (do return .bool (← Run.eval s bound right).isTruthy) := by
        apply (all.eval right).bind
        rintro v _ ⟨rfl, _⟩
        rw [Value.isTruthy_renumber]
        exact moves_bool _
      cases op
      case typeCast => exact all.evalCast node left right
      case and => exact tested truth (moves_bool false)
      case or => exact tested (moves_bool true) truth
      case assign | addAssign | subAssign | mulAssign | divAssign => exact assigns
      all_goals exact plain
  | ternary node cond thenBranch elseBranch =>
      apply (all.eval cond).bind
      exact fun _ _ given => moves_if (isTruthy_moved given) (all.eval _) (all.eval _)
  | call node callee args => exact all.evalCall node callee args
  | array node items =>
      exact (all.evalAll items).bind fun _ _ given => moves_pure (valueMoved_array given)
  | index node receiver subscript =>
      apply (all.eval receiver).bind
      rintro v _ ⟨rfl, knows⟩
      apply (all.eval subscript).bind
      rintro w _ ⟨rfl, _⟩
      exact moves_result (Value.element_renumber v w)
        (Value.gives_element (fun _ => reaches_of_isData) knows) _
  | typeLiteral node type => exact moves_fail _ _

theorem moves_evalAll (es : List (Expr α)) :
    r.Moves r.ValuesMoved (Run.evalAll s (bound + 1) es) (Run.evalAll s (bound + 1) es) := by
  cases es with
  | nil => exact moves_pure ⟨rfl, List.forall_mem_nil _⟩
  | cons e rest =>
      exact (all.eval e).bind fun _ _ first =>
        (all.evalAll rest).bind fun _ _ others => moves_pure (valuesMoved_cons first others)

theorem moves_evalCast (node : Node α) (operand target : Expr α) :
    r.Moves r.ValueMoved (Run.evalCast s (bound + 1) node operand target)
      (Run.evalCast s (bound + 1) node operand target) := by
  rw [Run.evalCast.eq_def]
  dsimp only
  cases target with
  | typeLiteral _ type =>
      exact (all.eval operand).bind fun _ _ given => moves_cast _ _ given
  | _ => exact moves_fail _ _

theorem moves_evalPath (target : Expr α) :
    r.Moves r.PathMoved (Run.evalPath s (bound + 1) target) (Run.evalPath s (bound + 1) target) := by
  rw [Run.evalPath.eq_def]
  dsimp only
  cases target with
  | ident _ name => exact moves_pure rfl
  | index node receiver subscript =>
      apply (all.evalPath receiver).bind
      rintro ⟨name, path⟩ _ rfl
      apply (all.eval subscript).bind
      rintro v _ ⟨rfl, _⟩
      exact moves_pure rfl
  | _ => exact moves_fail _ _

theorem moves_evalCall (node : Node α) (callee : Expr α) (args : List (Expr α)) :
    r.Moves r.ValueMoved (Run.evalCall s (bound + 1) node callee args)
      (Run.evalCall s (bound + 1) node callee args) := by
  have computed (callee : Expr α) : r.Moves r.ValueMoved
      (do let function ← Run.eval s bound callee
          let values ← Run.evalAll s bound args
          Run.apply s bound "function" function values node.span)
      (do let function ← Run.eval s bound callee
          let values ← Run.evalAll s bound args
          Run.apply s bound "function" function values node.span) :=
    (all.eval callee).bind fun _ _ function =>
      (all.evalAll args).bind fun _ _ values => all.apply _ _ _ _ _ _ function values
  rw [Run.evalCall.eq_def]
  dsimp only
  cases callee with
  | ident calleeNode name =>
      exact (moves_fetch rfl name _).bind fun _ _ function =>
        (all.evalAll args).bind fun _ _ values => all.apply _ _ _ _ _ _ function values
  | _ => exact computed _

include blind in
theorem moves_apply (label : String) (function function' : Value) (args args' : List Value)
    (span : Span) (called : r.ValueMoved function function') (given : r.ValuesMoved args args') :
    r.Moves r.ValueMoved (Run.apply s (bound + 1) label function args span)
      (Run.apply s (bound + 1) label function' args' span) := by
  rcases called with ⟨rfl, knows⟩
  rw [Run.apply.eq_def, Run.apply.eq_def]
  dsimp only
  cases function with
  | function f =>
      cases f with
      | builtin f =>
          rcases given with ⟨rfl, known⟩
          exact moves_result (Value.call_renumber f args)
            (Value.gives_call (fun _ => reaches_of_isData) f known) span
      | declared f => exact all.enter f args args' span (Value.functions_declared.mp knows) given
      | host f =>
          rcases given with ⟨rfl, known⟩
          have same := blind r.renumbering f.handle args
          dsimp only [Value.renumber, Callable.renumber]
          rw [same]
          cases returned : s.hosts f.handle args with
          | ok v => exact moves_pure ⟨rfl, blind.frames known returned⟩
          | error reason => exact moves_fail (.hostFailure label reason) span
  | _ => exact moves_fail (.notCallable _) span

theorem moves_enter (f : Closure) (args args' : List Value) (span : Span)
    (reaches : r.Reaches f.frame) (given : r.ValuesMoved args args') :
    r.Moves r.ValueMoved (Run.enter s (bound + 1) f args span)
      (Run.enter s (bound + 1) (f.renumber r.renumbering) args' span) := by
  have sameCount : args'.length = args.length := by rw [given.1, Value.length_renumberAll]
  rw [Run.enter_succ, Run.enter_succ, sameCount]
  apply moves_if Iff.rfl
  · exact moves_fail (.argumentCount _ _ _) span
  · intro m m' moved
    have sameDepth : m'.callDepth = m.callDepth := by
      rw [Machine.callDepth, moved.callers, List.length_map, Machine.callDepth]
    have inside : r.Moves r.ValueMoved (Run.entered s bound f args span m.callDepth)
        (Run.entered s bound (f.renumber r.renumbering) args' span m'.callDepth) := by
      apply moves_if (by rw [sameDepth])
      · exact moves_fail (.callDepth _) span
      · apply Moves.bind
        · apply Moves.inCall reaches
          exact (moves_bindParams f.params given).bind fun _ _ _ => all.execAll _
        · rintro flow _ ⟨rfl, knows⟩
          cases flow with
          | ret v => exact moves_pure ⟨rfl, knows v rfl⟩
          | next => exact moves_void
          | brk | cont => exact moves_fail (.bug .loopControlEscaped) span
    exact inside m m' moved

theorem moves_exec (stmt : Stmt α) :
    r.Moves r.FlowMoved (Run.exec s (bound + 1) stmt) (Run.exec s (bound + 1) stmt) := by
  rw [Run.exec.eq_def]
  dsimp only
  apply (moves_checkCancelled s _).bind
  intro _ _ _
  cases stmt with
  | expr _ e => exact (all.eval e).bind fun _ _ _ => moves_flow rfl
  | varDecl node binder init =>
      exact (all.eval init).bind fun _ _ given =>
        (moves_define binder.name given binder.mutable).bind fun _ _ _ => moves_flow rfl
  | ret _ value =>
      cases value with
      | none => exact moves_pure (flowMoved_ret ⟨rfl, Value.functions_void⟩)
      | some e => exact (all.eval e).bind fun _ _ given => moves_pure (flowMoved_ret given)
  | ifElse _ cond thenBranch elseBranch =>
      apply (all.eval cond).bind
      intro _ _ given
      apply moves_if (isTruthy_moved given) (all.exec thenBranch).inScope
      cases elseBranch with
      | none => exact moves_flow rfl
      | some other => exact (all.exec other).inScope
  | whileLoop _ cond body => exact all.loop true (some cond) none body
  | doWhile _ body cond => exact all.loop false (some cond) none body
  | forLoop _ init cond step body =>
      apply Moves.inScope
      cases init with
      | none => exact moves_skip.bind fun _ _ _ => all.loop true cond step body
      | some first =>
          exact (all.exec first).bind fun _ _ _ =>
            moves_skip.bind fun _ _ _ => all.loop true cond step body
  | forEach node binder iterable body =>
      apply (all.eval iterable).bind
      rintro v _ ⟨rfl, knows⟩
      cases v with
      | array items =>
          exact all.loopItems node binder body items _ ⟨rfl, Value.every_array.mp knows⟩
      | _ => exact moves_fail (.notIterable _) _
  | brk _ => exact moves_flow rfl
  | cont _ => exact moves_flow rfl
  | block _ stmts => exact (all.execAll stmts).inScope
  | function node written name params body =>
      exact (moves_modify fun _ _ moved => moved.declare _ _ _ _).bind fun _ _ _ => moves_flow rfl

theorem moves_execAll (stmts : List (Stmt α)) :
    r.Moves r.FlowMoved (Run.execAll s (bound + 1) stmts) (Run.execAll s (bound + 1) stmts) := by
  cases stmts with
  | nil => exact moves_flow rfl
  | cons stmt rest =>
      apply (all.exec stmt).bind
      rintro flow _ given
      have ⟨same, knows⟩ := given
      subst same
      cases flow with
      | next => exact all.execAll rest
      | _ => exact moves_pure given

theorem moves_loop (tested : Bool) (cond step : Option (Expr α)) (body : Stmt α) :
    r.Moves r.FlowMoved (Run.loop s (bound + 1) tested cond step body)
      (Run.loop s (bound + 1) tested cond step body) := by
  have round {c c' : Bool} (same : c' = true ↔ c = true) : r.Moves r.FlowMoved
      (Run.round s bound cond step body c) (Run.round s bound cond step body c') := by
    refine moves_if same ?_ (moves_flow rfl)
    apply (all.exec body).inScope.bind
    rintro flow _ ⟨rfl, knows⟩
    cases flow with
    | brk => exact moves_flow rfl
    | ret v => exact moves_pure (flowMoved_ret ⟨rfl, knows v rfl⟩)
    | next | cont =>
        cases step with
        | none => exact moves_skip.bind fun _ _ _ => all.loop true cond none body
        | some e =>
            exact (all.eval e).bind fun _ _ _ =>
              moves_skip.bind fun _ _ _ => all.loop true cond (some e) body
  rw [Run.loop.eq_def]
  dsimp only
  apply (moves_checkCancelled s _).bind
  intro _ _ _
  -- The condition is tested in one of these cases only, and then they go on alike.
  have untested : r.Moves (fun c c' : Bool => c' = true ↔ c = true) (pure true) (pure true) :=
    moves_pure Iff.rfl
  cases cond with
  | none => exact untested.bind fun _ _ same => round same
  | some e =>
      cases tested with
      | false => exact untested.bind fun _ _ same => round same
      | true =>
          have test : r.Moves (fun c c' : Bool => c' = true ↔ c = true)
              (Value.isTruthy <$> Run.eval s bound e) (Value.isTruthy <$> Run.eval s bound e) := by
            rw [← bind_pure_comp]
            exact (all.eval e).bind fun _ _ given => moves_pure (isTruthy_moved given)
          exact test.bind fun _ _ same => round same

theorem moves_loopItems (node : StmtNode) (binder : Binder) (body : Stmt α)
    (items items' : List Value) (given : r.ValuesMoved items items') :
    r.Moves r.FlowMoved (Run.loopItems s (bound + 1) node binder body items)
      (Run.loopItems s (bound + 1) node binder body items') := by
  rcases given with ⟨rfl, known⟩
  cases items with
  | nil => exact moves_flow rfl
  | cons item rest =>
      rw [List.forall_mem_cons] at known
      rw [Value.renumberAll, Run.loopItems.eq_def, Run.loopItems.eq_def]
      dsimp only
      apply (moves_checkCancelled s _).bind
      intro _ _ _
      apply (moves_loopItem binder node.span ⟨rfl, known.1⟩).bind
      intro _ _ value
      apply Moves.bind
      · apply Moves.inScope
        exact (moves_define binder.name value binder.mutable).bind fun _ _ _ => all.exec body
      · rintro flow _ ⟨rfl, knows⟩
        cases flow with
        | brk => exact moves_flow rfl
        | ret v => exact moves_pure (flowMoved_ret ⟨rfl, knows v rfl⟩)
        | next | cont => exact all.loopItems node binder body rest _ ⟨rfl, known.2⟩

omit all in
include blind in
theorem movesAll (r : Relocation) (bound : Nat) : r.MovesAll s bound := by
  induction bound with
  | zero =>
      constructor <;> intros <;> exact moves_exhausted
  | succ bound all =>
      exact ⟨moves_eval all, moves_evalAll all, moves_evalCast all, moves_evalPath all,
        moves_evalCall all, moves_apply blind all, moves_enter all, moves_exec all,
        moves_execAll all, moves_loop all, moves_loopItems all⟩

omit all in
include blind in
/-- In another place a run gives the same. -/
theorem moves_program (r : Relocation) (bound : Nat) (p : Program α) :
    r.Moves r.ValueMoved (Run.program s bound p) (Run.program s bound p) := by
  apply moves_between (fun _ _ => id) (fun _ _ => Moved.release)
  apply Moves.inScope
  apply ((movesAll blind r bound).execAll p.body).bind
  rintro flow _ ⟨rfl, knows⟩
  cases flow with
  | next =>
      dsimp only [Flow.renumber]
      cases p.tail with
      | none => exact moves_void
      | some e => exact (movesAll blind r bound).eval e
  | ret v => exact moves_pure ⟨rfl, knows v rfl⟩
  | brk | cont => exact moves_fail (.bug .loopControlOutside) _

end Relocation

end Formulae
