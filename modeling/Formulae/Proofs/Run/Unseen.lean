import Formulae.Proofs.Run.Fragments
import Formulae.Proofs.Run.Scoping
import Formulae.Proofs.Run.View

/-!
# Runs do not depend on what they do not see

Two runs of the same formula on machines that show the same bindings end with the same
outcome, on machines that again show the same (`Run.unseen_program`).  What carries this
through the calls of functions is that every function in sight is discreet: it looks up names
only where they are shown.
-/

namespace Formulae

namespace Machine

/-- The machines are in the same scopes and calls, and their stores show the same. -/
structure Alike (view : View) (m m' : Machine) : Prop where
  store : m.store.Alike view m'.store
  env : m'.env = m.env
  callers : m'.callers = m.callers
  captured : m'.captured = m.captured

/-- The functions in sight are discreet, and all of a new frame will be in sight. -/
structure Guarded {α : Type} (view : View) (s : Setting α) (m : Machine) : Prop where
  fresh : ∀ id, m.store.frames.size ≤ id → view.live id ∧ ¬ view.hidden id
  discreet : m.store.Discreet view s

/-- The second machine is in the same scopes and calls as the first, with a store that has
grown. -/
structure Becomes (m n : Machine) : Prop where
  env : n.env = m.env
  callers : n.callers = m.callers
  store : m.store.Extends n.store

/-- The innermost scope is in sight, and if the name of the view is among those declared, the
scopes shield it. -/
structure Sees (view : View) (bound : List String) (m : Machine) : Prop where
  inStore : m.env.current < m.store.frames.size
  inside : m.store.Inside view m.env.current
  visible : ¬ view.hidden m.env.current
  shields : view.name ∈ bound → m.store.Shields view m.env.current

section

variable {α : Type} {view : View} {s : Setting α} {bound bound' : List String}
  {m m' n : Machine}

theorem Alike.refl (m : Machine) : m.Alike view m :=
  ⟨.refl _, rfl, rfl, rfl⟩

theorem Alike.symm (alike : m.Alike view m') : m'.Alike view m :=
  ⟨alike.store.symm, alike.env.symm, alike.callers.symm, alike.captured.symm⟩

theorem Alike.trans {o : Machine} (first : m.Alike view n) (second : n.Alike view o) :
    m.Alike view o :=
  ⟨first.store.trans second.store, second.env.trans first.env,
    second.callers.trans first.callers, second.captured.trans first.captured⟩

theorem Becomes.refl (m : Machine) : m.Becomes m :=
  ⟨rfl, rfl, .refl _⟩

theorem Becomes.trans {o : Machine} (first : m.Becomes n) (second : n.Becomes o) : m.Becomes o :=
  ⟨second.env.trans first.env, second.callers.trans first.callers,
    first.store.trans second.store⟩

theorem Sees.becomes (sees : m.Sees view bound) (becomes : m.Becomes n) : n.Sees view bound := by
  have same : n.env.current = m.env.current := congrArg Environment.current becomes.env
  constructor
  · rw [same]
    exact Nat.lt_of_lt_of_le sees.inStore becomes.store.size
  · rw [same]
    exact sees.inside.extends becomes.store sees.inStore
  · rw [same]
    exact sees.visible
  · rw [same]
    exact fun isBound => (sees.shields isBound).extends becomes.store sees.inStore

theorem Sees.of_mem (sees : m.Sees view bound) (h : view.name ∈ bound' → view.name ∈ bound) :
    m.Sees view bound' :=
  { sees with shields := fun isBound => sees.shields (h isBound) }

/-! ### Scopes and calls -/

theorem Alike.pushScope (alike : m.Alike view m') : m.pushScope.Alike view m'.pushScope := by
  rcases alike.store.push (some m.env.current) with ⟨frame, store⟩
  have same : m'.env.current = m.env.current := congrArg Environment.current alike.env
  refine ⟨?_, ?_, alike.callers, alike.captured⟩
  · simp only [Machine.pushScope, Environment.push, same]
    exact store
  · simp only [Machine.pushScope, Environment.push, frame, alike.env]

theorem Alike.popScope (alike : m.Alike view m') : m.popScope.Alike view m'.popScope :=
  ⟨alike.store, congrArg Environment.pop alike.env, alike.callers, alike.captured⟩

theorem Alike.enterCall (alike : m.Alike view m') (frame : Nat) :
    (m.enterCall frame).Alike view (m'.enterCall frame) := by
  have called : Alike view { m with env := .ofFrame frame, callers := m.env :: m.callers }
      { m' with env := .ofFrame frame, callers := m'.env :: m'.callers } :=
    ⟨alike.store, rfl, by rw [alike.env, alike.callers], alike.captured⟩
  exact called.pushScope

theorem Alike.leaveCall (alike : m.Alike view m') : m.leaveCall.Alike view m'.leaveCall := by
  unfold Machine.leaveCall
  rw [alike.callers]
  cases m.callers with
  | nil => exact alike
  | cons env callers => exact ⟨alike.store, rfl, rfl, alike.captured⟩

theorem Guarded.pushScope (guarded : m.Guarded view s) : m.pushScope.Guarded view s where
  fresh id isNew := by
    simp only [Machine.pushScope, Environment.push, Store.size_push] at isNew
    exact guarded.fresh id (Nat.le_of_succ_le isNew)
  discreet := guarded.discreet.push _

theorem Guarded.enterCall (guarded : m.Guarded view s) (frame : Nat) :
    (m.enterCall frame).Guarded view s := by
  have called : Guarded view s { m with env := .ofFrame frame, callers := m.env :: m.callers } :=
    ⟨guarded.fresh, guarded.discreet⟩
  exact called.pushScope

theorem Guarded.leaveCall (guarded : m.Guarded view s) : m.leaveCall.Guarded view s := by
  unfold Machine.leaveCall
  cases m.callers with
  | nil => exact guarded
  | cons env callers => exact ⟨guarded.fresh, guarded.discreet⟩

theorem extends_pushScope (m : Machine) : m.store.Extends m.pushScope.store :=
  Store.extends_push _ _

theorem Becomes.popScope (becomes : m.pushScope.Becomes n) : m.Becomes n.popScope where
  env := congrArg Environment.pop becomes.env
  callers := becomes.callers
  store := (extends_pushScope m).trans becomes.store

theorem Becomes.leaveCall {frame : Nat} (becomes : (m.enterCall frame).Becomes n) :
    m.Becomes n.leaveCall := by
  have callers : n.callers = m.env :: m.callers := becomes.callers
  have store : m.store.Extends n.store :=
    (extends_pushScope { m with env := .ofFrame frame, callers := m.env :: m.callers }).trans
      becomes.store
  unfold Machine.leaveCall
  rw [callers]
  exact ⟨rfl, rfl, store⟩

/-- A scope of its own inside of frames in sight is in sight. -/
theorem sees_pushScope (guarded : m.Guarded view s) (inStore : m.env.current < m.store.frames.size)
    (inside : m.store.Inside view m.env.current)
    (shields : view.name ∈ bound → m.store.Shields view m.env.current) :
    m.pushScope.Sees view bound := by
  have grown := extends_pushScope m
  have current : m.pushScope.env.current = m.store.frames.size := rfl
  have around : m.pushScope.store.parent? m.store.frames.size = some m.env.current :=
    Store.parent?_push_self inStore
  rcases guarded.fresh _ (Nat.le_refl _) with ⟨live, visible⟩
  refine ⟨?_, ?_, visible, ?_⟩
  · rw [current]
    exact Nat.lt_of_lt_of_eq (Nat.lt_succ_self _) (Store.size_push _ _).symm
  · rw [current]
    refine .mk live fun outer isParent => ?_
    cases around.symm.trans isParent
    exact inside.extends grown inStore
  · rw [current]
    refine fun isBound => .around visible fun outer isParent => ?_
    cases around.symm.trans isParent
    exact (shields isBound).extends grown inStore

theorem Sees.pushScope (sees : m.Sees view bound) (guarded : m.Guarded view s) :
    m.pushScope.Sees view bound :=
  sees_pushScope guarded sees.inStore sees.inside sees.shields

/-! ### Bindings -/

variable {name : String} {b : Binding}

theorem Alike.define (alike : m.Alike view m') (inStore : m.env.current < m.store.frames.size)
    (name : String) (b : Binding) : (m.define name b).Alike view (m'.define name b) := by
  refine ⟨?_, alike.env, alike.callers, alike.captured⟩
  have same : m'.env.current = m.env.current := congrArg Environment.current alike.env
  rw [Machine.define, Machine.define, same]
  exact alike.store.define inStore name b

theorem Alike.declare (alike : m.Alike view m') (inStore : m.env.current < m.store.frames.size)
    (declaration : Nat) (name : String) (label : Name) (params : List Param) :
    (m.declare declaration name label params).Alike view
      (m'.declare declaration name label params) := by
  have same : m'.env.current = m.env.current := congrArg Environment.current alike.env
  have counted : m.store.freshFunction.2.Alike view m'.store.freshFunction.2 :=
    { alike.store with declared := congrArg (· + 1) alike.store.declared }
  have number : m'.store.freshFunction.1 = m.store.freshFunction.1 := alike.store.declared
  refine ⟨?_, alike.env, alike.callers, ?_⟩
  · simp only [Machine.declare, same, number]
    exact counted.define inStore _ _
  · simp only [Machine.declare, same, alike.captured]

theorem becomes_define (m : Machine) (name : String) (b : Binding) :
    m.Becomes (m.define name b) :=
  ⟨rfl, rfl, Store.extends_define _ _ _ _⟩

theorem becomes_declare (m : Machine) (declaration : Nat) (name : String) (label : Name)
    (params : List Param) : m.Becomes (m.declare declaration name label params) :=
  ⟨rfl, rfl, Store.extends_freshFunction m.store |>.trans (Store.extends_define _ _ _ _)⟩

/-- A scope that binds a name shields it. -/
theorem Sees.shields_of_find? (sees : m.Sees view bound) (becomes : m.Becomes n)
    (isBound : (n.store.find? m.env.current name).isSome) : n.Sees view (name :: bound) := by
  have later := sees.becomes becomes
  have same : n.env.current = m.env.current := congrArg Environment.current becomes.env
  refine { later with shields := fun member => ?_ }
  rcases List.mem_cons.mp member with isName | member
  · rw [← isName] at isBound
    exact .bound later.visible (same ▸ isBound)
  · exact later.shields member

theorem Sees.define (sees : m.Sees view bound) (name : String) (b : Binding) :
    (m.define name b).Sees view (name :: bound) := by
  apply sees.shields_of_find? (becomes_define m name b)
  rw [Machine.define, Store.find?_define sees.inStore, if_pos ⟨rfl, rfl⟩]
  rfl

theorem Sees.declare (sees : m.Sees view bound) (declaration : Nat) (name : String)
    (label : Name) (params : List Param) :
    (m.declare declaration name label params).Sees view (name :: bound) := by
  apply sees.shields_of_find? (becomes_declare m declaration name label params)
  rw [Machine.declare]
  exact (congrArg Option.isSome
    ((@Store.find?_define m.store.freshFunction.2 _ sees.inStore _ _ _ _).trans
      (if_pos ⟨rfl, rfl⟩))).trans rfl

theorem Guarded.define (guarded : m.Guarded view s) (sees : m.Sees view bound) (name : String)
    {b : Binding} (fine : b.value.Discreet view s m.store) :
    (m.define name b).Guarded view s where
  fresh id isNew := by
    rw [Machine.define, Store.define, Store.size_modify] at isNew
    exact guarded.fresh id isNew
  discreet := guarded.discreet.define name (fun _ => fine) sees.inStore

theorem Guarded.declare (guarded : m.Guarded view s) (sees : m.Sees view bound) (node : StmtNode)
    (name : String) (label : Name) (params : List Param)
    (spared : view.name ∉
      Stmt.namesAll (params.map Param.name ++ name :: bound) (s.body node.id)) :
    (m.declare node.id name label params).Guarded view s where
  fresh id isNew := by
    have kept (frame : Frame) (b : Binding) : (frame.define name b).parent = frame.parent := rfl
    have size : (m.declare node.id name label params).store.frames.size = m.store.frames.size :=
      Store.size_modify m.store.freshFunction.2 _ _ fun frame => kept frame _
    exact guarded.fresh id (size ▸ isNew)
  discreet := by
    have later := sees.declare node.id name label params
    have fine : (Value.function (.declared
        ⟨m.store.declared, node.id, name, label, params, m.env.current⟩)).Discreet view s
        (m.declare node.id name label params).store :=
      Value.functions_declared.mpr
        ⟨later.inStore, later.inside, name :: bound, later.shields, spared⟩
    intro id key b shown isBound
    rw [Machine.declare] at isBound
    have found := (@Store.find?_define m.store.freshFunction.2 _ sees.inStore _ _ _ _).symm.trans
      isBound
    split at found
    · cases found
      exact fine
    · exact (guarded.discreet id key b shown found).extends
        (becomes_declare m node.id name label params).store

end

end Machine

/-! ## Steps -/

/-- The outcomes are the same, on machines that show the same. -/
inductive Run.Pairs {α β : Type} (view : View) (s : Setting α) (m : Machine)
    (good : Machine → β → Prop) :
    EStateM.Result Stop Machine β → EStateM.Result Stop Machine β → Prop
  | ok {v : β} {n n' : Machine} (alike : n.Alike view n') (guarded : n.Guarded view s)
      (becomes : m.Becomes n) (h : good n v) : Pairs view s m good (.ok v n) (.ok v n')
  | error {stop : Stop} {n n' : Machine} (alike : n.Alike view n') (guarded : n.Guarded view s) :
      Pairs view s m good (.error stop n) (.error stop n')

namespace Run

variable {α β γ : Type} {view : View} {s : Setting α} {m m' : Machine}
  {pre pre' : Machine → Prop} {good : Machine → β → Prop} {good' : Machine → γ → Prop}

/-- The step ends in the same way on machines that show the same, if `pre` holds of the first;
a result is as `good` says. -/
def Unseen (view : View) (s : Setting α) (pre : Machine → Prop) (x : Run β)
    (good : Machine → β → Prop) : Prop :=
  ∀ m m' : Machine, m.Alike view m' → m.Guarded view s → pre m → Pairs view s m good (x m) (x m')

/-- What holds of a machine goes on to hold. -/
def Lasting (pre : Machine → Prop) : Prop :=
  ∀ m n : Machine, m.Becomes n → pre m → pre n

theorem Lasting.and (first : Lasting pre) (second : Lasting pre') :
    Lasting fun m => pre m ∧ pre' m :=
  fun m n becomes h => ⟨first m n becomes h.1, second m n becomes h.2⟩

theorem lasting_sees (view : View) (bound : List String) : Lasting (Machine.Sees view bound) :=
  fun _ _ becomes sees => sees.becomes becomes

theorem lasting_discreet (v : Value) : Lasting fun m => v.Discreet view s m.store :=
  fun _ _ becomes discreet => discreet.extends becomes.store

theorem Pairs.mono {ended ended' : EStateM.Result Stop Machine β}
    (pairs : Pairs view s m good ended ended') {good' : Machine → β → Prop}
    (h : ∀ n v, m.Becomes n → good n v → good' n v) : Pairs view s m good' ended ended' := by
  cases pairs with
  | ok alike guarded becomes holds => exact .ok alike guarded becomes (h _ _ becomes holds)
  | error alike guarded => exact .error alike guarded

theorem Unseen.mono {x : Run β} (unseen : Unseen view s pre x good)
    (before : ∀ m, pre' m → pre m) {good' : Machine → β → Prop}
    (after : ∀ n v, good n v → good' n v) : Unseen view s pre' x good' :=
  fun m m' alike guarded h => (unseen m m' alike guarded (before m h)).mono fun n v _ => after n v

theorem Unseen.given {x : Run β} (unseen : Unseen view s pre x good)
    (before : ∀ m, pre' m → pre m) : Unseen view s pre' x good :=
  unseen.mono before fun _ _ => id

theorem unseen_pure {v : β} (h : ∀ m, pre m → good m v) : Unseen view s pre (pure v) good :=
  fun m _ alike guarded holds => .ok alike guarded (.refl m) (h m holds)

theorem unseen_throw (stop : Stop) : Unseen view s pre (throw stop : Run β) good :=
  fun _ _ alike guarded _ => .error alike guarded

theorem unseen_fail (fault : EvalFault) (span : Span) :
    Unseen view s pre (fail fault span : Run β) good :=
  unseen_throw _

theorem unseen_exhausted : Unseen view s pre (throw .exhausted : Run β) good :=
  unseen_throw _

/-- What holds before the first step and lasts holds before the second. -/
theorem Unseen.bind {x : Run β} {f : β → Run γ} (first : Unseen view s pre x good)
    (lasting : Lasting pre)
    (second : ∀ v, Unseen view s (fun m => pre m ∧ good m v) (f v) good') :
    Unseen view s pre (x >>= f) good' := by
  intro m m' alike guarded holds
  have outcome := first m m' alike guarded holds
  simp only [Bind.bind, EStateM.bind]
  revert outcome
  generalize x m = ended, x m' = ended'
  intro outcome
  cases outcome with
  | error alike guarded => exact .error alike guarded
  | ok alike guarded becomes h =>
      have outcome := second _ _ _ alike guarded ⟨lasting _ _ becomes holds, h⟩
      dsimp only
      revert outcome
      generalize f _ _ = ended, f _ _ = ended'
      intro outcome
      cases outcome with
      | error alike guarded => exact .error alike guarded
      | ok alike guarded becomes' h' => exact .ok alike guarded (becomes.trans becomes') h'

/-- A step whose result makes no difference to what the next one relies on. -/
theorem Unseen.seq {x : Run β} {f : β → Run γ} (first : Unseen view s pre x good)
    (lasting : Lasting pre) (second : ∀ v, Unseen view s pre (f v) good') :
    Unseen view s pre (x >>= f) good' :=
  first.bind lasting fun v => (second v).given fun _ h => h.1

theorem Unseen.map {x : Run β} (f : β → γ) (lasting : Lasting pre)
    (unseen : Unseen view s pre x good) : Unseen view s pre (f <$> x) fun _ _ => True := by
  rw [← bind_pure_comp]
  exact unseen.bind lasting fun _ => unseen_pure fun _ _ => trivial

/-- What holds before a step and lasts holds after it. -/
theorem Unseen.keeping {x : Run β} (unseen : Unseen view s pre x good) (lasting : Lasting pre) :
    Unseen view s pre x fun m v => pre m ∧ good m v :=
  fun m m' alike guarded holds => (unseen m m' alike guarded holds).mono
    fun n _ becomes h => ⟨lasting m n becomes holds, h⟩

/-- A step may be looked at for each machine it starts on. -/
theorem unseen_of_each {x : Run β} (h : ∀ m, pre m → Unseen view s (· = m) x good) :
    Unseen view s pre x good :=
  fun m m' alike guarded holds => h m holds m m' alike guarded rfl

theorem unseen_located {result : Except EvalFault β} (span : Span)
    (h : ∀ m, pre m → ∀ v, result = .ok v → good m v) :
    Unseen view s pre (located span result) good := by
  cases result with
  | ok v => exact unseen_pure fun m holds => h m holds v rfl
  | error fault => exact unseen_fail _ _

theorem Unseen.unlessCancelled {x : Run β} (unseen : Unseen view s pre x good)
    (lasting : Lasting pre) (span : Span) :
    Unseen view s pre (do checkCancelled s span; x) good := by
  have checked : Unseen view s pre (checkCancelled s span) fun _ _ => True := by
    unfold checkCancelled
    split
    · exact unseen_fail _ _
    · exact unseen_pure fun _ _ => trivial
  exact checked.seq lasting fun _ => unseen

/-- Machines that show the same have as many calls. -/
theorem Unseen.atDepth {x : Nat → Run β} (each : ∀ depth, Unseen view s pre (x depth) good) :
    Unseen view s pre (do x (← get).callDepth) good := by
  intro m m' alike guarded holds
  have sameDepth : m'.callDepth = m.callDepth := congrArg List.length alike.callers
  change Pairs view s m good (x m.callDepth m) (x m'.callDepth m')
  rw [sameDepth]
  exact each m.callDepth m m' alike guarded holds

theorem unseen_modify {change : Machine → Machine} {good : Machine → Unit → Prop}
    (h : ∀ m m' : Machine, m.Alike view m' → m.Guarded view s → pre m →
      (change m).Alike view (change m') ∧ (change m).Guarded view s ∧ m.Becomes (change m) ∧
        good (change m) ()) :
    Unseen view s pre (modify change) good := by
  intro m m' alike guarded holds
  rcases h m m' alike guarded holds with ⟨alike, guarded, becomes, h⟩
  exact .ok alike guarded becomes h

theorem Unseen.inScope {x : Run β} (unseen : Unseen view s pre' x good)
    (enters : ∀ m : Machine, m.Guarded view s → pre m → pre' m.pushScope)
    {good' : Machine → β → Prop} (leaves : ∀ n v, good n v → good' n.popScope v) :
    Unseen view s pre (inScope x) good' := by
  intro m m' alike guarded holds
  have outcome := unseen _ _ alike.pushScope guarded.pushScope (enters m guarded holds)
  simp only [Run.inScope, between]
  revert outcome
  generalize x m.pushScope = ended, x m'.pushScope = ended'
  intro outcome
  cases outcome with
  | error alike guarded => exact .error alike.popScope ⟨guarded.fresh, guarded.discreet⟩
  | ok alike guarded becomes h =>
      exact .ok alike.popScope ⟨guarded.fresh, guarded.discreet⟩ becomes.popScope (leaves _ _ h)

theorem Unseen.inCall {x : Run β} {frame : Nat} (unseen : Unseen view s pre' x good)
    (enters : ∀ m : Machine, m.Guarded view s → pre m → pre' (m.enterCall frame))
    {good' : Machine → β → Prop} (leaves : ∀ n v, good n v → good' n.leaveCall v) :
    Unseen view s pre (inCall frame x) good' := by
  intro m m' alike guarded holds
  have outcome :=
    unseen _ _ (alike.enterCall frame) (guarded.enterCall frame) (enters m guarded holds)
  simp only [Run.inCall, between]
  revert outcome
  generalize x (m.enterCall frame) = ended, x (m'.enterCall frame) = ended'
  intro outcome
  cases outcome with
  | error alike guarded => exact .error alike.leaveCall guarded.leaveCall
  | ok alike guarded becomes h =>
      exact .ok alike.leaveCall guarded.leaveCall becomes.leaveCall (leaves _ _ h)

/-! ### Names -/

section

variable {bound : List String} {name : String}

/-- A name is looked up with the same outcome, among the bindings that are shown. -/
theorem resolve?_alike (alike : m.Alike view m') (sees : m.Sees view bound)
    (declared : name = view.name → view.name ∈ bound) :
    m'.store.resolve? m'.env.current name = m.store.resolve? m.env.current name := by
  rw [alike.env]
  exact alike.store.resolve?_eq sees.inside fun isName => sees.shields (declared isName)

theorem discreet_of_resolve? (guarded : m.Guarded view s) (sees : m.Sees view bound)
    (declared : name = view.name → view.name ∈ bound) {frame : Nat} {b : Binding}
    (resolved : m.store.resolve? m.env.current name = some (frame, b)) :
    b.value.Discreet view s m.store :=
  guarded.discreet frame name b
    (Store.shows_of_resolve? sees.inside (fun isName => sees.shields (declared isName)) resolved)
    (Store.bound_of_resolve? resolved).1

theorem unseen_fetch (declared : name = view.name → view.name ∈ bound) (missing : EvalFault)
    (span : Span) : Unseen view s (Machine.Sees view bound) (fetch name missing span)
      fun m v => v.Discreet view s m.store := by
  intro m m' alike guarded sees
  unfold fetch Machine.lookup? Store.lookup?
  rw [resolve?_alike alike sees declared]
  cases resolved : m.store.resolve? m.env.current name with
  | some found =>
      obtain ⟨frame, b⟩ := found
      exact .ok alike guarded (.refl m) (discreet_of_resolve? guarded sees declared resolved)
  | none =>
      dsimp only [Option.map_none]
      cases Builtin.ofName? name with
      | some function => exact .ok alike guarded (.refl m) (Value.functions_builtin function)
      | none => exact .error alike guarded

theorem unseen_assign (declared : name = view.name → view.name ∈ bound) (path : List Value.Step)
    (base : Option Operator) (value : Value) (span : Span) :
    Unseen view s (fun m => m.Sees view bound ∧ value.Discreet view s m.store)
      (assign name path base value span) fun m v => v.Discreet view s m.store := by
  rintro m m' alike guarded ⟨sees, fine⟩
  unfold assign Store.place
  rw [resolve?_alike alike sees declared]
  cases resolved : m.store.resolve? m.env.current name with
  | none => exact .error alike guarded
  | some found =>
      obtain ⟨frame, b⟩ := found
      have fineOld := discreet_of_resolve? guarded sees declared resolved
      dsimp only
      cases replaceable : b.mutable with
      | false => exact .error alike guarded
      | true =>
          simp only [if_true]
          have combines (old : Value) (_ : old.Discreet view s m.store) :
              Value.GivesAt (fun part => ∀ f, part = .function (.declared f) →
                Closure.Discreet view s m.store f) (Value.combined base value span old) :=
            Value.gives_combined (@Value.no_function_of_isData _) old fine
          have update := Value.ends_update (@Value.no_function_of_isData _) combines path fineOld
          cases ran : b.value.update (Value.combined base value span) path with
          | error error => exact .error alike guarded
          | ok given =>
              have given' := update.of_ok ran
              have grown := Store.extends_write m.store frame name given.1
              refine .ok ⟨alike.store.write frame name given.1, alike.env, alike.callers,
                alike.captured⟩ ⟨?_, guarded.discreet.write frame name given'.1⟩
                ⟨rfl, rfl, grown⟩ (Value.Discreet.extends given'.2 grown)
              intro id isNew
              rw [Store.write, Store.size_modify] at isNew
              exact guarded.fresh id isNew

theorem unseen_define (name : String) (b : Binding) :
    Unseen view s (fun m => m.Sees view bound ∧ b.value.Discreet view s m.store)
      (modify (·.define name b)) fun m _ => m.Sees view (name :: bound) := by
  apply unseen_modify
  rintro m m' alike guarded ⟨sees, fine⟩
  exact ⟨alike.define sees.inStore name b, guarded.define sees name fine,
    Machine.becomes_define m name b, sees.define name b⟩

/-- The parameters of a function are bound to the arguments. -/
theorem unseen_bindParams (bound : List String) {params : List Param} {args : List Value}
    (count : args.length = params.length) :
    Unseen view s
      (fun m => m.Sees view bound ∧ ∀ arg, arg ∈ args → arg.Discreet view s m.store)
      (bindParams params args) fun m _ => m.Sees view (params.map Param.name ++ bound) := by
  apply unseen_modify
  induction params generalizing args bound with
  | nil => exact fun m _ alike guarded holds => ⟨alike, guarded, .refl m, holds.1⟩
  | cons param rest inductionHypothesis =>
      cases args with
      | nil => cases count
      | cons arg others =>
          rintro m m' alike guarded ⟨sees, fine⟩
          rw [List.forall_mem_cons] at fine
          have becomes := Machine.becomes_define m param.name ⟨arg, param.mutable⟩
          have fine' : ∀ other, other ∈ others →
              other.Discreet view s (m.define param.name ⟨arg, param.mutable⟩).store :=
            fun other member => Value.Discreet.extends (fine.2 other member) becomes.store
          rcases inductionHypothesis (param.name :: bound) (Nat.succ.inj count) _ _
            (alike.define sees.inStore param.name ⟨arg, param.mutable⟩)
            (guarded.define sees param.name fine.1) ⟨sees.define _ _, fine'⟩ with
            ⟨alike, guarded, becomes', sees'⟩
          refine ⟨alike, guarded, becomes.trans becomes', sees'.of_mem ?_⟩
          simp [or_left_comm]

end

/-- Values of the part of a computation that makes no function. -/
theorem discreet_of_gives {store : Store} {result : Except EvalFault Value}
    (gives : Value.Gives (fun part => ∀ f, part = .function (.declared f) →
      Closure.Discreet view s store f) result) {v : Value} (given : result = .ok v) :
    v.Discreet view s store :=
  gives.of_ok given

theorem unseen_data {result : Except EvalFault Value} (span : Span)
    (givesData : Value.GivesData result) :
    Unseen view s pre (located span result) fun m v => v.Discreet view s m.store :=
  unseen_located span fun _ _ _ =>
    discreet_of_gives (givesData.gives (@Value.no_function_of_isData _))

theorem unseen_cast (target : Ty) (v : Value) (span : Span) :
    Unseen view s (fun m => v.Discreet view s m.store) (located span (Value.cast target v))
      fun m v => v.Discreet view s m.store :=
  unseen_located span fun _ fine _ =>
    discreet_of_gives (Value.gives_cast (@Value.no_function_of_isData _) target fine)

theorem unseen_loopItem (binder : Binder) (span : Span) (item : Value) :
    Unseen view s (fun m => item.Discreet view s m.store) (loopItem binder span item)
      fun m v => v.Discreet view s m.store := by
  unfold loopItem
  split
  · exact unseen_cast _ _ _
  · exact unseen_pure fun _ fine => fine

end Run

end Formulae
