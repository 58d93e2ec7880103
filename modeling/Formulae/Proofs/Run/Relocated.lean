import Formulae.Proofs.Run.Fragments
import Formulae.Proofs.Run.Frames
import Formulae.Proofs.Value.Renumbered

/-!
# Runs in another place

A run makes new frames and new functions, and their numbers depend on how many there were
before it.  Nothing else does: two machines that are alike but for these numbers
(`Relocation.Moved`) run a formula to results and failures that are alike in the same way
(`Relocation.moves_program`), if the functions supplied from outside do not look at the
numbers either (`Blind`).
-/

namespace Formulae

/-- Functions supplied from outside do not depend on the numbers of the functions that
they are given. -/
def Blind (hosts : Hosts) : Prop :=
  ∀ (r : Renumbering) (handle : Nat) (args : List Value),
    hosts handle (Value.renumberAll r args) = (hosts handle args).map (Value.renumber r)

/-- Where one machine has its bottom frame and where another one has it, the number of the
first new frame, and by how much the numbers of new frames and of functions differ. -/
structure Relocation where
  base : Nat
  base' : Nat
  first : Nat
  frames : Nat
  functions : Nat
  older : base < first
  older' : base' < first + frames

namespace Relocation

variable {r : Relocation}

/-- The number in the other machine of a frame. -/
def frame (r : Relocation) (id : Nat) : Nat :=
  if id = r.base then r.base' else id + r.frames

/-- The numbers that frames and functions have in the other machine. -/
def renumbering (r : Relocation) : Renumbering where
  frame := r.frame
  identity id := id + r.functions
  injective _ _ same := Nat.add_right_cancel same

/-- The frame is the bottom frame or a new one. -/
def Reaches (r : Relocation) (id : Nat) : Prop :=
  id = r.base ∨ r.first ≤ id

/-- All functions in the value that were declared in a formula are in such frames. -/
abbrev Knows (r : Relocation) (v : Value) : Prop :=
  v.Functions fun f => r.Reaches f.frame

theorem frame_of_first_le {id : Nat} (new : r.first ≤ id) : r.frame id = id + r.frames :=
  if_neg (Nat.ne_of_gt (Nat.lt_of_lt_of_le r.older new))

theorem frame_base : r.frame r.base = r.base' :=
  if_pos rfl

theorem frame_inj {id other : Nat} (reaches : r.Reaches id) (reaches' : r.Reaches other) :
    r.frame id = r.frame other ↔ id = other := by
  have older := r.older
  have older' := r.older'
  rcases reaches with rfl | new <;> rcases reaches' with rfl | new'
  · simp
  · rw [frame_base, frame_of_first_le new']
    omega
  · rw [frame_base, frame_of_first_le new]
    omega
  · rw [frame_of_first_le new, frame_of_first_le new']
    omega

/-! ## Machines -/

/-- The binding as the other machine has it. -/
def binding (r : Relocation) (b : Binding) : Binding :=
  { b with value := b.value.renumber r.renumbering }

/-- The contents of a frame as the other machine has them. -/
def contents (r : Relocation) (frame : Frame) : Frame where
  bindings := frame.bindings.map fun entry => (entry.1, r.binding entry.2)
  parent := frame.parent.map r.frame

/-- The scopes as the other machine has them. -/
def environment (r : Relocation) (env : Environment) : Environment where
  inner := env.inner.map r.frame
  global := r.frame env.global

/-- The frame leads to known frames and functions only. -/
structure FrameInside (r : Relocation) (frame : Frame) : Prop where
  parent : ∀ outer, frame.parent = some outer → r.Reaches outer
  values : ∀ entry ∈ frame.bindings, r.Knows entry.2.value

/-- The scopes have known frames only. -/
structure EnvironmentInside (r : Relocation) (env : Environment) : Prop where
  inner : ∀ id ∈ env.inner, r.Reaches id
  global : r.Reaches env.global

/-- What can be reached in one store is in the other one under other numbers. -/
structure MovedStore (r : Relocation) (store store' : Store) : Prop where
  started : r.first ≤ store.frames.size
  size : store'.frames.size = store.frames.size + r.frames
  declared : store'.declared = store.declared + r.functions
  frames : ∀ id, r.Reaches id →
    store'.frames[r.frame id]? = store.frames[id]?.map r.contents
  inside : ∀ id, r.Reaches id → ∀ frame, store.frames[id]? = some frame → r.FrameInside frame

/-- The machines are alike but for the numbers of frames and functions. -/
structure Moved (r : Relocation) (m m' : Machine) : Prop where
  store : r.MovedStore m.store m'.store
  env : m'.env = r.environment m.env
  envInside : r.EnvironmentInside m.env
  callers : m'.callers = m.callers.map r.environment
  callersInside : ∀ env ∈ m.callers, r.EnvironmentInside env
  captured : m'.captured = m.captured.map r.frame
  capturedInside : ∀ id ∈ m.captured, r.Reaches id

/-! ## Frames -/

theorem find?_contents (frame : Frame) (name : String) :
    (r.contents frame).find? name = (frame.find? name).map r.binding := by
  unfold Frame.find? contents
  induction frame.bindings with
  | nil => rfl
  | cons entry rest inductionHypothesis =>
      rw [List.map_cons, List.lookup_cons, List.lookup_cons]
      split
      · rfl
      · exact inductionHypothesis

theorem contents_define (frame : Frame) (name : String) (b : Binding) :
    r.contents (frame.define name b) = (r.contents frame).define name (r.binding b) := by
  simp only [contents, Frame.define, List.map_cons, List.filter_map]
  rfl

theorem contents_assign (frame : Frame) (name : String) (v : Value) :
    r.contents (frame.assign name v) =
      (r.contents frame).assign name (v.renumber r.renumbering) := by
  simp only [contents, Frame.assign, List.map_map]
  congr 1
  apply List.map_congr_left
  rintro ⟨key, b⟩ _
  simp only [Function.comp_apply]
  split <;> rfl

theorem FrameInside.define {frame : Frame} (inside : r.FrameInside frame) (name : String)
    {b : Binding} (knows : r.Knows b.value) : r.FrameInside (frame.define name b) where
  parent := inside.parent
  values entry member := by
    rcases List.mem_cons.mp member with rfl | older
    · exact knows
    · exact inside.values entry (List.mem_filter.mp older).1

theorem FrameInside.assign {frame : Frame} (inside : r.FrameInside frame) (name : String)
    {v : Value} (knows : r.Knows v) : r.FrameInside (frame.assign name v) where
  parent := inside.parent
  values entry member := by
    rcases List.mem_map.mp member with ⟨⟨key, b⟩, older, rfl⟩
    dsimp only
    split
    · exact knows
    · exact inside.values _ older

theorem FrameInside.clear {frame : Frame} (inside : r.FrameInside frame) :
    r.FrameInside frame.clear where
  parent := inside.parent
  values _ member := nomatch member

/-! ## Stores -/

namespace MovedStore

variable {store store' : Store}

theorem find? (moved : r.MovedStore store store') {id : Nat} (reaches : r.Reaches id)
    (name : String) : store'.find? (r.frame id) name = (store.find? id name).map r.binding := by
  unfold Store.find?
  rw [moved.frames id reaches]
  cases store.frames[id]? with
  | none => rfl
  | some frame => exact find?_contents frame name

theorem parent? (moved : r.MovedStore store store') {id : Nat} (reaches : r.Reaches id) :
    store'.parent? (r.frame id) = (store.parent? id).map r.frame := by
  unfold Store.parent?
  rw [moved.frames id reaches]
  cases store.frames[id]? <;> rfl

theorem reaches_parent (moved : r.MovedStore store store') {id outer : Nat}
    (reaches : r.Reaches id) (around : store.parent? id = some outer) : r.Reaches outer := by
  rcases Option.bind_eq_some_iff.mp around with ⟨frame, found, isParent⟩
  exact (moved.inside id reaches frame found).parent outer isParent

theorem knows (moved : r.MovedStore store store') {id : Nat} (reaches : r.Reaches id)
    {name : String} {b : Binding} (bound : store.find? id name = some b) : r.Knows b.value := by
  rcases Option.bind_eq_some_iff.mp bound with ⟨frame, found, isBound⟩
  rcases List.lookup_eq_some_iff.mp isBound with ⟨before, after, entries, _⟩
  apply (moved.inside id reaches frame found).values (name, b)
  rw [entries]
  exact List.mem_append_right _ List.mem_cons_self

/-- A name is found in the same place, with the same value. -/
theorem resolve? (moved : r.MovedStore store store') (name : String) {id : Nat}
    (reaches : r.Reaches id) :
    store'.resolve? (r.frame id) name =
        (store.resolve? id name).map (Prod.map r.frame r.binding) ∧
      ∀ found b, store.resolve? id name = some (found, b) → r.Reaches found ∧ r.Knows b.value := by
  induction id using Nat.strongRecOn with
  | ind id inductionHypothesis =>
      rw [Store.resolve?_eq, Store.resolve?_eq store, moved.find? reaches, moved.parent? reaches]
      cases bound : store.find? id name with
      | some b =>
          refine ⟨rfl, ?_⟩
          rintro _ _ ⟨⟩
          exact ⟨reaches, moved.knows reaches bound⟩
      | none =>
          cases around : store.parent? id with
          | none => exact ⟨rfl, nofun⟩
          | some outer =>
              exact inductionHypothesis outer (Store.parent?_lt around)
                (moved.reaches_parent reaches around)

theorem reaches_size (moved : r.MovedStore store store') : r.Reaches store.frames.size :=
  .inr moved.started

theorem frame_size (moved : r.MovedStore store store') :
    r.frame store.frames.size = store'.frames.size := by
  rw [frame_of_first_le moved.started, moved.size]

theorem empty (moved : r.MovedStore store store') {outer : Nat} (reaches : r.Reaches outer) :
    Frame.empty ((some (r.frame outer)).filter fun id => id < store'.frames.size) =
        r.contents (Frame.empty ((some outer).filter fun id => id < store.frames.size)) ∧
      r.FrameInside (Frame.empty ((some outer).filter fun id => id < store.frames.size)) := by
  have same : r.frame outer < store'.frames.size ↔ outer < store.frames.size := by
    have older := r.older
    have older' := r.older'
    have started := moved.started
    rw [moved.size]
    rcases reaches with rfl | new
    · rw [frame_base]
      omega
    · rw [frame_of_first_le new]
      omega
  by_cases inStore : outer < store.frames.size
  · have inStore' := same.mpr inStore
    simp only [Option.filter, decide_eq_true inStore, decide_eq_true inStore', if_true]
    exact ⟨rfl, ⟨fun _ isOuter => Option.some.inj isOuter ▸ reaches, nofun⟩⟩
  · have outside := mt same.mp inStore
    simp only [Option.filter, decide_eq_false inStore, decide_eq_false outside]
    exact ⟨rfl, ⟨nofun, nofun⟩⟩

theorem push (moved : r.MovedStore store store') {outer : Nat} (reaches : r.Reaches outer) :
    r.MovedStore (store.push (some outer)).2 (store'.push (some (r.frame outer))).2 := by
  rcases moved.empty reaches with ⟨same, inside⟩
  constructor
  · rw [Store.size_push]
    exact Nat.le_succ_of_le moved.started
  · rw [Store.size_push, Store.size_push, moved.size, Nat.add_right_comm]
  · exact moved.declared
  · intro id reachesId
    have isNew : r.frame id = store'.frames.size ↔ id = store.frames.size := by
      rw [← moved.frame_size, frame_inj reachesId moved.reaches_size]
    simp only [Store.push, Array.getElem?_push, isNew]
    split
    · exact congrArg some same
    · exact moved.frames id reachesId
  · intro id reachesId frame found
    simp only [Store.push, Array.getElem?_push] at found
    split at found
    · cases found
      exact inside
    · exact moved.inside id reachesId frame found

theorem modify (moved : r.MovedStore store store') {id : Nat} (reaches : r.Reaches id)
    {change change' : Frame → Frame} {keeps : ∀ frame, (change frame).parent = frame.parent}
    {keeps' : ∀ frame, (change' frame).parent = frame.parent}
    (same : ∀ frame, r.contents (change frame) = change' (r.contents frame))
    (inside : ∀ frame, r.FrameInside frame → r.FrameInside (change frame)) :
    r.MovedStore (store.modify id change keeps) (store'.modify (r.frame id) change' keeps') := by
  constructor
  · rw [Store.size_modify]
    exact moved.started
  · rw [Store.size_modify, Store.size_modify, moved.size]
  · exact moved.declared
  · intro other reachesOther
    simp only [Store.modify, Array.getElem?_modify, frame_inj reaches reachesOther]
    rw [moved.frames other reachesOther]
    split
    · cases store.frames[other]? with
      | none => rfl
      | some frame => exact congrArg some (same frame).symm
    · rfl
  · intro other reachesOther frame found
    simp only [Store.modify, Array.getElem?_modify] at found
    split at found
    · rcases Option.map_eq_some_iff.mp found with ⟨before, foundBefore, rfl⟩
      exact inside before (moved.inside other reachesOther before foundBefore)
    · exact moved.inside other reachesOther frame found

theorem define (moved : r.MovedStore store store') {id : Nat} (reaches : r.Reaches id)
    (name : String) {b : Binding} (knows : r.Knows b.value) :
    r.MovedStore (store.define id name b) (store'.define (r.frame id) name (r.binding b)) :=
  moved.modify reaches (contents_define · name b) fun _ inside => inside.define name knows

theorem write (moved : r.MovedStore store store') {id : Nat} (reaches : r.Reaches id)
    (name : String) {v : Value} (knows : r.Knows v) :
    r.MovedStore (store.write id name v)
      (store'.write (r.frame id) name (v.renumber r.renumbering)) :=
  moved.modify reaches (contents_assign · name v) fun _ inside => inside.assign name knows

theorem clear (moved : r.MovedStore store store') {id : Nat} (reaches : r.Reaches id) :
    r.MovedStore (store.clear id) (store'.clear (r.frame id)) :=
  moved.modify reaches (fun _ => rfl) fun _ inside => inside.clear

theorem clearAll {ids : List Nat} (moved : r.MovedStore store store')
    (reaches : ∀ id ∈ ids, r.Reaches id) :
    r.MovedStore (ids.foldl Store.clear store)
      ((ids.map r.frame).foldl Store.clear store') := by
  induction ids generalizing store store' with
  | nil => exact moved
  | cons id rest inductionHypothesis =>
      rw [List.forall_mem_cons] at reaches
      exact inductionHypothesis (moved.clear reaches.1) reaches.2

end MovedStore

/-! ## Changes of machines -/

theorem current_environment (env : Environment) :
    (r.environment env).current = r.frame env.current := by
  unfold Environment.current environment
  cases env.inner <;> rfl

theorem EnvironmentInside.current {env : Environment} (inside : r.EnvironmentInside env) :
    r.Reaches env.current := by
  unfold Environment.current
  cases inner : env.inner with
  | nil => exact inside.global
  | cons id rest => exact inside.inner id (by rw [inner]; exact List.mem_cons_self)

namespace Moved

variable {m m' : Machine}

theorem current (moved : r.Moved m m') : m'.env.current = r.frame m.env.current := by
  rw [moved.env, current_environment]

theorem pushScope (moved : r.Moved m m') : r.Moved m.pushScope m'.pushScope := by
  have pushed := moved.store.push moved.envInside.current
  rw [← moved.current] at pushed
  refine { moved with store := pushed, env := ?_, envInside := ?_ }
  · simp only [Machine.pushScope, Environment.push, environment, Store.push, List.map_cons,
      moved.store.frame_size, moved.env]
  · refine ⟨?_, moved.envInside.global⟩
    exact List.forall_mem_cons.mpr ⟨moved.store.reaches_size, moved.envInside.inner⟩

theorem popScope (moved : r.Moved m m') : r.Moved m.popScope m'.popScope := by
  refine { moved with env := ?_, envInside := ?_ }
  · simp only [Machine.popScope, Environment.pop, environment, moved.env, List.map_tail]
  · exact ⟨fun id member => moved.envInside.inner id (List.mem_of_mem_tail member),
      moved.envInside.global⟩

theorem enterCall (moved : r.Moved m m') {frame : Nat} (reaches : r.Reaches frame) :
    r.Moved (m.enterCall frame) (m'.enterCall (r.frame frame)) := by
  apply Moved.pushScope
  refine { moved with env := rfl, envInside := ⟨nofun, reaches⟩, callers := ?_, callersInside := ?_ }
  · rw [List.map_cons, moved.env, moved.callers]
  · exact List.forall_mem_cons.mpr ⟨moved.envInside, moved.callersInside⟩

theorem leaveCall (moved : r.Moved m m') : r.Moved m.leaveCall m'.leaveCall := by
  have callers := moved.callers
  have inside := moved.callersInside
  unfold Machine.leaveCall
  cases left : m.callers with
  | nil =>
      rw [left] at callers
      rw [callers]
      exact moved
  | cons env rest =>
      rw [left] at callers inside
      rw [List.forall_mem_cons] at inside
      rw [callers]
      exact { moved with env := rfl, envInside := inside.1, callers := rfl, callersInside := inside.2 }

theorem define (moved : r.Moved m m') (name : String) {b : Binding} (knows : r.Knows b.value) :
    r.Moved (m.define name b) (m'.define name (r.binding b)) := by
  have defined := moved.store.define moved.envInside.current name knows
  rw [← moved.current] at defined
  exact { moved with store := defined }

theorem declare (moved : r.Moved m m') (declaration : Nat) (name : String) (label : Name)
    (params : List Param) :
    r.Moved (m.declare declaration name label params)
      (m'.declare declaration name label params) := by
  have counted : r.MovedStore m.store.freshFunction.2 m'.store.freshFunction.2 :=
    { moved.store with
      declared := (congrArg (· + 1) moved.store.declared).trans (Nat.add_right_comm _ _ _) }
  have reaches := moved.envInside.current
  have same : Closure.renumber r.renumbering
        ⟨m.store.declared, declaration, name, label, params, m.env.current⟩ =
      ⟨m'.store.declared, declaration, name, label, params, m'.env.current⟩ := by
    rw [moved.store.declared, moved.current]
    rfl
  have defined := counted.define reaches name
    (b := ⟨.function (.declared ⟨m.store.declared, declaration, name, label, params,
      m.env.current⟩), false⟩) (Value.functions_declared.mpr reaches)
  refine { moved with store := ?_, captured := ?_, capturedInside := ?_ }
  · rw [← moved.current, binding, Value.renumber, Callable.renumber, same] at defined
    exact defined
  · simp only [Machine.declare, List.map_cons, moved.captured, moved.current]
  · exact List.forall_mem_cons.mpr ⟨reaches, moved.capturedInside⟩

theorem release (moved : r.Moved m m') : r.Moved m.release m'.release := by
  have cleared := moved.store.clearAll moved.capturedInside
  rw [← moved.captured] at cleared
  exact { moved with store := cleared, captured := rfl, capturedInside := nofun }

end Moved

end Relocation

end Formulae
