import Formulae.Proofs.Run.Balanced
import Mathlib

/-!
# One run after another

A machine whose global frame was filled from outside only may run formulas again and again.
Each run leaves it as it found it, and as long as no function of an earlier run is among its
bindings, the runs before show in an outcome by nothing but the numbers of functions
(`Machine.Prepared.runs_again`).  A function of an earlier run brings its variables along, and
these may change from run to run (`Machine.Prepared.counts_runs`).
-/

namespace Formulae

namespace Machine

/-- A machine with an empty global frame, over the frames of other machines. -/
def atop (store : Store) : Machine :=
  let (global, store) := store.push none
  ⟨store, .ofFrame global, [], []⟩

/-- Machines that have only been given bindings from outside and run formulas. -/
inductive Prepared : Machine → Prop
  | atop (store : Store) : Prepared (atop store)
  | defineGlobal {m : Machine} (name : String) (value : Value) (prepared : Prepared m) :
      Prepared (m.defineGlobal name value)
  | run {m : Machine} {α : Type} (s : Setting α) (bound : Nat) (p : Program α)
      (prepared : Prepared m) : Prepared (m.run s bound p).2

/-- The second machine is the first one after some runs. -/
inductive Runs (m : Machine) : Machine → Prop
  | none : Runs m m
  | further {m' : Machine} {α : Type} (s : Setting α) (bound : Nat) (p : Program α)
      (runs : Runs m m') : Runs m (m'.run s bound p).2

/-- No scope is entered above the global frame, no call is under way, and nothing in the
global frame was defined by a formula. -/
structure Ready (m : Machine) : Prop where
  inner : m.env.inner = []
  callers : m.callers = []
  captured : m.captured = []
  inStore : m.env.global < m.store.frames.size
  outermost : m.store.parent? m.env.global = none
  final : ∀ name b, m.store.find? m.env.global name = some b → b.mutable = false

/-- No value in the global frame has a function that was declared in a formula. -/
def BindsNoFunction (m : Machine) : Prop :=
  ∀ frame, m.store.frames[m.env.global]? = some frame →
    ∀ entry ∈ frame.bindings, entry.2.value.Functions fun _ => False

variable {m m' : Machine}

theorem Ready.guards (ready : m.Ready) : m.Guards m.env.global where
  inStore := ready.inStore
  final := ready.final
  uncaptured := ready.captured ▸ List.not_mem_nil

theorem Ready.left (ready : m.Ready) (left : Left m.env.global m m') (released : m'.captured = []) :
    m'.Ready where
  inner := left.env ▸ ready.inner
  callers := left.callers ▸ ready.callers
  captured := released
  inStore := left.env ▸ Nat.lt_of_lt_of_le ready.inStore left.frames
  outermost := by
    rw [left.env, Store.parent?, left.same]
    exact ready.outermost
  final := left.env ▸ (left.guards ready.guards).final

theorem ready_atop (store : Store) : (atop store).Ready where
  inner := rfl
  callers := rfl
  captured := rfl
  inStore := by simp [atop, Store.push, Environment.ofFrame]
  outermost := by simp [atop, Store.push, Environment.ofFrame, Store.parent?, Frame.empty]
  final name b bound := by
    simp [atop, Store.push, Environment.ofFrame, Store.find?, Frame.empty, Frame.find?] at bound

theorem Ready.defineGlobal (ready : m.Ready) (name : String) (value : Value) :
    (m.defineGlobal name value).Ready where
  inner := ready.inner
  callers := ready.callers
  captured := ready.captured
  inStore := by
    rw [Machine.defineGlobal, Store.size_define]
    exact ready.inStore
  outermost := (Store.parent?_define _ _ _ _ _).trans ready.outermost
  final key b bound := by
    have bound := (Store.find?_define ready.inStore _ _ _ _).symm.trans bound
    split at bound
    · cases bound
      rfl
    · exact ready.final key b bound

/-- A run leaves the machine as it found it. -/
theorem left_run {g : Nat} (guards : m.Guards g) {α : Type} (s : Setting α) (bound : Nat)
    (p : Program α) : Left g m (m.run s bound p).2 ∧ (m.run s bound p).2.captured = [] := by
  have left := Run.restores_program g s bound p m guards
  unfold run
  cases ran : Run.program s bound p m with
  | ok v m' | error stop m' =>
      rw [ran] at left
      exact left

theorem Prepared.ready (prepared : m.Prepared) : m.Ready := by
  induction prepared with
  | atop store => exact ready_atop store
  | defineGlobal name value _ inductionHypothesis =>
      exact inductionHypothesis.defineGlobal name value
  | run s bound p _ inductionHypothesis =>
      rcases left_run inductionHypothesis.guards s bound p with ⟨left, released⟩
      exact inductionHypothesis.left left released

theorem Ready.left_runs (ready : m.Ready) (runs : m.Runs m') :
    Left m.env.global m m' ∧ m'.captured = [] := by
  induction runs with
  | none => exact ⟨ready.guards.left, ready.captured⟩
  | further s bound p _ inductionHypothesis =>
      rcases inductionHypothesis with ⟨left, -⟩
      rcases left_run (left.guards ready.guards) s bound p with ⟨further, released⟩
      exact ⟨left.trans further, released⟩

/-! ## Outcomes -/

/-- Where one machine that is ready has its frames and functions, and where another one has
them that made no fewer. -/
def relocation (m m' : Machine) (inStore : m.env.global < m.store.frames.size)
    (inStore' : m'.env.global < m'.store.frames.size)
    (frames : m.store.frames.size ≤ m'.store.frames.size) : Relocation where
  base := m.env.global
  base' := m'.env.global
  first := m.store.frames.size
  frames := m'.store.frames.size - m.store.frames.size
  functions := m'.store.declared - m.store.declared
  older := inStore
  older' := Nat.lt_of_lt_of_eq inStore' (Nat.add_sub_cancel' frames).symm

/-- A global frame without functions of formulas is the same under other numbers. -/
theorem contents_global (ready : m.Ready) (plain : m.BindsNoFunction) (r : Relocation)
    {frame : Frame} (found : m.store.frames[m.env.global]? = some frame) :
    r.contents frame = frame := by
  have outermost : frame.parent = none := by
    have parent := ready.outermost
    rwa [Store.parent?, found] at parent
  have sameEntries : frame.bindings.map (fun entry => (entry.1, r.binding entry.2)) =
      frame.bindings := by
    refine (List.map_congr_left ?_).trans (List.map_id' _)
    intro entry member
    have same := (Value.renumber_eq_self_iff (r := r.renumbering) entry.2.value).mpr
      (Value.Functions.mono (plain frame found entry member) fun _ => False.elim)
    rw [Relocation.binding, same]
  rw [Relocation.contents, sameEntries, outermost]
  exact congrArg (Frame.mk frame.bindings) outermost.symm

/-- Machines that are ready and have the same bindings are alike but for the numbers of frames
and functions. -/
theorem moved_of_ready (ready : m.Ready) (ready' : m'.Ready)
    (same : m'.store.frames[m'.env.global]? = m.store.frames[m.env.global]?)
    (frames : m.store.frames.size ≤ m'.store.frames.size)
    (declared : m.store.declared ≤ m'.store.declared) (plain : m.BindsNoFunction) :
    (relocation m m' ready.inStore ready'.inStore frames).Moved m m' := by
  generalize placed : relocation m m' ready.inStore ready'.inStore frames = r
  have isBase : r.base = m.env.global := placed ▸ rfl
  have isFirst : r.first = m.store.frames.size := placed ▸ rfl
  have base : r.frame m.env.global = m'.env.global := placed ▸ Relocation.frame_base
  have sizes : m'.store.frames.size = m.store.frames.size + r.frames :=
    placed ▸ (Nat.add_sub_cancel' frames).symm
  have counts : m'.store.declared = m.store.declared + r.functions :=
    placed ▸ (Nat.add_sub_cancel' declared).symm
  have env : m'.env = r.environment m.env := by
    simp only [Relocation.environment, ready.inner, List.map_nil, base]
    exact congrArg (Environment.mk · m'.env.global) ready'.inner
  have store : r.MovedStore m.store m'.store := by
    refine ⟨Nat.le_of_eq isFirst, sizes, counts, ?_, ?_⟩
    · rintro id (rfl | new)
      · rw [isBase, base, same]
        cases found : m.store.frames[m.env.global]? with
        | none => rfl
        | some frame => exact congrArg some (contents_global ready plain r found).symm
      · rw [Relocation.frame_of_first_le new]
        rw [isFirst] at new
        rw [Array.getElem?_eq_none new, Array.getElem?_eq_none (by omega)]
        rfl
    · rintro id (rfl | new) frame found
      · rw [isBase] at found
        constructor
        · have parent := ready.outermost
          rw [Store.parent?, found] at parent
          intro outer isOuter
          cases parent.symm.trans isOuter
        · exact fun entry member =>
            Value.Functions.mono (plain frame found entry member) fun _ => False.elim
      · rw [isFirst] at new
        rw [Array.getElem?_eq_none new] at found
        cases found
  refine ⟨store, env, ⟨?_, .inl isBase.symm⟩, ?_, ?_, ?_, ?_⟩
  · rw [ready.inner]
    exact List.forall_mem_nil _
  · rw [ready'.callers, ready.callers]
    rfl
  · rw [ready.callers]
    exact List.forall_mem_nil _
  · rw [ready'.captured, ready.captured]
    rfl
  · rw [ready.captured]
    exact List.forall_mem_nil _

/-- What was the outcome, with the functions in it under other numbers. -/
abbrev renumbered (r : Renumbering) : Except Stop Value → Except Stop Value :=
  Renumbering.outcome (Stop.renumber r) (Value.renumber r)

/-- Machines that are alike have outcomes that are alike and stay alike. -/
theorem run_moved {r : Relocation} (moved : r.Moved m m') {α : Type} {s : Setting α}
    (blind : Blind s.hosts) (bound : Nat) (p : Program α) :
    (m'.run s bound p).1 = renumbered r.renumbering (m.run s bound p).1 ∧
      r.Moved (m.run s bound p).2 (m'.run s bound p).2 := by
  have outcome := Relocation.moves_program blind r bound p m m' moved
  unfold run
  generalize Run.program s bound p m = x at outcome ⊢
  generalize Run.program s bound p m' = x' at outcome ⊢
  cases outcome with
  | ok same moved => exact ⟨congrArg Except.ok same.1, moved⟩
  | error stop moved => exact ⟨rfl, moved⟩

/-- However often a machine has run formulas before, no scope is entered, no call is under way,
the global frame is as it was and no function is waiting to be released; and if no function of a
formula is among the bindings, a run has the outcome that it had at first, but for the numbers
of functions. -/
theorem Prepared.runs_again (prepared : m.Prepared) (runs : m.Runs m') :
    (m'.env.depth = 1 ∧ m'.callDepth = 0 ∧ m'.env.global = m.env.global ∧
      m'.store.frames[m.env.global]? = m.store.frames[m.env.global]? ∧ m'.captured = []) ∧
    (m.BindsNoFunction → ∀ {α : Type} (s : Setting α) (bound : Nat) (p : Program α),
      Blind s.hosts → ∃ r, (m'.run s bound p).1 = renumbered r (m.run s bound p).1) := by
  have ready := prepared.ready
  rcases ready.left_runs runs with ⟨left, released⟩
  have again := ready.left left released
  refine ⟨⟨?_, ?_, congrArg Environment.global left.env, left.same, released⟩, ?_⟩
  · rw [Environment.depth, again.inner]
    rfl
  · rw [callDepth, again.callers]
    rfl
  · intro plain α s bound p blind
    have same : m'.store.frames[m'.env.global]? = m.store.frames[m.env.global]? :=
      left.env ▸ left.same
    have moved := moved_of_ready ready again same left.frames left.declared plain
    exact ⟨_, (run_moved moved blind bound p).1⟩

/-! ## A function that counts

The function in this formula counts its calls in a variable that is forgotten only with the
function itself:

    mut int x = 0;
    { int f() { x += 1; return x; } if (first) return f; }
    return g();
-/

/-- The formula that declares the counting function, and calls what it is given. -/
def counting : Program Unit :=
  let node : Node Unit := ⟨0, .point 0, ()⟩
  let place : StmtNode := ⟨0, .point 0⟩
  let x : Expr Unit := .ident node "x"
  let increment : Expr Unit := .binary node .addAssign x (.constant node (.int 1))
  { body := [
      .varDecl place ⟨true, some (.basic .int), "x"⟩ (.constant node (.int 0)),
      .block place [
        .function place (.basic .int) "f" [] [.expr place increment, .ret place (some x)],
        .ifElse place (.ident node "first") (.ret place (some (.ident node "f"))) none],
      .ret place (some (.call node (.ident node "g") []))]
    tail := none
    span := .point 0 }

/-- A setting for the formula without functions from outside. -/
def alone : Setting Unit :=
  counting.setting Interner.empty fun _ _ => .error "unknown"

theorem blind_alone : Blind alone.hosts :=
  fun _ _ _ => rfl

/-- The machine for the first run. -/
def asking : Machine :=
  fresh.defineGlobal "first" (.bool true)

/-- What the first run gives. -/
def counter : Value :=
  .function (.declared ⟨0, 0, "f", ⟨0⟩, [], 2⟩)

/-- The machine for the runs after it. -/
def given : Machine :=
  ((asking.run alone 20 counting).2.defineGlobal "first" (.bool false)).defineGlobal "g" counter

theorem prepared_asking : asking.Prepared :=
  .defineGlobal _ _ (.atop Store.empty)

theorem prepared_given : given.Prepared :=
  .defineGlobal _ _ (.defineGlobal _ _ (.run _ _ _ prepared_asking))

/-- Given no function, a first and a second run give the same but for the numbers. -/
theorem Prepared.runs_again_asking :
    ∃ r, ((asking.run alone 20 counting).2.run alone 20 counting).1 =
      renumbered r (asking.run alone 20 counting).1 := by
  have plain : asking.BindsNoFunction := by
    intro frame found
    cases found
    exact List.forall_mem_singleton.mpr (Value.functions_of_isData rfl)
  exact (prepared_asking.runs_again (.further alone 20 counting .none)).2 plain alone 20 counting
    blind_alone

/-- Given the function of an earlier run, a second run does not give what the first one gave. -/
theorem Prepared.counts_runs :
    ¬ ∀ m : Machine, m.Prepared → ∀ (s : Setting Unit) (bound : Nat) (p : Program Unit),
      Blind s.hosts → ∃ r, ((m.run s bound p).2.run s bound p).1 =
        renumbered r (m.run s bound p).1 := by
  intro same
  rcases same given prepared_given alone 20 counting blind_alone with ⟨r, again⟩
  have first : (given.run alone 20 counting).1 = .ok (.int 1) := by cbv
  have second : ((given.run alone 20 counting).2.run alone 20 counting).1 = .ok (.int 2) := by cbv
  rw [first, second] at again
  cases again

end Machine

end Formulae
