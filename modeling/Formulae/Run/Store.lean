import Formulae.Value.Basic

/-!
# The store of variables

Variables live in frames, one for each scope that was entered.  A frame knows the
frame around it, which is always older, so that looking outwards comes to an end.
Frames stay in the store when their scope is left, since functions declared in
them may still be called.
-/

namespace Formulae

/-- The value of a variable, and whether it may be replaced. -/
structure Binding where
  value : Value
  mutable : Bool
deriving Inhabited

/-- The variables of one scope, and the frame around it. -/
structure Frame where
  bindings : List (String × Binding)
  parent : Option Nat
deriving Inhabited

namespace Frame

/-- A frame without variables. -/
def empty (parent : Option Nat) : Frame :=
  ⟨[], parent⟩

/-- The variable with a name. -/
def find? (frame : Frame) (name : String) : Option Binding :=
  frame.bindings.lookup name

/-- Bind a name, in place of what it was bound to in this frame. -/
def define (frame : Frame) (name : String) (binding : Binding) : Frame :=
  { frame with bindings := (name, binding) :: frame.bindings.filter (·.1 != name) }

/-- Replace the value of the variable with a name. -/
def assign (frame : Frame) (name : String) (value : Value) : Frame :=
  { frame with
    bindings := frame.bindings.map fun (other, binding) =>
      if other = name then (other, { binding with value }) else (other, binding) }

/-- Forget all variables. -/
def clear (frame : Frame) : Frame :=
  { frame with bindings := [] }

@[simp]
theorem parent_define (frame : Frame) (name : String) (binding : Binding) :
    (frame.define name binding).parent = frame.parent :=
  rfl

@[simp]
theorem parent_assign (frame : Frame) (name : String) (value : Value) :
    (frame.assign name value).parent = frame.parent :=
  rfl

@[simp]
theorem parent_clear (frame : Frame) : frame.clear.parent = frame.parent :=
  rfl

@[simp]
theorem find?_empty (parent : Option Nat) (name : String) : (empty parent).find? name = none :=
  rfl

@[simp]
theorem find?_define_self (frame : Frame) (name : String) (binding : Binding) :
    (frame.define name binding).find? name = some binding := by
  simp [find?, define]

theorem lookup_filter_of_ne {name other : String} (h : other ≠ name)
    (bindings : List (String × Binding)) :
    (bindings.filter (·.1 != name)).lookup other = bindings.lookup other := by
  induction bindings with
  | nil => rfl
  | cons first rest inductionHypothesis =>
      obtain ⟨key, binding⟩ := first
      by_cases same : key = name
      · have different : (other == key) = false := beq_false_of_ne (same ▸ h)
        simp [same, inductionHypothesis, List.lookup_cons, same ▸ different]
      · have kept : (key != name) = true := bne_iff_ne.mpr same
        simp only [List.filter_cons, kept, if_true, List.lookup_cons, inductionHypothesis]

theorem find?_define_of_ne (frame : Frame) {name other : String} (binding : Binding)
    (h : other ≠ name) : (frame.define name binding).find? other = frame.find? other := by
  have different : (other == name) = false := beq_false_of_ne h
  simp [find?, define, List.lookup_cons, different, lookup_filter_of_ne h]

end Frame

/-- All frames, and the number of functions declared so far. -/
structure Store where
  frames : Array Frame
  declared : Nat
  older : ∀ (id : Nat) (frame : Frame) (outer : Nat),
    frames[id]? = some frame → frame.parent = some outer → outer < id

namespace Store

/-- No frames at all. -/
def empty : Store where
  frames := #[]
  declared := 0
  older := by simp

instance : Inhabited Store :=
  ⟨empty⟩

/-- A new frame inside another one.  The outer frame must exist; else there is no
frame around the new one. -/
def push (store : Store) (parent : Option Nat) : Nat × Store :=
  (store.frames.size,
    { frames := store.frames.push
        (Frame.empty (parent.filter fun outer => outer < store.frames.size))
      declared := store.declared
      older := by
        intro id frame outer found isParent
        rw [Array.getElem?_push] at found
        split at found
        · next equal =>
            cases found
            simp only [Frame.empty, Option.filter_eq_some_iff, decide_eq_true_eq] at isParent
            exact equal ▸ isParent.2
        · exact store.older id frame outer found isParent })

/-- Change the variables of a frame. -/
def modify (store : Store) (id : Nat) (change : Frame → Frame)
    (keeps : ∀ frame, (change frame).parent = frame.parent) : Store where
  frames := store.frames.modify id change
  declared := store.declared
  older := by
    intro other frame outer found isParent
    rw [Array.getElem?_modify] at found
    split at found
    · next equal =>
        rw [Option.map_eq_some_iff] at found
        obtain ⟨before, foundBefore, rfl⟩ := found
        rw [keeps] at isParent
        exact store.older other before outer foundBefore isParent
    · exact store.older other frame outer found isParent

/-- Bind a name in a frame. -/
def define (store : Store) (id : Nat) (name : String) (binding : Binding) : Store :=
  store.modify id (·.define name binding) fun frame => frame.parent_define name binding

/-- Forget the variables of a frame. -/
def clear (store : Store) (id : Nat) : Store :=
  store.modify id Frame.clear Frame.parent_clear

/-- The number for a newly declared function. -/
def freshFunction (store : Store) : Nat × Store :=
  (store.declared, { store with declared := store.declared + 1 })

/-- The innermost frame, from `id` outwards, that has a variable with this name,
and the variable. -/
def resolve? (store : Store) (id : Nat) (name : String) : Option (Nat × Binding) :=
  match found : store.frames[id]? with
  | none => none
  | some frame =>
      match frame.find? name with
      | some binding => some (id, binding)
      | none =>
          match isParent : frame.parent with
          | none => none
          | some outer =>
              have : outer < id := store.older id frame outer found isParent
              store.resolve? outer name
termination_by id

/-- The value of a name, seen from a frame. -/
def lookup? (store : Store) (id : Nat) (name : String) : Option Value :=
  (store.resolve? id name).map fun (_, binding) => binding.value

end Store

/-- Why a name cannot be assigned to. -/
inductive AssignError
  | immutable
  | undefined
deriving DecidableEq, Repr

namespace Store

/-- The frame and the value of the variable that an assignment to a name
replaces. -/
def place (store : Store) (id : Nat) (name : String) : Except AssignError (Nat × Value) :=
  match store.resolve? id name with
  | none => .error .undefined
  | some (frame, binding) =>
      if binding.mutable then .ok (frame, binding.value) else .error .immutable

/-- Replace the value of the variable of a frame. -/
def write (store : Store) (id : Nat) (name : String) (value : Value) : Store :=
  store.modify id (·.assign name value) fun frame => frame.parent_assign name value

/-- Assign to a name, seen from a frame. -/
def assign (store : Store) (id : Nat) (name : String) (value : Value) :
    Except AssignError Store :=
  (store.place id name).map fun (frame, _) => store.write frame name value

end Store

/-!
## Scopes of a run

An environment is a stack of frames: the global one at the bottom, and on top of
it one for each scope entered.  A call runs in an environment of its own, whose
bottom is the frame in which the function was declared.
-/

/-- The frames of the scopes entered, the innermost first, above the global
frame. -/
structure Environment where
  inner : List Nat
  global : Nat
deriving DecidableEq, Repr, Inhabited

namespace Environment

/-- No scope entered yet above a frame. -/
def ofFrame (global : Nat) : Environment :=
  ⟨[], global⟩

/-- The number of frames; the global one counts. -/
def depth (env : Environment) : Nat :=
  env.inner.length + 1

/-- The frame of the innermost scope. -/
def current (env : Environment) : Nat :=
  env.inner.headD env.global

/-- Enter a scope. -/
def push (env : Environment) (store : Store) : Environment × Store :=
  let (frame, store) := store.push (some env.current)
  ({ env with inner := frame :: env.inner }, store)

/-- Leave a scope; the global frame stays. -/
def pop (env : Environment) : Environment :=
  { env with inner := env.inner.tail }

@[simp]
theorem pop_push (env : Environment) (store : Store) : (env.push store).1.pop = env :=
  rfl

theorem depth_push (env : Environment) (store : Store) :
    (env.push store).1.depth = env.depth + 1 :=
  rfl

end Environment

end Formulae
