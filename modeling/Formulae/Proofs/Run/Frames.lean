import Formulae.Run.Machine

/-!
# Frames of a store

Looking a name up goes from frame to frame outwards (`Store.resolve?_eq`).  What a
frame binds and which frame is around it are all that matters for this, and each
change of a store says what becomes of both.
-/

namespace Formulae

namespace Frame

theorem find?_assign (frame : Frame) (name other : String) (value : Value) :
    (frame.assign name value).find? other =
      (frame.find? other).map fun binding =>
        if other = name then { binding with value } else binding := by
  unfold find? assign
  induction frame.bindings with
  | nil => rfl
  | cons first rest inductionHypothesis =>
      obtain ⟨key, binding⟩ := first
      rw [List.map_cons, List.lookup_cons]
      by_cases found : other = key
      · subst found
        by_cases assigned : other = name <;> simp [assigned]
      · have different : (other == key) = false := beq_false_of_ne found
        rw [List.lookup_cons, different, ← inductionHypothesis]
        by_cases assigned : key = name
        · simp only [if_pos assigned, different]
        · simp only [if_neg assigned, different]

end Frame

namespace Store

/-- What a frame binds to a name. -/
def find? (store : Store) (id : Nat) (name : String) : Option Binding :=
  store.frames[id]?.bind (·.find? name)

/-- The frame around a frame. -/
def parent? (store : Store) (id : Nat) : Option Nat :=
  store.frames[id]?.bind (·.parent)

theorem parent?_lt {store : Store} {id outer : Nat} (around : store.parent? id = some outer) :
    outer < id := by
  rcases Option.bind_eq_some_iff.mp around with ⟨frame, found, isParent⟩
  exact store.older id frame outer found isParent

theorem resolve?_eq (store : Store) (id : Nat) (name : String) :
    store.resolve? id name =
      match store.find? id name with
      | some binding => some (id, binding)
      | none => (store.parent? id).bind (store.resolve? · name) := by
  rw [resolve?]
  split
  · next missing => simp [find?, parent?, missing]
  · next frame found =>
      have finds : store.find? id name = frame.find? name := by simp [find?, found]
      have around : store.parent? id = frame.parent := by simp [parent?, found]
      rw [finds, around]
      cases frame.find? name with
      | some binding => rfl
      | none =>
          dsimp only
          split
          · next outermost => simp only [outermost, Option.bind_none]
          · next outer isParent => simp only [isParent, Option.bind_some]

theorem resolve?_of_bound {store : Store} {id : Nat} {name : String} {binding : Binding}
    (bound : store.find? id name = some binding) :
    store.resolve? id name = some (id, binding) := by
  rw [resolve?_eq, bound]

theorem resolve?_of_unbound {store : Store} {id outer : Nat} {name : String}
    (unbound : store.find? id name = none) (around : store.parent? id = some outer) :
    store.resolve? id name = store.resolve? outer name := by
  rw [resolve?_eq, unbound, around]
  rfl

/-- A name is found in a frame that binds it, which is no newer. -/
theorem bound_of_resolve? {store : Store} {id frame : Nat} {name : String} {binding : Binding}
    (resolved : store.resolve? id name = some (frame, binding)) :
    store.find? frame name = some binding ∧ frame ≤ id := by
  induction id using Nat.strongRecOn with
  | ind id inductionHypothesis =>
      rw [resolve?_eq] at resolved
      cases bound : store.find? id name with
      | some found =>
          rw [bound] at resolved
          cases resolved
          exact ⟨bound, Nat.le_refl _⟩
      | none =>
          rw [bound] at resolved
          rcases Option.bind_eq_some_iff.mp resolved with ⟨outer, around, further⟩
          have older := parent?_lt around
          rcases inductionHypothesis outer older further with ⟨found, notNewer⟩
          exact ⟨found, Nat.le_trans notNewer (Nat.le_of_lt older)⟩

/-- Looking a name up depends on the frame and older ones only. -/
theorem resolve?_congr {store store' : Store} {id : Nat} (name : String)
    (same : ∀ i ≤ id, store'.find? i name = store.find? i name ∧
      store'.parent? i = store.parent? i) :
    store'.resolve? id name = store.resolve? id name := by
  induction id using Nat.strongRecOn with
  | ind id inductionHypothesis =>
      rcases same id (Nat.le_refl _) with ⟨sameBinding, sameParent⟩
      rw [resolve?_eq, resolve?_eq store, sameBinding, sameParent]
      split
      · rfl
      · cases around : store.parent? id with
        | none => rfl
        | some outer =>
            have older := parent?_lt around
            exact inductionHypothesis outer older fun i notNewer =>
              same i (Nat.le_trans notNewer (Nat.le_of_lt older))

/-! ## Changes -/

theorem size_push (store : Store) (parent : Option Nat) :
    (store.push parent).2.frames.size = store.frames.size + 1 :=
  Array.size_push _

theorem find?_push (store : Store) (parent : Option Nat) (id : Nat) (name : String) :
    (store.push parent).2.find? id name = store.find? id name := by
  unfold find? push
  rw [Array.getElem?_push]
  split
  · next isNew =>
      subst isNew
      simp
  · rfl

theorem parent?_push_self {store : Store} {outer : Nat} (older : outer < store.frames.size) :
    (store.push (some outer)).2.parent? store.frames.size = some outer := by
  simp [parent?, push, Frame.empty, Option.filter, older]

theorem parent?_push_of_ne (store : Store) (parent : Option Nat) {id : Nat}
    (old : id ≠ store.frames.size) :
    (store.push parent).2.parent? id = store.parent? id := by
  unfold parent? push
  rw [Array.getElem?_push, if_neg old]

theorem size_modify (store : Store) (id : Nat) (change : Frame → Frame)
    (keeps : ∀ frame, (change frame).parent = frame.parent) :
    (store.modify id change keeps).frames.size = store.frames.size :=
  Array.size_modify

theorem parent?_modify (store : Store) (id other : Nat) (change : Frame → Frame)
    (keeps : ∀ frame, (change frame).parent = frame.parent) :
    (store.modify id change keeps).parent? other = store.parent? other := by
  unfold parent? modify
  rw [Array.getElem?_modify]
  split
  · cases store.frames[other]? with
    | none => rfl
    | some frame => exact keeps frame
  · rfl

theorem find?_modify_of_ne (store : Store) {id other : Nat} (change : Frame → Frame)
    (keeps : ∀ frame, (change frame).parent = frame.parent) (name : String)
    (different : other ≠ id) :
    (store.modify id change keeps).find? other name = store.find? other name := by
  unfold find? modify
  rw [Array.getElem?_modify, if_neg (Ne.symm different)]

theorem find?_modify_self (store : Store) (id : Nat) (change : Frame → Frame)
    (keeps : ∀ frame, (change frame).parent = frame.parent) (name : String) :
    (store.modify id change keeps).find? id name =
      store.frames[id]?.bind fun frame => (change frame).find? name := by
  unfold find? modify
  rw [Array.getElem?_modify, if_pos rfl]
  cases store.frames[id]? <;> rfl

theorem find?_define {store : Store} {id : Nat} (inStore : id < store.frames.size)
    (other : Nat) (name key : String) (binding : Binding) :
    (store.define id name binding).find? other key =
      if other = id ∧ key = name then some binding else store.find? other key := by
  unfold define
  by_cases sameFrame : other = id
  · subst sameFrame
    rw [find?_modify_self, find?, Array.getElem?_eq_getElem inStore]
    simp only [Option.bind_some]
    by_cases sameName : key = name
    · subst sameName
      simp
    · rw [Frame.find?_define_of_ne _ _ sameName, if_neg (fun both => sameName both.2)]
  · rw [find?_modify_of_ne _ _ _ _ sameFrame, if_neg (fun both => sameFrame both.1)]

theorem find?_write (store : Store) (id other : Nat) (name key : String) (value : Value) :
    (store.write id name value).find? other key =
      (store.find? other key).map fun binding =>
        if other = id ∧ key = name then { binding with value } else binding := by
  unfold write
  by_cases sameFrame : other = id
  · subst sameFrame
    rw [find?_modify_self, find?]
    cases store.frames[other]? with
    | none => rfl
    | some frame =>
        simp only [Option.bind_some, Frame.find?_assign, true_and]
  · rw [find?_modify_of_ne _ _ _ _ sameFrame]
    cases store.find? other key with
    | none => rfl
    | some binding => simp [sameFrame]

theorem resolve?_write (store : Store) (id frame : Nat) (name key : String) (value : Value) :
    (store.write frame name value).resolve? id key =
      (store.resolve? id key).map fun (found, binding) =>
        (found, if found = frame ∧ key = name then { binding with value } else binding) := by
  induction id using Nat.strongRecOn with
  | ind id inductionHypothesis =>
      have sameParent : (store.write frame name value).parent? id = store.parent? id :=
        parent?_modify _ _ _ _ _
      rw [resolve?_eq, resolve?_eq store, find?_write, sameParent]
      cases store.find? id key with
      | some binding => rfl
      | none =>
          cases around : store.parent? id with
          | none => rfl
          | some outer => exact inductionHypothesis outer (parent?_lt around)

end Store

end Formulae
