import Formulae.Proofs.Run.Frames
import Formulae.Proofs.Typing.KeptNames
import Formulae.Proofs.Value.Parts

/-!
# What a run can see of a store

A run looks names up in some of the frames only, and in some of these one name is out of its
sight: each lookup of the name ends before it comes there (`View`).  Stores that differ in
nothing else are alike to the run (`Store.Alike`), and lookups give the same in both
(`Store.Alike.resolve?_eq`).
-/

namespace Formulae

/-- What a run looks at: lookups come to `live` frames, and they do not see what the `hidden`
ones among these bind to `name`. -/
structure View where
  name : String
  live : Nat → Prop
  hidden : Nat → Prop

namespace View

/-- The binding of the name in the frame can be seen. -/
structure Shows (view : View) (id : Nat) (name : String) : Prop where
  live : view.live id
  plain : view.hidden id → name ≠ view.name

end View

namespace Store

/-- All frames from this one outwards are live. -/
inductive Inside (view : View) (store : Store) : Nat → Prop
  | mk {id : Nat} (live : view.live id)
      (outer : ∀ around, store.parent? id = some around → Inside view store around) :
      Inside view store id

/-- Looking the name up from this frame ends before it comes to a hidden one. -/
inductive Shields (view : View) (store : Store) : Nat → Prop
  | bound {id : Nat} (visible : ¬ view.hidden id) (bound : (store.find? id view.name).isSome) :
      Shields view store id
  | around {id : Nat} (visible : ¬ view.hidden id)
      (outer : ∀ around, store.parent? id = some around → Shields view store around) :
      Shields view store id

/-- The stores have the same frames and show the same bindings. -/
structure Alike (view : View) (store store' : Store) : Prop where
  size : store'.frames.size = store.frames.size
  declared : store'.declared = store.declared
  parent : ∀ id, store'.parent? id = store.parent? id
  find : ∀ id name, view.Shows id name → store'.find? id name = store.find? id name

/-- The second store has the frames of the first, which bind all names they did. -/
structure Extends (store store' : Store) : Prop where
  size : store.frames.size ≤ store'.frames.size
  parent : ∀ id, id < store.frames.size → store'.parent? id = store.parent? id
  bound : ∀ id name, (store.find? id name).isSome → (store'.find? id name).isSome

variable {view : View} {store store' store'' : Store} {id : Nat} {name : String}

/-! ## Lookups -/

theorem Inside.live (inside : store.Inside view id) : view.live id := by
  cases inside with
  | mk live outer => exact live

theorem Shields.visible (shields : store.Shields view id) : ¬ view.hidden id := by
  cases shields with
  | bound visible _ | around visible _ => exact visible

theorem inside_of_live (live : ∀ i ≤ id, view.live i) : store.Inside view id := by
  induction id using Nat.strongRecOn with
  | ind id inductionHypothesis =>
      refine .mk (live id (Nat.le_refl _)) fun around isParent => ?_
      have older := parent?_lt isParent
      exact inductionHypothesis around older fun i notNewer =>
        live i (Nat.le_trans notNewer (Nat.le_of_lt older))

theorem shields_of_visible (visible : ∀ i ≤ id, ¬ view.hidden i) : store.Shields view id := by
  induction id using Nat.strongRecOn with
  | ind id inductionHypothesis =>
      refine .around (visible id (Nat.le_refl _)) fun around isParent => ?_
      have older := parent?_lt isParent
      exact inductionHypothesis around older fun i notNewer =>
        visible i (Nat.le_trans notNewer (Nat.le_of_lt older))

/-- A name is found where it can be seen. -/
theorem shows_of_resolve? (inside : store.Inside view id)
    (shields : name = view.name → store.Shields view id) {frame : Nat} {b : Binding}
    (resolved : store.resolve? id name = some (frame, b)) : view.Shows frame name := by
  induction inside with
  | mk live outer inductionHypothesis =>
      rw [resolve?_eq] at resolved
      split at resolved
      · cases resolved
        exact ⟨live, fun isHidden isName => (shields isName).visible isHidden⟩
      · next unbound =>
          rcases Option.bind_eq_some_iff.mp resolved with ⟨around, isParent, resolved⟩
          apply inductionHypothesis around isParent _ resolved
          intro isName
          cases shields isName with
          | bound _ bound =>
              rw [← isName, unbound] at bound
              cases bound
          | around _ shields => exact shields around isParent

theorem Alike.resolve?_eq (alike : Alike view store store') (inside : store.Inside view id)
    (shields : name = view.name → store.Shields view id) :
    store'.resolve? id name = store.resolve? id name := by
  induction inside with
  | mk live outer inductionHypothesis =>
      rename_i id
      have shown : view.Shows id name :=
        ⟨live, fun isHidden isName => (shields isName).visible isHidden⟩
      rw [Store.resolve?_eq, Store.resolve?_eq store, alike.find id name shown, alike.parent]
      split
      · rfl
      · next unbound =>
          cases isParent : store.parent? id with
          | none => rfl
          | some around =>
              apply inductionHypothesis around isParent
              intro isName
              cases shields isName with
              | bound _ bound =>
                  rw [← isName, unbound] at bound
                  cases bound
              | around _ shields => exact shields around isParent

/-! ## Growth -/

theorem Extends.refl (store : Store) : store.Extends store :=
  ⟨Nat.le_refl _, fun _ _ => rfl, fun _ _ => id⟩

theorem Extends.trans (first : store.Extends store') (second : store'.Extends store'') :
    store.Extends store'' where
  size := Nat.le_trans first.size second.size
  parent id inStore :=
    (second.parent id (Nat.lt_of_lt_of_le inStore first.size)).trans (first.parent id inStore)
  bound id name isBound := second.bound id name (first.bound id name isBound)

theorem Inside.extends (inside : store.Inside view id) (grown : store.Extends store')
    (inStore : id < store.frames.size) : store'.Inside view id := by
  induction inside with
  | mk live outer inductionHypothesis =>
      refine .mk live fun around isParent => ?_
      rw [grown.parent _ inStore] at isParent
      exact inductionHypothesis around isParent (Nat.lt_trans (parent?_lt isParent) inStore)

theorem Shields.extends (shields : store.Shields view id) (grown : store.Extends store')
    (inStore : id < store.frames.size) : store'.Shields view id := by
  induction shields with
  | bound visible isBound => exact .bound visible (grown.bound _ _ isBound)
  | around visible outer inductionHypothesis =>
      refine .around visible fun around isParent => ?_
      rw [grown.parent _ inStore] at isParent
      exact inductionHypothesis around isParent (Nat.lt_trans (parent?_lt isParent) inStore)

theorem extends_push (store : Store) (parent : Option Nat) :
    store.Extends (store.push parent).2 where
  size := size_push store parent ▸ Nat.le_succ _
  parent _ inStore := parent?_push_of_ne store parent (Nat.ne_of_lt inStore)
  bound id name isBound := by rwa [find?_push]

theorem extends_freshFunction (store : Store) : store.Extends store.freshFunction.2 :=
  ⟨Nat.le_refl _, fun _ _ => rfl, fun _ _ => id⟩

theorem extends_define (store : Store) (id : Nat) (name : String) (b : Binding) :
    store.Extends (store.define id name b) where
  size := Nat.le_of_eq (size_modify _ _ _ _).symm
  parent _ _ := parent?_modify _ _ _ _ _
  bound other key isBound := by
    by_cases inStore : id < store.frames.size
    · rw [find?_define inStore]
      split
      · rfl
      · exact isBound
    · rw [define, find?_modify_of_ne]
      · exact isBound
      · rintro rfl
        rw [find?, Array.getElem?_eq_none (Nat.le_of_not_lt inStore)] at isBound
        cases isBound

theorem extends_write (store : Store) (id : Nat) (name : String) (value : Value) :
    store.Extends (store.write id name value) where
  size := Nat.le_of_eq (size_modify _ _ _ _).symm
  parent _ _ := parent?_modify _ _ _ _ _
  bound other key isBound := by
    rw [find?_write, Option.isSome_map]
    exact isBound

/-! ## Changes made to stores that are alike -/

theorem Alike.refl (store : Store) : Alike view store store :=
  ⟨rfl, rfl, fun _ => rfl, fun _ _ _ => rfl⟩

theorem Alike.symm (alike : Alike view store store') : Alike view store' store :=
  ⟨alike.size.symm, alike.declared.symm, fun id => (alike.parent id).symm,
    fun id name shown => (alike.find id name shown).symm⟩

theorem Alike.trans (first : Alike view store store') (second : Alike view store' store'') :
    Alike view store store'' :=
  ⟨second.size.trans first.size, second.declared.trans first.declared,
    fun id => (second.parent id).trans (first.parent id),
    fun id name shown => (second.find id name shown).trans (first.find id name shown)⟩

theorem Alike.push (alike : Alike view store store') (parent : Option Nat) :
    (store'.push parent).1 = (store.push parent).1 ∧
      Alike view (store.push parent).2 (store'.push parent).2 := by
  refine ⟨alike.size, ?_, alike.declared, ?_, ?_⟩
  · rw [size_push, size_push, alike.size]
  · intro id
    by_cases isNew : id = store.frames.size
    · simp only [Store.parent?, Store.push, Array.getElem?_push, if_pos isNew, alike.size]
    · have isOld : id ≠ store'.frames.size := alike.size ▸ isNew
      rw [parent?_push_of_ne _ _ isNew, parent?_push_of_ne _ _ isOld, alike.parent]
  · intro id name shown
    rw [find?_push, find?_push, alike.find id name shown]

theorem Alike.define (alike : Alike view store store') (inStore : id < store.frames.size)
    (name : String) (b : Binding) :
    Alike view (store.define id name b) (store'.define id name b) where
  size := by
    rw [Store.define, Store.define, size_modify, size_modify, alike.size]
  declared := alike.declared
  parent other := by
    rw [Store.define, Store.define, parent?_modify, parent?_modify, alike.parent]
  find other key shown := by
    rw [find?_define inStore, find?_define (alike.size ▸ inStore), alike.find other key shown]

/-- A binding that is not shown makes no difference. -/
theorem alike_define (inStore : id < store.frames.size) (unseen : ¬ view.Shows id name)
    (b : Binding) : Alike view store (store.define id name b) where
  size := size_modify _ _ _ _
  declared := rfl
  parent other := parent?_modify _ _ _ _ _
  find other key shown := by
    rw [find?_define inStore, if_neg]
    rintro ⟨rfl, rfl⟩
    exact unseen shown

theorem Alike.write (alike : Alike view store store') (id : Nat) (name : String) (value : Value) :
    Alike view (store.write id name value) (store'.write id name value) where
  size := by
    rw [Store.write, Store.write, size_modify, size_modify, alike.size]
  declared := alike.declared
  parent other := by
    rw [Store.write, Store.write, parent?_modify, parent?_modify, alike.parent]
  find other key shown := by
    rw [find?_write, find?_write, alike.find other key shown]

theorem find?_clear (store : Store) (id other : Nat) (name : String) :
    (store.clear id).find? other name = if other = id then none else store.find? other name := by
  unfold clear
  by_cases same : other = id
  · subst same
    rw [find?_modify_self, if_pos rfl]
    cases store.frames[other]? <;> rfl
  · rw [find?_modify_of_ne _ _ _ _ same, if_neg same]

theorem Alike.clear (alike : Alike view store store') (id : Nat) :
    Alike view (store.clear id) (store'.clear id) where
  size := by
    rw [Store.clear, Store.clear, size_modify, size_modify, alike.size]
  declared := alike.declared
  parent other := by
    rw [Store.clear, Store.clear, parent?_modify, parent?_modify, alike.parent]
  find other key shown := by
    rw [find?_clear, find?_clear, alike.find other key shown]

end Store

/-! ## Functions -/

section

variable {α : Type} (view : View) (s : Setting α)

/-- Wherever the function is called, its body looks names up within what is shown: it uses the
name of the view only if a scope around the function shields it. -/
structure Closure.Discreet (store : Store) (f : Closure) : Prop where
  inStore : f.frame < store.frames.size
  inside : store.Inside view f.frame
  spared : ∃ bound, (view.name ∈ bound → store.Shields view f.frame) ∧
    view.name ∉ Stmt.namesAll (f.params.map Param.name ++ bound) (s.body f.declaration)

/-- All functions in the value do so. -/
abbrev Value.Discreet (store : Store) (v : Value) : Prop :=
  v.Functions (Closure.Discreet view s store)

/-- All functions in the values that are shown do so. -/
def Store.Discreet (store : Store) : Prop :=
  ∀ id name b, view.Shows id name → store.find? id name = some b →
    b.value.Discreet view s store

end

section

variable {α : Type} {view : View} {s : Setting α} {store store' : Store}

theorem Closure.Discreet.extends {f : Closure} (discreet : f.Discreet view s store)
    (grown : store.Extends store') : f.Discreet view s store' where
  inStore := Nat.lt_of_lt_of_le discreet.inStore grown.size
  inside := discreet.inside.extends grown discreet.inStore
  spared := by
    rcases discreet.spared with ⟨bound, shields, spared⟩
    exact ⟨bound, fun isBound => (shields isBound).extends grown discreet.inStore, spared⟩

theorem Value.Discreet.extends {v : Value} (discreet : v.Discreet view s store)
    (grown : store.Extends store') : v.Discreet view s store' :=
  Value.Functions.mono discreet fun _ discreet => discreet.extends grown

theorem Store.Discreet.push (discreet : store.Discreet view s) (parent : Option Nat) :
    (store.push parent).2.Discreet view s := by
  intro id name b shown bound
  rw [Store.find?_push] at bound
  exact (discreet id name b shown bound).extends (Store.extends_push _ _)

theorem Store.Discreet.define (discreet : store.Discreet view s) {id : Nat} (name : String)
    {b : Binding} (fine : view.Shows id name → b.value.Discreet view s store)
    (inStore : id < store.frames.size) : (store.define id name b).Discreet view s := by
  intro other key b' shown bound
  have grown := Store.extends_define store id name b
  rw [Store.find?_define inStore] at bound
  split at bound
  · next same =>
      cases bound
      exact (fine (same.1 ▸ same.2 ▸ shown)).extends grown
  · exact (discreet other key b' shown bound).extends grown

theorem Store.Discreet.write (discreet : store.Discreet view s) (id : Nat) (name : String)
    {value : Value} (fine : value.Discreet view s store) :
    (store.write id name value).Discreet view s := by
  intro other key b' shown bound
  have grown := Store.extends_write store id name value
  rw [Store.find?_write] at bound
  rcases Option.map_eq_some_iff.mp bound with ⟨b, before, rfl⟩
  split
  · exact fine.extends grown
  · exact (discreet other key b shown before).extends grown

end

end Formulae
