import Formulae.Proofs.Run.Assignments
import Formulae.Proofs.Value.Paths

/-!
# Assignments to elements

An assignment through indices writes to one element below a variable.  Where the indices lead to an
element it is replaced, by the value or by what the operator makes of both, and nothing else
changes; where they do not, or where the operator fails, the machine is left as it was
(`Run.assign_path`).
-/

namespace Formulae

/-- In the second machine one element below a variable of the first one is replaced: the variable
is found with the element replaced, and all other variables are as they were. -/
structure Machine.ElementReplaced (m : Machine) (frame : Nat) (name : String) (v : Value)
    (path : List Value.Step) (new : Value) (m' : Machine) : Prop where
  written : ∃ changed, m' = m.stored frame name changed ∧ m'.lookup? name = some changed ∧
    Value.Replaced path new v changed
  others : ∀ (id : Nat) (key : String), id ≠ frame ∨ key ≠ name →
    m'.store.find? id key = m.store.find? id key

theorem Store.find?_write_of_ne (store : Store) {frame id : Nat} {name key : String}
    (different : id ≠ frame ∨ key ≠ name) (value : Value) :
    (store.write frame name value).find? id key = store.find? id key := by
  have apart : ¬ (id = frame ∧ key = name) := fun both => by
    rcases different with first | second
    · exact first both.1
    · exact second both.2
  simp only [find?_write, if_neg apart, Option.map_id']

namespace Run

variable {m : Machine} {name : String} {frame : Nat} {v old new value : Value}
  {path : List Value.Step} {base : Option Operator} {span : Span} {e : EvalError}

theorem assign_eq (found : m.store.place m.env.current name = .ok (frame, v))
    (path : List Value.Step) (base : Option Operator) (value : Value) (span : Span) :
    assign name path base value span m =
      match v.update (Value.combined base value span) path with
      | .ok (changed, new) => .ok new (m.stored frame name changed)
      | .error e => .error (.failed e) m := by
  rw [assign, found]
  dsimp only
  cases v.update (Value.combined base value span) path <;> rfl

theorem assign_of_leads (found : m.store.place m.env.current name = .ok (frame, v))
    (leads : Value.Leads path v old) (stored : Value.combined base value span old = .ok new) :
    ∃ m', assign name path base value span m = .ok new m' ∧
      m.ElementReplaced frame name v path new m' := by
  rcases Value.replaced_of_leads leads stored with ⟨changed, updated, replaced⟩
  refine ⟨m.stored frame name changed, ?_, ⟨changed, rfl, ?_, replaced⟩, ?_⟩
  · rw [assign_eq found, updated]
  · exact Store.lookup?_write_of_place found changed
  · exact fun id key different => Store.find?_write_of_ne m.store different changed

/-- An assignment through indices that lead to an element replaces it: by the value, or by what an
operator makes of the element and the value.  If the operator fails, or if the indices do not lead
to an element, it fails in the same way, with the first index that cannot be applied, and changes
nothing. -/
theorem assign_path (found : m.store.place m.env.current name = .ok (frame, v))
    (path : List Value.Step) (value : Value) (span : Span) :
    (∀ old, Value.Leads path v old →
      (∃ m', assign name path none value span m = .ok value m' ∧
        m.ElementReplaced frame name v path value m') ∧
      ∀ op,
        (∀ new, old.binary op value = .ok new →
          ∃ m', assign name path (some op) value span m = .ok new m' ∧
            m.ElementReplaced frame name v path new m') ∧
        ∀ fault, old.binary op value = .error fault →
          assign name path (some op) value span m = .error (.failed ⟨fault, span⟩) m) ∧
      (∀ e, Value.Stumbles v path e →
        ∀ base, assign name path base value span m = .error (.failed e) m) ∧
      ((∃ old, Value.Leads path v old) ∨ ∃ e, Value.Stumbles v path e) := by
  refine ⟨fun old leads => ⟨assign_of_leads found leads rfl, fun op => ⟨?_, ?_⟩⟩, ?_,
    Value.leads_or_stumbles path v⟩
  · intro new given
    apply assign_of_leads found leads
    rw [Value.combined, given]
    rfl
  · intro fault failed
    have refused : Value.combined (some op) value span old = .error ⟨fault, span⟩ := by
      rw [Value.combined, failed]
      rfl
    rw [assign_eq found, Value.update_of_error leads refused]
  · intro e stumbles base
    rw [assign_eq found, Value.update_of_stumbles stumbles]

/-- Two rows of two numbers. -/
def twoRows : Value :=
  .array [.array [.int 1, .int 2], .array [.int 3, .int 4]]

/-- A machine with a variable that holds two rows. -/
def rowsMachine : Machine :=
  bareMachine.define "rows" ⟨twoRows, true⟩

/-- The indices of an element of the second row. -/
def inSecondRow (n : Int64) : List Value.Step :=
  [⟨.int 1, ⟨0, 7⟩⟩, ⟨.int n, ⟨0, 10⟩⟩]

/-- An element of the second row is replaced, and an element that the row does not have is not. -/
theorem assign_inSecondRow :
    rowsMachine.store.place rowsMachine.env.current "rows" = .ok (0, twoRows) ∧
      Value.Leads (inSecondRow 0) twoRows (.int 3) ∧
      (∃ m', assign "rows" (inSecondRow 0) none (.int 5) ⟨0, 14⟩ rowsMachine = .ok (.int 5) m' ∧
        rowsMachine.ElementReplaced 0 "rows" twoRows (inSecondRow 0) (.int 5) m') ∧
      assign "rows" (inSecondRow 7) none (.int 5) ⟨0, 14⟩ rowsMachine =
        .error (.failed ⟨.outOfRange 7 2, ⟨0, 10⟩⟩) rowsMachine := by
  have found : rowsMachine.store.place rowsMachine.env.current "rows" = .ok (0, twoRows) := by
    cbv
  have leads : Value.Leads (inSecondRow 0) twoRows (.int 3) :=
    .element (by decide) rfl (.element (by decide) rfl (.here (.int 3)))
  have toRow : Value.Leads [⟨.int 1, ⟨0, 7⟩⟩] twoRows (.array [.int 3, .int 4]) :=
    .element (by decide) rfl (.here _)
  have stumbles : Value.Stumbles twoRows (inSecondRow 7) ⟨.outOfRange 7 2, ⟨0, 10⟩⟩ :=
    .next toRow (.outside (by decide))
  exact ⟨found, leads, ((assign_path found (inSecondRow 0) (.int 5) ⟨0, 14⟩).1 _ leads).1,
    (assign_path found (inSecondRow 7) (.int 5) ⟨0, 14⟩).2.1 _ stumbles none⟩

end Run

end Formulae
