import Formulae.Run.Machine
import Formulae.Value.Operator

/-!
# Reading and writing elements

An index counts from zero.  An assignment through indices writes to one element
below a variable and leaves all others as they are.
-/

namespace Formulae

namespace Value

/-- The position that an index means in an array of a length. -/
def position (subscript : Value) (length : Nat) : Except EvalFault Nat :=
  match subscript with
  | .int n =>
      if 0 ≤ n.toInt ∧ n.toInt < length then .ok n.toInt.toNat
      else .error (.outOfRange n length)
  | other => .error (.invalidIndex other)

/-- The value has no elements. -/
def notIndexable (receiver subscript : Value) : EvalFault :=
  .binaryMismatch .index receiver.kind subscript.kind

/-- The element of an array at an index. -/
def element (receiver subscript : Value) : Except EvalFault Value :=
  match receiver with
  | .array items => do
      let n ← subscript.position items.length
      return items[n]?.getD .null
  | _ => .error (receiver.notIndexable subscript)

/-- An index with the stretch of source that applies it. -/
structure Step where
  subscript : Value
  span : Span

/-- A failure, located. -/
def locate (span : Span) (result : Except EvalFault α) : Except EvalError α :=
  result.mapError fun fault => ⟨fault, span⟩

/-- Write below a value: at the end of a path of indices, `store` gives the new
element for the old one.  The result is the changed value and the new element. -/
def update (store : Value → Except EvalError Value) :
    List Step → Value → Except EvalError (Value × Value)
  | [], old => do
      let new ← store old
      return (new, new)
  | step :: rest, .array items => do
      let n ← locate step.span (step.subscript.position items.length)
      let (element, new) ← update store rest (items[n]?.getD .null)
      return (.array (items.set n element), new)
  | step :: _, receiver =>
      .error ⟨receiver.notIndexable step.subscript, step.span⟩

/-- The new element for an old one: the value itself, or the old element combined
with it. -/
def combined (base : Option Operator) (value : Value) (span : Span) (old : Value) :
    Except EvalError Value :=
  match base with
  | none => .ok value
  | some op => locate span (binary op old value)

end Value

namespace Run

/-- Assign to a name, or to an element below it.  The result is the new element;
nothing changes if the assignment fails. -/
def assign (name : String) (path : List Value.Step) (base : Option Operator) (value : Value)
    (span : Span) : Run Value := fun m =>
  match m.store.place m.env.current name with
  | .error .immutable => .error (.failed ⟨.bug (.finalAssigned name), span⟩) m
  | .error .undefined => .error (.failed ⟨.unboundVariable name, span⟩) m
  | .ok (frame, old) =>
      match old.update (Value.combined base value span) path with
      | .error e => .error (.failed e) m
      | .ok (changed, new) => .ok new { m with store := m.store.write frame name changed }

end Run

end Formulae
