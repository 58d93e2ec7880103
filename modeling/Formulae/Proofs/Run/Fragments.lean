import Formulae.Run.Eval

/-!
# Parts of the evaluator

What the evaluator does for an assignment, in a function that is entered, in a round of a loop
and inside of a formula.  Lemmas about runs name these parts and not what stands in them, and
they ask of the end of a statement whether it is a value (`Flow.value?`).
-/

namespace Formulae

namespace Flow

/-- The value that is returned. -/
def value? : Flow → Option Value
  | .ret v => some v
  | .next | .brk | .cont => none

theorem ne_ret {flow : Flow} (nothing : flow.value? = none) (v : Value) : flow ≠ .ret v := by
  rintro rfl
  cases nothing

end Flow

namespace Run

variable {α : Type} (s : Setting α) (bound : Nat)

/-- An assignment to a place, or of what the operator makes of the place and the value. -/
def assignment (node : Node α) (base : Option Operator) (left right : Expr α) : Run Value := do
  let (name, path) ← evalPath s bound left
  let value ← eval s bound right
  assign name path.reverse base value node.span

/-- The body of a declared function on its arguments. -/
def inBody (f : Closure) (args : List Value) : Run Flow :=
  inCall f.frame do
    bindParams f.params args
    execAll s bound (s.body f.declaration)

/-- A declared function on as many arguments as it has parameters, called from so many calls. -/
def entered (f : Closure) (args : List Value) (span : Span) (depth : Nat) : Run Value :=
  if s.callLimit ≤ depth then fail (.callDepth s.callLimit) span
  else do
    match ← inBody s bound f args with
    | .ret value => return value
    | .next => return .void
    | .brk | .cont => fail (.bug .loopControlEscaped) span

theorem enter_succ (f : Closure) (args : List Value) (span : Span) :
    enter s (bound + 1) f args span = (do
      if args.length ≠ f.params.length then
        fail (.argumentCount f.name f.params.length args.length) span
      else entered s bound f args span (← get).callDepth) := by
  rw [enter]
  rfl

/-- A round of a loop, if there is one more, and all that follow. -/
def round (cond step : Option (Expr α)) (body : Stmt α) (goesOn : Bool) : Run Flow := do
  if goesOn then
    match ← inScope (exec s bound body) with
    | .brk => return .next
    | .ret value => return .ret value
    | .next | .cont =>
        match step with
        | some e => let _ ← eval s bound e
        | none => pure ()
        loop s bound true cond step body
  else return .next

/-- The statements of a formula and its last expression. -/
def inside (p : Program α) : Run Value := do
  match ← execAll s bound p.body with
  | .ret value => return value
  | .brk | .cont => fail (.bug .loopControlOutside) p.span
  | .next =>
      match p.tail with
      | some e => eval s bound e
      | none => return .void

theorem program_eq (p : Program α) :
    program s bound p = between id Machine.release (inScope (inside s bound p)) :=
  rfl

end Run

end Formulae
