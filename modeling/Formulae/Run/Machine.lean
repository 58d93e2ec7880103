import Formulae.Run.Store
import Formulae.Tree.Basic
import Formulae.Value.Fault

/-!
# State of a run

What a run may change is a `Machine`: the store, the scopes entered, and the
environments of the calls under way.  What stays fixed is a `Setting`.  A step of
a run ends with a value or stops, and leaves a machine behind in either case, so
that scopes and calls are left in the same way whatever happened inside
(`inScope`, `inCall`).
-/

namespace Formulae

/-- The number of nested calls that is allowed if nothing else is said. -/
def defaultCallLimit : Nat := 200

/-- What stays fixed during a run: the numbers of names, the bodies of declared
functions, the functions supplied from outside, the largest number of nested
calls, and whether the run is to be given up. -/
structure Setting (α : Type) where
  names : Interner
  functions : List (Nat × List (Stmt α))
  hosts : Nat → List Value → Except String Value
  callLimit : Nat := defaultCallLimit
  cancelled : Bool := false

/-- The body of the function with a declaration of this number. -/
def Setting.body {α : Type} (s : Setting α) (declaration : Nat) : List (Stmt α) :=
  (s.functions.lookup declaration).getD []

/-- The state of a run.  `callers` are the environments that the calls under way
return to, the latest first; `captured` are the frames in which functions were
declared during the run. -/
structure Machine where
  store : Store
  env : Environment
  callers : List Environment
  captured : List Nat

/-- Why a step of a run has no result: it failed, or the bound on the number of
nested steps was met. -/
inductive Stop
  | failed (error : EvalError)
  | exhausted

/-- A step of a run. -/
abbrev Run := EStateM Stop Machine

namespace Machine

/-- A machine with an empty global frame. -/
def fresh : Machine :=
  let (global, store) := Store.empty.push none
  ⟨store, .ofFrame global, [], []⟩

instance : Inhabited Machine :=
  ⟨fresh⟩

/-- The number of calls under way. -/
def callDepth (m : Machine) : Nat :=
  m.callers.length

/-- Enter a scope. -/
def pushScope (m : Machine) : Machine :=
  let (env, store) := m.env.push m.store
  { m with env, store }

/-- Leave a scope. -/
def popScope (m : Machine) : Machine :=
  { m with env := m.env.pop }

/-- Enter a call of a function that was declared in this frame. -/
def enterCall (m : Machine) (frame : Nat) : Machine :=
  { m with env := .ofFrame frame, callers := m.env :: m.callers }.pushScope

/-- Leave a call. -/
def leaveCall (m : Machine) : Machine :=
  match m.callers with
  | [] => m
  | env :: callers => { m with env, callers }

/-- Bind a name in the innermost scope. -/
def define (m : Machine) (name : String) (binding : Binding) : Machine :=
  { m with store := m.store.define m.env.current name binding }

/-- Bind a name that must not be assigned to in the global frame. -/
def defineGlobal (m : Machine) (name : String) (value : Value) : Machine :=
  { m with store := m.store.define m.env.global name ⟨value, false⟩ }

/-- The value of a name. -/
def lookup? (m : Machine) (name : String) : Option Value :=
  m.store.lookup? m.env.current name

/-- Declare a function in the innermost scope. -/
def declare (m : Machine) (declaration : Nat) (name : String) (label : Name)
    (params : List Param) : Machine :=
  let frame := m.env.current
  let (identity, store) := m.store.freshFunction
  let closure : Closure := ⟨identity, declaration, name, label, params, frame⟩
  { m with
    store := store.define frame name ⟨.function (.declared closure), false⟩
    captured := frame :: m.captured }

/-- Forget the variables of the frames in which functions were declared. -/
def release (m : Machine) : Machine :=
  { m with store := m.captured.foldl Store.clear m.store, captured := [] }

/-! ## What is left as it was entered -/

@[simp]
theorem env_popScope_pushScope (m : Machine) : m.pushScope.popScope.env = m.env :=
  rfl

@[simp]
theorem callDepth_pushScope (m : Machine) : m.pushScope.callDepth = m.callDepth :=
  rfl

@[simp]
theorem callDepth_enterCall (m : Machine) (frame : Nat) :
    (m.enterCall frame).callDepth = m.callDepth + 1 :=
  rfl

@[simp]
theorem env_leaveCall_enterCall (m : Machine) (frame : Nat) :
    (m.enterCall frame).leaveCall.env = m.env :=
  rfl

@[simp]
theorem callers_leaveCall_enterCall (m : Machine) (frame : Nat) :
    (m.enterCall frame).leaveCall.callers = m.callers :=
  rfl

end Machine

namespace Run

/-- A step between entering something and leaving it, whatever its outcome. -/
@[inline]
def between (enter leave : Machine → Machine) (step : Run β) : Run β := fun m =>
  match step (enter m) with
  | .ok result m => .ok result (leave m)
  | .error stop m => .error stop (leave m)

/-- A step in a scope of its own. -/
@[inline]
def inScope (step : Run β) : Run β :=
  between Machine.pushScope Machine.popScope step

/-- A step inside a call of a function that was declared in this frame. -/
@[inline]
def inCall (frame : Nat) (step : Run β) : Run β :=
  between (·.enterCall frame) Machine.leaveCall step

/-- Stop with a failure at a stretch of source. -/
@[inline]
def fail (fault : EvalFault) (span : Span) : Run β :=
  throw (.failed ⟨fault, span⟩)

/-- The result of a computation on values, or its failure at a stretch of
source. -/
@[inline]
def located (span : Span) (result : Except EvalFault β) : Run β :=
  match result with
  | .ok value => pure value
  | .error fault => fail fault span

/-- Stop if the run is to be given up. -/
@[inline]
def checkCancelled {α : Type} (s : Setting α) (span : Span) : Run Unit :=
  if s.cancelled then fail .cancelled span else pure ()

/-- The value of a name: a variable, or else a built-in function. -/
def fetch (name : String) (missing : EvalFault) (span : Span) : Run Value := fun m =>
  match m.lookup? name with
  | some value => .ok value m
  | none =>
      match Builtin.ofName? name with
      | some function => .ok (.function (.builtin function)) m
      | none => .error (.failed ⟨missing, span⟩) m

end Run

end Formulae
