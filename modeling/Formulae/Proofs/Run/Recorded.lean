import Formulae.Proofs.Run.Fragments

/-!
# Runs with a record of their calls

A run with a record writes down each call of a declared function that is attempted, and when
calls begin and end.  The record says how many calls are under way at any moment
(`CallEvent.active`), apart from the count that the machine keeps for itself.
-/

namespace Formulae

/-- What happens to calls of declared functions. -/
inductive CallEvent
  | attempted (function : Closure) (args : List Value) (span : Span)
  | entered
  | left

namespace CallEvent

/-- The number of calls under way after these events, the latest first. -/
def active : List CallEvent → Nat
  | [] => 0
  | .attempted _ _ _ :: past => active past
  | .entered :: past => active past + 1
  | .left :: past => active past - 1

/-- The places of attempted calls that have the right number of arguments and find so many
calls under way, the latest first. -/
def refused (limit : Nat) : List CallEvent → List Span
  | [] => []
  | .attempted f args span :: past =>
      if args.length = f.params.length ∧ active past = limit then span :: refused limit past
      else refused limit past
  | .entered :: past | .left :: past => refused limit past

end CallEvent

/-- A machine with the record of the calls of its run, the latest event first. -/
structure Record where
  machine : Machine
  calls : List CallEvent

/-- A step of a run with a record. -/
abbrev Recorded := EStateM Stop Record

namespace Recorded

variable {α β : Type}

/-- A step that calls nothing. -/
def lift (step : Run β) : Recorded β := fun w =>
  match step w.machine with
  | .ok result m => .ok result { w with machine := m }
  | .error stop m => .error stop { w with machine := m }

/-- Write down an event. -/
def note (event : CallEvent) : Recorded Unit :=
  modify fun w => { w with calls := event :: w.calls }

/-- A step between entering something and leaving it, whatever its outcome. -/
def between (enter leave : Record → Record) (step : Recorded β) : Recorded β := fun w =>
  match step (enter w) with
  | .ok result w => .ok result (leave w)
  | .error stop w => .error stop (leave w)

/-- A step in a scope of its own. -/
def inScope (step : Recorded β) : Recorded β :=
  between (fun w => { w with machine := w.machine.pushScope })
    (fun w => { w with machine := w.machine.popScope }) step

/-- A step inside a call of a function that was declared in this frame. -/
def inCall (frame : Nat) (step : Recorded β) : Recorded β :=
  between (fun w => ⟨w.machine.enterCall frame, .entered :: w.calls⟩)
    (fun w => ⟨w.machine.leaveCall, .left :: w.calls⟩) step

mutual

/-- The value of an expression. -/
def eval (s : Setting α) : Nat → Expr α → Recorded Value
  | 0, _ => throw .exhausted
  | bound + 1, e =>
      match e with
      | .ident node name => lift (Run.fetch name (.unboundVariable name) node.span)
      | .constant node value => lift (Run.located node.span value.value)
      | .unary node op operand => do
          let value ← eval s bound operand
          lift (Run.located node.span (value.unary op))
      | .binary node op left right =>
          match op with
          | .typeCast => evalCast s bound node left right
          | .and => do
              if (← eval s bound left).isTruthy then
                return .bool (← eval s bound right).isTruthy
              else return .bool false
          | .or => do
              if (← eval s bound left).isTruthy then return .bool true
              else return .bool (← eval s bound right).isTruthy
          | .assign | .addAssign | .subAssign | .mulAssign | .divAssign => do
              let (name, path) ← evalPath s bound left
              let value ← eval s bound right
              lift (Run.assign name path.reverse op.compoundBase value node.span)
          | op => do
              let x ← eval s bound left
              let y ← eval s bound right
              lift (Run.located node.span (x.binary op y))
      | .ternary _ cond thenBranch elseBranch => do
          if (← eval s bound cond).isTruthy then eval s bound thenBranch
          else eval s bound elseBranch
      | .call node callee args => evalCall s bound node callee args
      | .array _ items => do
          return .array (← evalAll s bound items)
      | .index node receiver subscript => do
          let x ← eval s bound receiver
          let y ← eval s bound subscript
          lift (Run.located node.span (x.element y))
      | .typeLiteral node _ => lift (Run.fail (.bug .typeAsValue) node.span)

/-- The values of several expressions. -/
def evalAll (s : Setting α) : Nat → List (Expr α) → Recorded (List Value)
  | 0, _ => throw .exhausted
  | _ + 1, [] => pure []
  | bound + 1, e :: rest => do
      let first ← eval s bound e
      let others ← evalAll s bound rest
      return first :: others

/-- The value of a cast. -/
def evalCast (s : Setting α) : Nat → Node α → Expr α → Expr α → Recorded Value
  | 0, _, _, _ => throw .exhausted
  | bound + 1, node, operand, target =>
      match target with
      | .typeLiteral _ type => do
          let value ← eval s bound operand
          lift (Run.located node.span (Value.cast (Ty.ofExpr type) value))
      | _ => lift (Run.fail (.bug .castWithoutTarget) node.span)

/-- The variable that an assignment writes to, and the indices below it. -/
def evalPath (s : Setting α) : Nat → Expr α → Recorded (String × List Value.Step)
  | 0, _ => throw .exhausted
  | bound + 1, target =>
      match target with
      | .ident _ name => pure (name, [])
      | .index node receiver subscript => do
          let (name, path) ← evalPath s bound receiver
          let value ← eval s bound subscript
          return (name, ⟨value, node.span⟩ :: path)
      | other => lift (Run.fail (.bug .invalidTarget) other.span)

/-- The value of a call. -/
def evalCall (s : Setting α) : Nat → Node α → Expr α → List (Expr α) → Recorded Value
  | 0, _, _, _ => throw .exhausted
  | bound + 1, node, callee, args =>
      match callee with
      | .ident calleeNode name => do
          let function ← lift (Run.fetch name (.unresolvedMethod name) calleeNode.span)
          let values ← evalAll s bound args
          apply s bound name function values node.span
      | other => do
          let function ← eval s bound other
          let values ← evalAll s bound args
          apply s bound "function" function values node.span

/-- The value of a function applied to arguments. -/
def apply (s : Setting α) : Nat → String → Value → List Value → Span → Recorded Value
  | 0, _, _, _, _ => throw .exhausted
  | bound + 1, label, function, args, span =>
      match function with
      | .function (.builtin f) => lift (Run.located span (f.call args))
      | .function (.host f) =>
          match s.hosts f.handle args with
          | .ok value => pure value
          | .error reason => lift (Run.fail (.hostFailure label reason) span)
      | .function (.declared f) => enter s bound f args span
      | other => lift (Run.fail (.notCallable other.kind) span)

/-- The value of a declared function applied to arguments. -/
def enter (s : Setting α) : Nat → Closure → List Value → Span → Recorded Value
  | 0, _, _, _ => throw .exhausted
  | bound + 1, f, args, span => do
      note (.attempted f args span)
      if args.length ≠ f.params.length then
        lift (Run.fail (.argumentCount f.name f.params.length args.length) span)
      else if s.callLimit ≤ (← get).machine.callDepth then
        lift (Run.fail (.callDepth s.callLimit) span)
      else
        match ← inCall f.frame (do
          lift (Run.bindParams f.params args)
          execAll s bound (s.body f.declaration))
        with
        | .ret value => return value
        | .next => return .void
        | .brk | .cont => lift (Run.fail (.bug .loopControlEscaped) span)

/-- Execute a statement. -/
def exec (s : Setting α) : Nat → Stmt α → Recorded Flow
  | 0, _ => throw .exhausted
  | bound + 1, stmt => do
      lift (Run.checkCancelled s stmt.span)
      match stmt with
      | .expr _ e => do
          let _ ← eval s bound e
          return .next
      | .varDecl _ binder init => do
          let value ← eval s bound init
          lift (modify (·.define binder.name ⟨value, binder.mutable⟩))
          return .next
      | .ret _ none => return .ret .void
      | .ret _ (some e) => do
          return .ret (← eval s bound e)
      | .ifElse _ cond thenBranch elseBranch => do
          if (← eval s bound cond).isTruthy then inScope (exec s bound thenBranch)
          else
            match elseBranch with
            | some other => inScope (exec s bound other)
            | none => return .next
      | .whileLoop _ cond body => loop s bound true (some cond) none body
      | .doWhile _ body cond => loop s bound false (some cond) none body
      | .forLoop _ init cond step body =>
          inScope do
            match init with
            | some first => let _ ← exec s bound first
            | none => pure ()
            loop s bound true cond step body
      | .forEach node binder iterable body => do
          match ← eval s bound iterable with
          | .array items => loopItems s bound node binder body items
          | other => lift (Run.fail (.notIterable other.kind) iterable.span)
      | .brk _ => return .brk
      | .cont _ => return .cont
      | .block _ stmts => inScope (execAll s bound stmts)
      | .function node _ name params _ => do
          lift (modify (·.declare node.id name (s.names.number name) params))
          return .next

/-- Execute statements up to the first that does not end in the usual way. -/
def execAll (s : Setting α) : Nat → List (Stmt α) → Recorded Flow
  | 0, _ => throw .exhausted
  | _ + 1, [] => return .next
  | bound + 1, stmt :: rest => do
      match ← exec s bound stmt with
      | .next => execAll s bound rest
      | flow => return flow

/-- Execute a loop. -/
def loop (s : Setting α) :
    Nat → Bool → Option (Expr α) → Option (Expr α) → Stmt α → Recorded Flow
  | 0, _, _, _, _ => throw .exhausted
  | bound + 1, tested, cond, step, body => do
      lift (Run.checkCancelled s body.span)
      let goesOn ←
        match cond with
        | some e => if tested then Value.isTruthy <$> eval s bound e else pure true
        | none => pure true
      if goesOn then
        match ← inScope (exec s bound body) with
        | .brk => return .next
        | .ret value => return .ret value
        | .next | .cont =>
            match step with
            | some e => let _ ← eval s bound e
            | none => pure ()
            loop s bound true cond step body
      else return .next

/-- Execute the rounds of a loop over elements. -/
def loopItems (s : Setting α) :
    Nat → StmtNode → Binder → Stmt α → List Value → Recorded Flow
  | 0, _, _, _, _ => throw .exhausted
  | _ + 1, _, _, _, [] => return .next
  | bound + 1, node, binder, body, item :: rest => do
      lift (Run.checkCancelled s node.span)
      let value ← lift (Run.loopItem binder node.span item)
      let flow ← inScope do
        lift (modify (·.define binder.name ⟨value, binder.mutable⟩))
        exec s bound body
      match flow with
      | .brk => return .next
      | .ret value => return .ret value
      | .next | .cont => loopItems s bound node binder body rest

end

/-- An assignment to a place. -/
def assignment (s : Setting α) (bound : Nat) (node : Node α) (base : Option Operator)
    (left right : Expr α) : Recorded Value := do
  let (name, path) ← evalPath s bound left
  let value ← eval s bound right
  lift (Run.assign name path.reverse base value node.span)

/-- A run of a formula with a record. -/
def program (s : Setting α) (bound : Nat) (p : Program α) : Recorded Value :=
  between id (fun w => { w with machine := w.machine.release }) <|
    inScope do
      match ← execAll s bound p.body with
      | .ret value => return value
      | .brk | .cont => lift (Run.fail (.bug .loopControlOutside) p.span)
      | .next =>
          match p.tail with
          | some e => eval s bound e
          | none => return .void

/-- Run a formula and keep the record of its calls. -/
def run (m : Machine) (s : Setting α) (bound : Nat) (p : Program α) :
    Except Stop Value × Record :=
  match program s bound p ⟨m, []⟩ with
  | .ok value w => (.ok value, w)
  | .error stop w => (.error stop, w)

end Recorded

end Formulae
