import Formulae.Proofs.Run.Fragments
import Formulae.Proofs.Scope.Meaning

/-!
# Journals of runs

A run with a journal writes down which declaration made each binding and, whenever a
name is looked up, what was found under it.  The journal changes nothing: without it
the run is the plain one (`Logged.erases_program`).
-/

namespace Formulae

/-- What was found under a name where it was used. -/
structure Entry where
  use : Use
  found : Meaning

/-- What happened in a run: the declarations executed, with the frames they were
executed in, and the names looked up, both the latest first. -/
structure Journal where
  made : List (Nat × Declaration)
  entries : List Entry

namespace Journal

/-- Nothing has happened yet. -/
def empty : Journal :=
  ⟨[], []⟩

/-- The declarations executed in a frame, the latest first. -/
def madeIn (journal : Journal) (frame : Nat) : List Declaration :=
  (journal.made.filter fun entry => entry.1 == frame).map Prod.snd

/-- A declaration was executed in a frame. -/
def make (journal : Journal) (frame : Nat) (declaration : Declaration) : Journal :=
  { journal with made := (frame, declaration) :: journal.made }

theorem madeIn_make_self (journal : Journal) (frame : Nat) (declaration : Declaration) :
    (journal.make frame declaration).madeIn frame = declaration :: journal.madeIn frame := by
  simp [madeIn, make]

theorem madeIn_make_of_ne (journal : Journal) {frame other : Nat} (declaration : Declaration)
    (h : other ≠ frame) : (journal.make frame declaration).madeIn other = journal.madeIn other := by
  have different : (frame == other) = false := beq_false_of_ne (Ne.symm h)
  simp [madeIn, make, different]

end Journal

/-- A machine with the journal of its run. -/
structure World where
  machine : Machine
  journal : Journal

namespace World

/-- What is found under a name, looked up in the innermost scope of the run. -/
def meaning (w : World) (name : String) : Meaning :=
  match w.machine.store.resolve? w.machine.env.current name with
  | some (frame, _) =>
      match Declaration.find? (w.journal.madeIn frame) name with
      | some declaration => .declared declaration
      | none => .host
  | none => .builtin

/-- A name is looked up. -/
def note (w : World) (use : Use) : World :=
  { w with journal := { w.journal with entries := ⟨use, w.meaning use.name⟩ :: w.journal.entries } }

/-- A declaration is executed, which changes the machine. -/
def make (w : World) (declaration : Declaration) (change : Machine → Machine) : World :=
  ⟨change w.machine, w.journal.make w.machine.env.current declaration⟩

end World

/-- The variable that a place lies below, as the target of an assignment. -/
def Expr.root : TypedExpr → Use
  | .ident node name => ⟨node, name, .target⟩
  | .index _ receiver _ => receiver.root
  | e => ⟨e.node, "", .target⟩

/-- A step of a run with a journal. -/
abbrev Logged := EStateM Stop World

namespace Logged

variable {β γ : Type}

/-- A step that is not written down. -/
def lift (step : Run β) : Logged β := fun w =>
  match step w.machine with
  | .ok result m => .ok result { w with machine := m }
  | .error stop m => .error stop { w with machine := m }

/-- Write down what is found under a name. -/
def note (use : Use) : Logged Unit :=
  modify (·.note use)

/-- Execute a declaration and write it down. -/
def make (declaration : Declaration) (change : Machine → Machine) : Logged Unit :=
  modify (·.make declaration change)

/-- A step between entering something and leaving it, whatever its outcome. -/
def between (enter leave : Machine → Machine) (step : Logged β) : Logged β := fun w =>
  match step { w with machine := enter w.machine } with
  | .ok result w => .ok result { w with machine := leave w.machine }
  | .error stop w => .error stop { w with machine := leave w.machine }

/-- A step in a scope of its own. -/
def inScope (step : Logged β) : Logged β :=
  between Machine.pushScope Machine.popScope step

/-- A step inside a call of a function that was declared in this frame. -/
def inCall (frame : Nat) (step : Logged β) : Logged β :=
  between (·.enterCall frame) Machine.leaveCall step

/-- The value of a name. -/
def fetch (use : Use) (missing : EvalFault) : Logged Value := do
  note use
  lift (Run.fetch use.name missing use.node.span)

/-- Bind parameters to arguments, from a position on. -/
def bindParams (function : Nat) : Nat → List Param → List Value → Logged Unit
  | position, param :: params, arg :: args => do
      make ⟨function, some position, param.name, (Ty.ofExpr param.type).withFinal !param.mutable⟩
        (·.define param.name ⟨arg, param.mutable⟩)
      bindParams function (position + 1) params args
  | _, _, _ => pure ()

mutual

/-- The value of an expression. -/
def eval (s : Setting Ty) : Nat → TypedExpr → Logged Value
  | 0, _ => throw .exhausted
  | bound + 1, e =>
      match e with
      | .ident node name => fetch ⟨node, name, .value⟩ (.unboundVariable name)
      | .constant node value => lift (Run.located node.span value.value)
      | .unary node op operand => do
          let value ← eval s bound operand
          lift (Run.located node.span (value.unary op))
      | .binary node op left right =>
          match op with
          | .typeCast => evalCast s bound node left right
          | .and => do
              if (← eval s bound left).isTruthy then
                return .bool (← eval s bound right).isTruthy
              else return .bool false
          | .or => do
              if (← eval s bound left).isTruthy then return .bool true
              else return .bool (← eval s bound right).isTruthy
          | .assign | .addAssign | .subAssign | .mulAssign | .divAssign => do
              let (name, path) ← evalPath s bound left
              let value ← eval s bound right
              note left.root
              lift (Run.assign name path.reverse op.compoundBase value node.span)
          | op => do
              let x ← eval s bound left
              let y ← eval s bound right
              lift (Run.located node.span (x.binary op y))
      | .ternary _ cond thenBranch elseBranch => do
          if (← eval s bound cond).isTruthy then eval s bound thenBranch
          else eval s bound elseBranch
      | .call node callee args => evalCall s bound node callee args
      | .array _ items => do
          return .array (← evalAll s bound items)
      | .index node receiver subscript => do
          let x ← eval s bound receiver
          let y ← eval s bound subscript
          lift (Run.located node.span (x.element y))
      | .typeLiteral node _ => lift (Run.fail (.bug .typeAsValue) node.span)

/-- The values of several expressions. -/
def evalAll (s : Setting Ty) : Nat → List TypedExpr → Logged (List Value)
  | 0, _ => throw .exhausted
  | _ + 1, [] => pure []
  | bound + 1, e :: rest => do
      let first ← eval s bound e
      let others ← evalAll s bound rest
      return first :: others

/-- The value of a cast. -/
def evalCast (s : Setting Ty) : Nat → Node Ty → TypedExpr → TypedExpr → Logged Value
  | 0, _, _, _ => throw .exhausted
  | bound + 1, node, operand, target =>
      match target with
      | .typeLiteral _ type => do
          let value ← eval s bound operand
          lift (Run.located node.span (Value.cast (Ty.ofExpr type) value))
      | _ => lift (Run.fail (.bug .castWithoutTarget) node.span)

/-- The variable that an assignment writes to, and the indices below it. -/
def evalPath (s : Setting Ty) : Nat → TypedExpr → Logged (String × List Value.Step)
  | 0, _ => throw .exhausted
  | bound + 1, target =>
      match target with
      | .ident _ name => pure (name, [])
      | .index node receiver subscript => do
          let (name, path) ← evalPath s bound receiver
          let value ← eval s bound subscript
          return (name, ⟨value, node.span⟩ :: path)
      | other => lift (Run.fail (.bug .invalidTarget) other.span)

/-- The value of a call. -/
def evalCall (s : Setting Ty) : Nat → Node Ty → TypedExpr → List TypedExpr → Logged Value
  | 0, _, _, _ => throw .exhausted
  | bound + 1, node, callee, args =>
      match callee with
      | .ident calleeNode name => do
          let function ← fetch ⟨calleeNode, name, .callee⟩ (.unresolvedMethod name)
          let values ← evalAll s bound args
          apply s bound name function values node.span
      | other => do
          let function ← eval s bound other
          let values ← evalAll s bound args
          apply s bound "function" function values node.span

/-- The value of a function applied to arguments. -/
def apply (s : Setting Ty) : Nat → String → Value → List Value → Span → Logged Value
  | 0, _, _, _, _ => throw .exhausted
  | bound + 1, label, function, args, span =>
      match function with
      | .function (.builtin f) => lift (Run.located span (f.call args))
      | .function (.host f) =>
          match s.hosts f.handle args with
          | .ok value => pure value
          | .error reason => lift (Run.fail (.hostFailure label reason) span)
      | .function (.declared f) => enter s bound f args span
      | other => lift (Run.fail (.notCallable other.kind) span)

/-- The value of a declared function applied to arguments. -/
def enter (s : Setting Ty) : Nat → Closure → List Value → Span → Logged Value
  | 0, _, _, _ => throw .exhausted
  | bound + 1, f, args, span => do
      if args.length ≠ f.params.length then
        lift (Run.fail (.argumentCount f.name f.params.length args.length) span)
      else if s.callLimit ≤ (← get).machine.callDepth then
        lift (Run.fail (.callDepth s.callLimit) span)
      else
        match ← inCall f.frame (do
          bindParams f.declaration 0 f.params args
          execAll s bound (s.body f.declaration))
        with
        | .ret value => return value
        | .next => return .void
        | .brk | .cont => lift (Run.fail (.bug .loopControlEscaped) span)

/-- Execute a statement. -/
def exec (s : Setting Ty) : Nat → TypedStmt → Logged Flow
  | 0, _ => throw .exhausted
  | bound + 1, stmt => do
      lift (Run.checkCancelled s stmt.span)
      match stmt with
      | .expr _ e => do
          let _ ← eval s bound e
          return .next
      | .varDecl node binder init => do
          let value ← eval s bound init
          make (binder.declaration node init.label) (·.define binder.name ⟨value, binder.mutable⟩)
          return .next
      | .ret _ none => return .ret .void
      | .ret _ (some e) => do
          return .ret (← eval s bound e)
      | .ifElse _ cond thenBranch elseBranch => do
          if (← eval s bound cond).isTruthy then inScope (exec s bound thenBranch)
          else
            match elseBranch with
            | some other => inScope (exec s bound other)
            | none => return .next
      | .whileLoop _ cond body => loop s bound true (some cond) none body
      | .doWhile _ body cond => loop s bound false (some cond) none body
      | .forLoop _ init cond step body =>
          inScope do
            match init with
            | some first => let _ ← exec s bound first
            | none => pure ()
            loop s bound true cond step body
      | .forEach node binder iterable body => do
          match ← eval s bound iterable with
          | .array items =>
              loopItems s bound node binder iterable.label.element body items
          | other => lift (Run.fail (.notIterable other.kind) iterable.span)
      | .brk _ => return .brk
      | .cont _ => return .cont
      | .block _ stmts => inScope (execAll s bound stmts)
      | .function node written name params _ => do
          make ⟨node.id, none, name, Typing.functionType params written⟩
            (·.declare node.id name (s.names.number name) params)
          return .next

/-- Execute statements up to the first that does not end in the usual way. -/
def execAll (s : Setting Ty) : Nat → List TypedStmt → Logged Flow
  | 0, _ => throw .exhausted
  | _ + 1, [] => return .next
  | bound + 1, stmt :: rest => do
      match ← exec s bound stmt with
      | .next => execAll s bound rest
      | flow => return flow

/-- Execute a loop. -/
def loop (s : Setting Ty) :
    Nat → Bool → Option TypedExpr → Option TypedExpr → TypedStmt → Logged Flow
  | 0, _, _, _, _ => throw .exhausted
  | bound + 1, tested, cond, step, body => do
      lift (Run.checkCancelled s body.span)
      let goesOn ←
        match cond with
        | some e => if tested then Value.isTruthy <$> eval s bound e else pure true
        | none => pure true
      if goesOn then
        match ← inScope (exec s bound body) with
        | .brk => return .next
        | .ret value => return .ret value
        | .next | .cont =>
            match step with
            | some e => let _ ← eval s bound e
            | none => pure ()
            loop s bound true cond step body
      else return .next

/-- Execute the rounds of a loop over elements of a type. -/
def loopItems (s : Setting Ty) :
    Nat → StmtNode → Binder → Ty → TypedStmt → List Value → Logged Flow
  | 0, _, _, _, _, _ => throw .exhausted
  | _ + 1, _, _, _, _, [] => return .next
  | bound + 1, node, binder, element, body, item :: rest => do
      lift (Run.checkCancelled s node.span)
      let value ← lift (Run.loopItem binder node.span item)
      let flow ← inScope do
        make (binder.declaration node element) (·.define binder.name ⟨value, binder.mutable⟩)
        exec s bound body
      match flow with
      | .brk => return .next
      | .ret value => return .ret value
      | .next | .cont => loopItems s bound node binder element body rest

end

/-- A run of a formula with a journal. -/
def program (s : Setting Ty) (bound : Nat) (p : TypedProgram) : Logged Value :=
  between id Machine.release <|
    inScope do
      match ← execAll s bound p.body with
      | .ret value => return value
      | .brk | .cont => lift (Run.fail (.bug .loopControlOutside) p.span)
      | .next =>
          match p.tail with
          | some e => eval s bound e
          | none => return .void

section Fragments

variable (s : Setting Ty) (bound : Nat)

/-- An assignment to a place. -/
def assignment (node : Node Ty) (base : Option Operator) (left right : TypedExpr) :
    Logged Value := do
  let (name, path) ← evalPath s bound left
  let value ← eval s bound right
  note left.root
  lift (Run.assign name path.reverse base value node.span)

/-- The body of a declared function on its arguments. -/
def inBody (f : Closure) (args : List Value) : Logged Flow :=
  inCall f.frame do
    bindParams f.declaration 0 f.params args
    execAll s bound (s.body f.declaration)

/-- A declared function on as many arguments as it has parameters, called from so many calls. -/
def entered (f : Closure) (args : List Value) (span : Span) (depth : Nat) : Logged Value :=
  if s.callLimit ≤ depth then lift (Run.fail (.callDepth s.callLimit) span)
  else do
    match ← inBody s bound f args with
    | .ret value => return value
    | .next => return .void
    | .brk | .cont => lift (Run.fail (.bug .loopControlEscaped) span)

theorem enter_succ (f : Closure) (args : List Value) (span : Span) :
    enter s (bound + 1) f args span = (do
      if args.length ≠ f.params.length then
        lift (Run.fail (.argumentCount f.name f.params.length args.length) span)
      else entered s bound f args span (← get).machine.callDepth) := by
  rw [enter]
  rfl

/-- A round of a loop, if there is one more, and all that follow. -/
def round (cond step : Option TypedExpr) (body : TypedStmt) (goesOn : Bool) : Logged Flow := do
  if goesOn then
    match ← inScope (exec s bound body) with
    | .brk => return .next
    | .ret value => return .ret value
    | .next | .cont =>
        match step with
        | some e => let _ ← eval s bound e
        | none => pure ()
        loop s bound true cond step body
  else return .next

/-- The statements of a formula and its last expression. -/
def inside (p : TypedProgram) : Logged Value := do
  match ← execAll s bound p.body with
  | .ret value => return value
  | .brk | .cont => lift (Run.fail (.bug .loopControlOutside) p.span)
  | .next =>
      match p.tail with
      | some e => eval s bound e
      | none => return .void

theorem program_eq (p : TypedProgram) :
    program s bound p = between id Machine.release (inScope (inside s bound p)) :=
  rfl

end Fragments

end Logged

end Formulae
