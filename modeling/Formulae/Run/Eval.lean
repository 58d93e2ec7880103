import Formulae.Run.Assign
import Formulae.Value.Builtin
import Formulae.Value.Operator

/-!
# Evaluation

Expressions are evaluated from left to right, and statements are executed in
order.  Every function here takes a bound on the number of nested steps; with a
bound of zero it stops as exhausted, and a run that is not exhausted is the same
for all larger bounds.
-/

namespace Formulae

/-- How a statement ended. -/
inductive Flow
  | next
  | ret (value : Value)
  | brk
  | cont

namespace Constant

/-- The value of a literal. -/
def value : Constant → Except EvalFault Value
  | .int n => .ok (.int n)
  | .float x => .ok (.float x)
  | .negativeNan => .ok (.float (0.0 / 0.0))
  | .bool b => .ok (.bool b)
  | .null => .ok .null
  | .string text => .ok (.string text)
  | .date text =>
      match Date.parse? text.toList with
      | some d => .ok (.date d)
      | none => .error (.bug .unparsableDate)
  | .duration text =>
      match Duration.parse? text.toList with
      | some d => .ok (.duration d)
      | none => .error (.bug .unparsableDuration)

end Constant

namespace Run

variable {α : Type}

/-- Bind parameters to arguments. -/
def bindParams (params : List Param) (args : List Value) : Run Unit :=
  modify fun m =>
    (params.zip args).foldl (fun m (param, arg) => m.define param.name ⟨arg, param.mutable⟩) m

/-- The element of a `for` over an array as its variable holds it. -/
def loopItem (binder : Binder) (span : Span) (item : Value) : Run Value :=
  match binder.type with
  | some type => located span (Value.cast (Ty.ofExpr type) item)
  | none => pure item

mutual

/-- The value of an expression. -/
def eval (s : Setting α) : Nat → Expr α → Run Value
  | 0, _ => throw .exhausted
  | bound + 1, e =>
      match e with
      | .ident node name => fetch name (.unboundVariable name) node.span
      | .constant node value => located node.span value.value
      | .unary node op operand => do
          let value ← eval s bound operand
          located node.span (value.unary op)
      | .binary node op left right =>
          match op with
          | .typeCast => evalCast s bound node left right
          | .and => do
              if (← eval s bound left).isTruthy then
                return .bool (← eval s bound right).isTruthy
              else return .bool false
          | .or => do
              if (← eval s bound left).isTruthy then return .bool true
              else return .bool (← eval s bound right).isTruthy
          | .assign | .addAssign | .subAssign | .mulAssign | .divAssign => do
              let (name, path) ← evalPath s bound left
              let value ← eval s bound right
              assign name path.reverse op.compoundBase value node.span
          | op => do
              let x ← eval s bound left
              let y ← eval s bound right
              located node.span (x.binary op y)
      | .ternary _ cond thenBranch elseBranch => do
          if (← eval s bound cond).isTruthy then eval s bound thenBranch
          else eval s bound elseBranch
      | .call node callee args => evalCall s bound node callee args
      | .array _ items => do
          return .array (← evalAll s bound items)
      | .index node receiver subscript => do
          let x ← eval s bound receiver
          let y ← eval s bound subscript
          located node.span (x.element y)
      | .typeLiteral node _ => fail (.bug .typeAsValue) node.span

/-- The values of several expressions. -/
def evalAll (s : Setting α) : Nat → List (Expr α) → Run (List Value)
  | 0, _ => throw .exhausted
  | _ + 1, [] => pure []
  | bound + 1, e :: rest => do
      let first ← eval s bound e
      let others ← evalAll s bound rest
      return first :: others

/-- The value of a cast. -/
def evalCast (s : Setting α) : Nat → Node α → Expr α → Expr α → Run Value
  | 0, _, _, _ => throw .exhausted
  | bound + 1, node, operand, target =>
      match target with
      | .typeLiteral _ type => do
          let value ← eval s bound operand
          located node.span (Value.cast (Ty.ofExpr type) value)
      | _ => fail (.bug .castWithoutTarget) node.span

/-- The variable that an assignment writes to, and the indices below it, the last
one first. -/
def evalPath (s : Setting α) : Nat → Expr α → Run (String × List Value.Step)
  | 0, _ => throw .exhausted
  | bound + 1, target =>
      match target with
      | .ident _ name => pure (name, [])
      | .index node receiver subscript => do
          let (name, path) ← evalPath s bound receiver
          let value ← eval s bound subscript
          return (name, ⟨value, node.span⟩ :: path)
      | other => fail (.bug .invalidTarget) other.span

/-- The value of a call.  A function that is called by its name is looked up
before the arguments are evaluated. -/
def evalCall (s : Setting α) : Nat → Node α → Expr α → List (Expr α) → Run Value
  | 0, _, _, _ => throw .exhausted
  | bound + 1, node, callee, args =>
      match callee with
      | .ident calleeNode name => do
          let function ← fetch name (.unresolvedMethod name) calleeNode.span
          let values ← evalAll s bound args
          apply s bound name function values node.span
      | other => do
          let function ← eval s bound other
          let values ← evalAll s bound args
          apply s bound "function" function values node.span

/-- The value of a function applied to arguments. -/
def apply (s : Setting α) : Nat → String → Value → List Value → Span → Run Value
  | 0, _, _, _, _ => throw .exhausted
  | bound + 1, label, function, args, span =>
      match function with
      | .function (.builtin f) => located span (f.call args)
      | .function (.host f) =>
          match s.hosts f.handle args with
          | .ok value => pure value
          | .error reason => fail (.hostFailure label reason) span
      | .function (.declared f) => enter s bound f args span
      | other => fail (.notCallable other.kind) span

/-- The value of a declared function applied to arguments: what its body returns,
or nothing. -/
def enter (s : Setting α) : Nat → Closure → List Value → Span → Run Value
  | 0, _, _, _ => throw .exhausted
  | bound + 1, f, args, span => do
      if args.length ≠ f.params.length then
        fail (.argumentCount f.name f.params.length args.length) span
      else if s.callLimit ≤ (← get).callDepth then
        fail (.callDepth s.callLimit) span
      else
        match ← inCall f.frame (do bindParams f.params args; execAll s bound (s.body f.declaration))
        with
        | .ret value => return value
        | .next => return .void
        | .brk | .cont => fail (.bug .loopControlEscaped) span

/-- Execute a statement. -/
def exec (s : Setting α) : Nat → Stmt α → Run Flow
  | 0, _ => throw .exhausted
  | bound + 1, stmt => do
      checkCancelled s stmt.span
      match stmt with
      | .expr _ e => do
          let _ ← eval s bound e
          return .next
      | .varDecl _ binder init => do
          let value ← eval s bound init
          modify (·.define binder.name ⟨value, binder.mutable⟩)
          return .next
      | .ret _ none => return .ret .void
      | .ret _ (some e) => do
          return .ret (← eval s bound e)
      | .ifElse _ cond thenBranch elseBranch => do
          if (← eval s bound cond).isTruthy then inScope (exec s bound thenBranch)
          else
            match elseBranch with
            | some other => inScope (exec s bound other)
            | none => return .next
      | .whileLoop _ cond body => loop s bound true (some cond) none body
      | .doWhile _ body cond => loop s bound false (some cond) none body
      | .forLoop _ init cond step body =>
          inScope do
            match init with
            | some first => let _ ← exec s bound first
            | none => pure ()
            loop s bound true cond step body
      | .forEach node binder iterable body => do
          match ← eval s bound iterable with
          | .array items => loopItems s bound node binder body items
          | other => fail (.notIterable other.kind) iterable.span
      | .brk _ => return .brk
      | .cont _ => return .cont
      | .block _ stmts => inScope (execAll s bound stmts)
      | .function node _ name params _ => do
          modify (·.declare node.id name (s.names.number name) params)
          return .next

/-- Execute statements up to the first that does not end in the usual way. -/
def execAll (s : Setting α) : Nat → List (Stmt α) → Run Flow
  | 0, _ => throw .exhausted
  | _ + 1, [] => return .next
  | bound + 1, stmt :: rest => do
      match ← exec s bound stmt with
      | .next => execAll s bound rest
      | flow => return flow

/-- Execute a loop.  Its condition is tested before the first round only if
`tested`; without a condition the loop goes on until it is left. -/
def loop (s : Setting α) : Nat → Bool → Option (Expr α) → Option (Expr α) → Stmt α → Run Flow
  | 0, _, _, _, _ => throw .exhausted
  | bound + 1, tested, cond, step, body => do
      checkCancelled s body.span
      let goesOn ←
        match cond with
        | some e => if tested then Value.isTruthy <$> eval s bound e else pure true
        | none => pure true
      if goesOn then
        match ← inScope (exec s bound body) with
        | .brk => return .next
        | .ret value => return .ret value
        | .next | .cont =>
            match step with
            | some e => let _ ← eval s bound e
            | none => pure ()
            loop s bound true cond step body
      else return .next

/-- Execute the rounds of a loop over elements. -/
def loopItems (s : Setting α) : Nat → StmtNode → Binder → Stmt α → List Value → Run Flow
  | 0, _, _, _, _ => throw .exhausted
  | _ + 1, _, _, _, [] => return .next
  | bound + 1, node, binder, body, item :: rest => do
      checkCancelled s node.span
      let value ← loopItem binder node.span item
      let flow ← inScope do
        modify (·.define binder.name ⟨value, binder.mutable⟩)
        exec s bound body
      match flow with
      | .brk => return .next
      | .ret value => return .ret value
      | .next | .cont => loopItems s bound node binder body rest

end

/-- A run of a formula.  A `return` outside of functions ends it with its value;
else the last expression is the result. -/
def program (s : Setting α) (bound : Nat) (p : Program α) : Run Value :=
  between id Machine.release <|
    inScope do
      match ← execAll s bound p.body with
      | .ret value => return value
      | .brk | .cont => fail (.bug .loopControlOutside) p.span
      | .next =>
          match p.tail with
          | some e => eval s bound e
          | none => return .void

end Run

/-!
## Runs of formulas

A run takes a machine to a machine and gives a value or says why it stopped.  The
same machine may run a formula again and again.
-/

/-- Functions supplied from outside, by their numbers. -/
abbrev Hosts := Nat → List Value → Except String Value

namespace Machine

/-- A bound on nested steps that no run of any length met in practice reaches. -/
def ample : Nat := 1000000000000000

/-- Run a formula. -/
def run {α : Type} (m : Machine) (s : Setting α) (bound : Nat) (p : Program α) :
    Except Stop Value × Machine :=
  match Run.program s bound p m with
  | .ok value m => (.ok value, m)
  | .error stop m => (.error stop, m)

end Machine

/-- What a run of a formula needs to know, apart from limits. -/
def Program.setting {α : Type} (p : Program α) (names : Interner) (hosts : Hosts) :
    Setting α :=
  { names, functions := p.functions, hosts }

end Formulae
