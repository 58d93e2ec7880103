import Formulae.Proofs.Tree.Control
import Formulae.Proofs.Typing.KeptNames

/-!
# Names kept for functions that give no value

A function is silent if it gives no value.  A formula reserves the names of silent functions if
it declares nothing else under these names, and uses them only in calls that stand for
themselves: as a statement, as the step of a loop, or as the last expression
(`Program.reserves`).  Such a name is given by a predicate `silent`.
-/

namespace Formulae

variable {α : Type}

namespace Expr

/-- No name of a silent function stands in the expression. -/
def spares (silent : String → Bool) (e : Expr α) : Bool :=
  (e.names []).all fun name => !silent name

/-- No name of a silent function stands in the expressions. -/
def sparesAll (silent : String → Bool) (es : List (Expr α)) : Bool :=
  (namesAll [] es).all fun name => !silent name

/-- The expression is a call of a silent function by its name. -/
def isSilent (silent : String → Bool) : Expr α → Bool
  | .call _ (.ident _ name) _ => silent name
  | _ => false

/-- No name of a silent function stands in the expression, unless the expression is a call of
this function. -/
def reserves (silent : String → Bool) : Expr α → Bool
  | .call _ (.ident _ _) args => sparesAll silent args
  | e => e.spares silent

variable {silent : String → Bool}

theorem spares_ident {node : Node α} {name : String} :
    (Expr.ident node name).spares silent = !silent name := by
  simp [spares, names, free, occurrence]

theorem spares_binary {node : Node α} {op : Operator} {left right : Expr α} :
    (Expr.binary node op left right).spares silent
      = (left.spares silent && right.spares silent) := by
  rw [spares, names_binary, List.all_append]
  rfl

theorem spares_ternary {node : Node α} {cond thenBranch elseBranch : Expr α} :
    (Expr.ternary node cond thenBranch elseBranch).spares silent
      = (cond.spares silent && thenBranch.spares silent && elseBranch.spares silent) := by
  rw [spares, names_ternary, List.all_append, List.all_append]
  rfl

theorem spares_call {node : Node α} {callee : Expr α} {args : List (Expr α)} :
    (Expr.call node callee args).spares silent
      = (callee.spares silent && sparesAll silent args) := by
  rw [spares, names_call, List.all_append]
  rfl

theorem spares_index {node : Node α} {receiver subscript : Expr α} :
    (Expr.index node receiver subscript).spares silent
      = (receiver.spares silent && subscript.spares silent) := by
  rw [spares, names_index, List.all_append]
  rfl

theorem sparesAll_cons {e : Expr α} {rest : List (Expr α)} :
    sparesAll silent (e :: rest) = (e.spares silent && sparesAll silent rest) := by
  rw [sparesAll, namesAll_cons, List.all_append]
  rfl

/-- Where no silent function is named, none is called. -/
theorem isSilent_of_spares {e : Expr α} (h : e.spares silent) : e.isSilent silent = false := by
  cases e with
  | call node callee args =>
      rw [spares_call, Bool.and_eq_true] at h
      cases callee with
      | ident calleeNode name =>
          rw [spares_ident, Bool.not_eq_true'] at h
          exact h.1
      | _ => rfl
  | _ => rfl

theorem reserves_of_spares {e : Expr α} (h : e.spares silent) : e.reserves silent := by
  cases e with
  | call node callee args =>
      cases callee with
      | ident calleeNode name =>
          rw [spares_call, Bool.and_eq_true] at h
          exact h.2
      | _ => exact h
  | _ => exact h

end Expr

namespace Stmt

/-- The names of silent functions are reserved in the statement, apart from those in it. -/
def reserves (silent : String → Bool) : Stmt α → Bool
  | .expr _ e => e.reserves silent
  | .varDecl _ binder init => !silent binder.name && init.spares silent
  | .ret _ value => value.all (Expr.spares silent)
  | .ifElse _ cond _ _ | .whileLoop _ cond _ | .doWhile _ _ cond => cond.spares silent
  | .forLoop _ _ cond step _ => cond.all (Expr.spares silent) && step.all (Expr.reserves silent)
  | .forEach _ binder iterable _ => !silent binder.name && iterable.spares silent
  | .brk _ | .cont _ | .block _ _ => true
  | .function _ written name params _ =>
      (silent name == (Ty.ofExpr written).isVoid) && params.all fun param => !silent param.name

end Stmt

/-- The names of silent functions are reserved in the formula and are none of the built-in
functions, and a last expression has a value unless it is a call of a silent function. -/
def Program.reserves (silent : String → Bool) (q : TypedProgram) : Bool :=
  q.stmts.all (Stmt.reserves silent) && (Builtin.all.all fun f => !silent f.name) &&
    q.tail.all fun e => e.reserves silent && (e.label.isVoid == e.isSilent silent)

end Formulae
