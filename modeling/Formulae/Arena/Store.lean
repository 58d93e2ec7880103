import Formulae.Arena.Basic

/-!
# The storage of a tree

A tree is put into storage node by node, each after its children, so that a node refers to
smaller places only.
-/

namespace Formulae

namespace Expr

variable {α : Type}

mutual

/-- Add the nodes of an expression, each after its children.  The type of a cast stands before
the operand, as in source. -/
def store : Expr α → StateM Arena Nat
  | .ident node name => Arena.addExpr (.ident name) node.span
  | .constant node value => Arena.addExpr (.constant value) node.span
  | .unary node op operand => do
      let x ← store operand
      Arena.addExpr (.unary op x) node.span
  | .binary node op left right => do
      if op = .typeCast then
        let y ← store right
        let x ← store left
        Arena.addExpr (.binary op x y) node.span
      else
        let x ← store left
        let y ← store right
        Arena.addExpr (.binary op x y) node.span
  | .ternary node cond thenBranch elseBranch => do
      let c ← store cond
      let x ← store thenBranch
      let y ← store elseBranch
      Arena.addExpr (.ternary c x y) node.span
  | .call node callee args => do
      let f ← store callee
      let xs ← Arena.addExprList (← storeAll args)
      Arena.addExpr (.call f xs) node.span
  | .array node items => do
      let xs ← Arena.addExprList (← storeAll items)
      Arena.addExpr (.array xs) node.span
  | .index node receiver subscript => do
      let x ← store receiver
      let y ← store subscript
      Arena.addExpr (.index x y) node.span
  | .typeLiteral node type => Arena.addExpr (.typeLiteral type) node.span

/-- Add the nodes of several expressions. -/
def storeAll : List (Expr α) → StateM Arena (List Nat)
  | [] => return []
  | e :: rest => do
      let first ← store e
      return first :: (← storeAll rest)

end

/-- Add the nodes of an expression that may be missing. -/
def storeOption : Option (Expr α) → StateM Arena (Option Nat)
  | none => return none
  | some e => return some (← store e)

end Expr

namespace Stmt

variable {α : Type}

mutual

/-- Add the nodes of a statement, each after its children. -/
def store : Stmt α → StateM Arena Nat
  | .expr node e => do
      let x ← e.store
      Arena.addStmt (.expr x) node.span
  | .varDecl node binder init => do
      let x ← init.store
      Arena.addStmt (.varDecl binder x) node.span
  | .ret node value => do
      let x ← Expr.storeOption value
      Arena.addStmt (.ret x) node.span
  | .ifElse node cond thenBranch elseBranch => do
      let c ← cond.store
      let x ← store thenBranch
      let y ← storeOption elseBranch
      Arena.addStmt (.ifElse c x y) node.span
  | .whileLoop node cond body => do
      let c ← cond.store
      let x ← store body
      Arena.addStmt (.whileLoop c x) node.span
  | .doWhile node body cond => do
      let x ← store body
      let c ← cond.store
      Arena.addStmt (.doWhile x c) node.span
  | .forLoop node init cond step body => do
      let i ← storeOption init
      let c ← Expr.storeOption cond
      let n ← Expr.storeOption step
      let x ← store body
      Arena.addStmt (.forLoop i c n x) node.span
  | .forEach node binder iterable body => do
      let xs ← iterable.store
      let x ← store body
      Arena.addStmt (.forEach binder xs x) node.span
  | .brk node => Arena.addStmt .brk node.span
  | .cont node => Arena.addStmt .cont node.span
  | .block node stmts => do
      let xs ← Arena.addStmtList (← storeAll stmts)
      Arena.addStmt (.block xs) node.span
  | .function node written name params body => do
      let xs ← Arena.addStmtList (← storeAll body)
      let ps ← Arena.addParams params
      Arena.addStmt (.function written name ps xs) node.span

/-- Add the nodes of a statement that may be missing. -/
def storeOption : Option (Stmt α) → StateM Arena (Option Nat)
  | none => return none
  | some s => return some (← store s)

/-- Add the nodes of several statements. -/
def storeAll : List (Stmt α) → StateM Arena (List Nat)
  | [] => return []
  | s :: rest => do
      let first ← store s
      return first :: (← storeAll rest)

end

end Stmt

/-- Add the nodes of a formula; the list of its statements stands behind all others. -/
def Program.storeIn {α : Type} (p : Program α) : StateM Arena Root := do
  let ids ← Stmt.storeAll p.body
  let tail ← Expr.storeOption p.tail
  let body ← Arena.addStmtList ids
  return ⟨body, tail, p.span⟩

/-- A formula in storage of its own. -/
def Program.stored {α : Type} (p : Program α) : Stored :=
  let (root, arena) := p.storeIn .empty
  ⟨arena, root⟩

end Formulae
