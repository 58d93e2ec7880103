import Formulae.Tree.Basic

/-!
# Numbering nodes

Trees that were built otherwise than from source get their numbers here.
Expressions and statements are counted apart, from zero, each after its parts.
-/

namespace Formulae

/-- The numbers of the next expression and of the next statement. -/
structure Counters where
  expr : Nat
  stmt : Nat

/-- A computation that hands out numbers. -/
abbrev Numbering := StateM Counters

namespace Numbering

/-- The number of the next expression. -/
def nextExpr : Numbering Nat :=
  modifyGet fun c => (c.expr, { c with expr := c.expr + 1 })

/-- The number of the next statement. -/
def nextStmt : Numbering Nat :=
  modifyGet fun c => (c.stmt, { c with stmt := c.stmt + 1 })

end Numbering

namespace Expr

variable {α : Type}

/-- The node with the next number. -/
def renumber (node : Node α) : Numbering (Node α) :=
  return { node with id := ← Numbering.nextExpr }

mutual

/-- The expression with all its nodes numbered anew. -/
def numbered : Expr α → Numbering (Expr α)
  | .ident node name => return .ident (← renumber node) name
  | .constant node value => return .constant (← renumber node) value
  | .unary node op operand => do
      let x ← numbered operand
      return .unary (← renumber node) op x
  | .binary node op left right => do
      let x ← numbered left
      let y ← numbered right
      return .binary (← renumber node) op x y
  | .ternary node cond thenBranch elseBranch => do
      let c ← numbered cond
      let x ← numbered thenBranch
      let y ← numbered elseBranch
      return .ternary (← renumber node) c x y
  | .call node callee args => do
      let f ← numbered callee
      let xs ← numberedAll args
      return .call (← renumber node) f xs
  | .array node items => do
      let xs ← numberedAll items
      return .array (← renumber node) xs
  | .index node receiver subscript => do
      let x ← numbered receiver
      let y ← numbered subscript
      return .index (← renumber node) x y
  | .typeLiteral node type => return .typeLiteral (← renumber node) type

/-- Several expressions numbered anew. -/
def numberedAll : List (Expr α) → Numbering (List (Expr α))
  | [] => return []
  | e :: rest => do
      let first ← numbered e
      return first :: (← numberedAll rest)

end

/-- An expression that may be missing numbered anew. -/
def numberedOption : Option (Expr α) → Numbering (Option (Expr α))
  | none => return none
  | some e => return some (← numbered e)

end Expr

namespace Stmt

variable {α : Type}

/-- The node with the next number. -/
def renumber (node : StmtNode) : Numbering StmtNode :=
  return { node with id := ← Numbering.nextStmt }

mutual

/-- The statement with all its nodes numbered anew. -/
def numbered : Stmt α → Numbering (Stmt α)
  | .expr node e => do
      let x ← e.numbered
      return .expr (← renumber node) x
  | .varDecl node binder init => do
      let x ← init.numbered
      return .varDecl (← renumber node) binder x
  | .ret node value => do
      let x ← Expr.numberedOption value
      return .ret (← renumber node) x
  | .ifElse node cond thenBranch elseBranch => do
      let c ← cond.numbered
      let x ← numbered thenBranch
      let y ← numberedOption elseBranch
      return .ifElse (← renumber node) c x y
  | .whileLoop node cond body => do
      let c ← cond.numbered
      let x ← numbered body
      return .whileLoop (← renumber node) c x
  | .doWhile node body cond => do
      let x ← numbered body
      let c ← cond.numbered
      return .doWhile (← renumber node) x c
  | .forLoop node init cond step body => do
      let i ← numberedOption init
      let c ← Expr.numberedOption cond
      let n ← Expr.numberedOption step
      let x ← numbered body
      return .forLoop (← renumber node) i c n x
  | .forEach node binder iterable body => do
      let xs ← iterable.numbered
      let x ← numbered body
      return .forEach (← renumber node) binder xs x
  | .brk node => return .brk (← renumber node)
  | .cont node => return .cont (← renumber node)
  | .block node stmts => do
      let xs ← numberedAll stmts
      return .block (← renumber node) xs
  | .function node written name params body => do
      let xs ← numberedAll body
      return .function (← renumber node) written name params xs

/-- A statement that may be missing numbered anew. -/
def numberedOption : Option (Stmt α) → Numbering (Option (Stmt α))
  | none => return none
  | some s => return some (← numbered s)

/-- Several statements numbered anew. -/
def numberedAll : List (Stmt α) → Numbering (List (Stmt α))
  | [] => return []
  | s :: rest => do
      let first ← numbered s
      return first :: (← numberedAll rest)

end

end Stmt

namespace Program

/-- The formula with all its nodes numbered as if it had been read. -/
def numbered {α : Type} (p : Program α) : Program α :=
  let number : Numbering (Program α) := do
    let body ← Stmt.numberedAll p.body
    let tail ← Expr.numberedOption p.tail
    return { p with body, tail }
  (number.run ⟨0, 0⟩).1

end Program

end Formulae
