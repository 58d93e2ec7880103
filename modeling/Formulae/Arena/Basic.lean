import Formulae.Tree.Basic

/-!
# Trees in flat storage

All nodes of a formula stand in two lists, one of expressions and one of statements, and a node
refers to its children by their places there.  Children of which there may be any number, and the
parameters of functions, stand in lists of their own, where a node has a window.

Lists only grow, except that they are cut back to an earlier length when what was added since
then is given up.  A place is never beyond what a machine word can count.
-/

namespace Formulae

/-- A stretch of a list. -/
structure Window where
  start : Nat
  length : Nat
deriving DecidableEq, Repr

namespace Window

/-- The stretch of a list that a window shows. -/
def slice {α : Type} (w : Window) (list : List α) : List α :=
  (list.drop w.start).take w.length

end Window

/-- An expression whose children are places. -/
inductive ExprKind
  | ident (name : String)
  | constant (value : Constant)
  | unary (op : Operator) (operand : Nat)
  | binary (op : Operator) (left right : Nat)
  | ternary (cond thenBranch elseBranch : Nat)
  | call (callee : Nat) (args : Window)
  | array (items : Window)
  | index (receiver subscript : Nat)
  | typeLiteral (type : TypeExpr)

/-- A statement whose children are places. -/
inductive StmtKind
  | expr (e : Nat)
  | varDecl (binder : Binder) (init : Nat)
  | ret (value : Option Nat)
  | ifElse (cond thenBranch : Nat) (elseBranch : Option Nat)
  | whileLoop (cond body : Nat)
  | doWhile (body cond : Nat)
  | forLoop (init cond step : Option Nat) (body : Nat)
  | forEach (binder : Binder) (iterable body : Nat)
  | brk
  | cont
  | block (stmts : Window)
  | function (ret : TypeExpr) (name : String) (params body : Window)

/-- A node in storage: what it is, and the stretch of source it was read from. -/
structure Cell (κ : Type) where
  kind : κ
  span : Span

/-- Storage for all nodes of a formula. -/
structure Arena where
  exprs : List (Cell ExprKind)
  exprLists : List Nat
  stmts : List (Cell StmtKind)
  stmtLists : List Nat
  params : List Param

namespace Arena

/-- Storage without nodes. -/
def empty : Arena :=
  ⟨[], [], [], [], []⟩

/-! ## Adding nodes and lists -/

/-- Add an expression; the result is its place. -/
def addExpr (kind : ExprKind) (span : Span) : StateM Arena Nat :=
  fun a => (a.exprs.length, { a with exprs := a.exprs ++ [⟨kind, span⟩] })

/-- Add a statement; the result is its place. -/
def addStmt (kind : StmtKind) (span : Span) : StateM Arena Nat :=
  fun a => (a.stmts.length, { a with stmts := a.stmts ++ [⟨kind, span⟩] })

/-- Add a list of expressions. -/
def addExprList (ids : List Nat) : StateM Arena Window :=
  fun a => (⟨a.exprLists.length, ids.length⟩, { a with exprLists := a.exprLists ++ ids })

/-- Add a list of statements. -/
def addStmtList (ids : List Nat) : StateM Arena Window :=
  fun a => (⟨a.stmtLists.length, ids.length⟩, { a with stmtLists := a.stmtLists ++ ids })

/-- Add the parameters of a function. -/
def addParams (list : List Param) : StateM Arena Window :=
  fun a => (⟨a.params.length, list.length⟩, { a with params := a.params ++ list })

/-- The stretch of source of an expression. -/
def exprSpan (a : Arena) (id : Nat) : Span :=
  (a.exprs[id]?.map Cell.span).getD ⟨0, 0⟩

/-! ## Giving up -/

/-- The lengths of the lists at some time. -/
structure Checkpoint where
  exprs : Nat
  exprLists : Nat
  stmts : Nat
  stmtLists : Nat
  params : Nat

/-- The lengths now. -/
def checkpoint (a : Arena) : Checkpoint :=
  ⟨a.exprs.length, a.exprLists.length, a.stmts.length, a.stmtLists.length, a.params.length⟩

/-- Without what was added since then. -/
def rollback (a : Arena) (c : Checkpoint) : Arena :=
  ⟨a.exprs.take c.exprs, a.exprLists.take c.exprLists, a.stmts.take c.stmts,
    a.stmtLists.take c.stmtLists, a.params.take c.params⟩

end Arena

/-! ## Programs in storage -/

/-- A formula in storage: the window of its statements, and the place of its last expression. -/
structure Root where
  body : Window
  tail : Option Nat
  span : Span

/-- A formula with its storage. -/
structure Stored where
  arena : Arena
  root : Root

end Formulae
