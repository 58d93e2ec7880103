import Formulae.Arena.Basic

/-!
# Edges between nodes in storage

The edges of a formula in storage lead from the formula to its statements and its last
expression, and from each node to its children.  It is one tree if each node has one edge to it,
if children stand before their parents, and if the lists of children hold nothing else
(`Stored.IsOneTree`).
-/

namespace Formulae

/-- A node in storage. -/
inductive Ref
  | expr (id : Nat)
  | stmt (id : Nat)
deriving DecidableEq, Repr

/-- The first stands before the second.  Places of expressions and places of statements are
counted apart; no statement is a child of an expression. -/
def Ref.Before : Ref → Ref → Prop
  | .expr child, .expr parent => child < parent
  | .stmt child, .stmt parent => child < parent
  | .expr _, .stmt _ => True
  | .stmt _, .expr _ => False

/-! ## Windows -/

namespace Window

/-- The place is in the window. -/
def Has (w : Window) (i : Nat) : Prop :=
  w.start ≤ i ∧ i < w.start + w.length

/-- No place is in both windows. -/
def Disjoint (v w : Window) : Prop :=
  ∀ i, v.Has i → ¬w.Has i

/-- The windows lie inside a list of this length, no two overlap, and together they show all of
it. -/
structure Tile (windows : List Window) (length : Nat) : Prop where
  inside : ∀ w ∈ windows, w.start + w.length ≤ length
  disjoint : windows.Pairwise Disjoint
  covers : ∀ i < length, ∃ w ∈ windows, w.Has i

end Window

/-- The window of the arguments of a call or the items of an array. -/
def ExprKind.items? : ExprKind → Option Window
  | .call _ args => some args
  | .array items => some items
  | _ => none

/-- The window of the statements of a block or a function. -/
def StmtKind.body? : StmtKind → Option Window
  | .block stmts => some stmts
  | .function _ _ _ body => some body
  | _ => none

/-- The window of the parameters of a function. -/
def StmtKind.params? : StmtKind → Option Window
  | .function _ _ params _ => some params
  | _ => none

/-! ## Children -/

namespace Arena

/-- The children of an expression, in the order of source but for casts. -/
def exprChildren (a : Arena) : ExprKind → List Nat
  | .ident _ | .constant _ | .typeLiteral _ => []
  | .unary _ operand => [operand]
  | .binary _ left right => [left, right]
  | .ternary cond thenBranch elseBranch => [cond, thenBranch, elseBranch]
  | .call callee args => callee :: args.slice a.exprLists
  | .array items => items.slice a.exprLists
  | .index receiver subscript => [receiver, subscript]

/-- The children of a statement. -/
def stmtChildren (a : Arena) : StmtKind → List Ref
  | .expr e => [.expr e]
  | .varDecl _ init => [.expr init]
  | .ret value => value.toList.map .expr
  | .ifElse cond thenBranch elseBranch =>
      .expr cond :: .stmt thenBranch :: elseBranch.toList.map .stmt
  | .whileLoop cond body => [.expr cond, .stmt body]
  | .doWhile body cond => [.stmt body, .expr cond]
  | .forLoop init cond step body =>
      init.toList.map .stmt ++ cond.toList.map .expr ++ step.toList.map .expr ++ [.stmt body]
  | .forEach _ iterable body => [.expr iterable, .stmt body]
  | .brk | .cont => []
  | .block stmts => (stmts.slice a.stmtLists).map .stmt
  | .function _ _ _ body => (body.slice a.stmtLists).map .stmt

/-- The children of a node. -/
def children (a : Arena) : Ref → List Ref
  | .expr id => ((a.exprs[id]?.map fun cell => a.exprChildren cell.kind).getD []).map .expr
  | .stmt id => (a.stmts[id]?.map fun cell => a.stmtChildren cell.kind).getD []

/-- All nodes. -/
def refs (a : Arena) : List Ref :=
  (List.range a.exprs.length).map .expr ++ (List.range a.stmts.length).map .stmt

/-- All windows in the lists of expressions. -/
def exprWindows (a : Arena) : List Window :=
  a.exprs.filterMap fun cell => cell.kind.items?

/-- All windows in the lists of statements, but that of the formula. -/
def stmtWindows (a : Arena) : List Window :=
  a.stmts.filterMap fun cell => cell.kind.body?

/-- All windows in the parameters. -/
def paramWindows (a : Arena) : List Window :=
  a.stmts.filterMap fun cell => cell.kind.params?

end Arena

/-! ## Formulas -/

namespace Stored

/-- The nodes that the formula itself refers to. -/
def roots (s : Stored) : List Ref :=
  (s.root.body.slice s.arena.stmtLists).map .stmt ++ s.root.tail.toList.map .expr

/-- All edges, each with the node it starts from if that is not the formula itself. -/
def edges (s : Stored) : List (Option Ref × Ref) :=
  s.roots.map (none, ·) ++
    s.arena.refs.flatMap fun parent => (s.arena.children parent).map (some parent, ·)

/-- The node is reached along edges from the formula. -/
inductive Reaches (s : Stored) : Ref → Prop
  | root {ref : Ref} (edge : (none, ref) ∈ s.edges) : Reaches s ref
  | child {parent ref : Ref} (reaches : Reaches s parent) (edge : (some parent, ref) ∈ s.edges) :
      Reaches s ref

/-- The nodes in storage are one tree below the formula, and nothing else is there. -/
structure IsOneTree (s : Stored) : Prop where
  reached : ∀ ref ∈ s.arena.refs, s.Reaches ref
  oneEdge : ∀ ref ∈ s.arena.refs, (s.edges.map Prod.snd).count ref = 1
  inside : ∀ edge ∈ s.edges, edge.2 ∈ s.arena.refs
  before : ∀ parent child, (some parent, child) ∈ s.edges → child.Before parent
  exprLists : Window.Tile s.arena.exprWindows s.arena.exprLists.length
  stmtLists : Window.Tile (s.arena.stmtWindows ++ [s.root.body]) s.arena.stmtLists.length
  params : Window.Tile s.arena.paramWindows s.arena.params.length

end Stored

end Formulae
