import Formulae.Number.Integer
import Formulae.Operator
import Formulae.Text.Span
import Formulae.TypeExpr

/-!
# Syntax trees

The tree of a formula: statements and an optional last expression whose value
is the result.  Every node carries its span and a number; numbers are given
in the order in which nodes are completed, so that the children of a node have
smaller numbers than the node itself.

Expressions carry one more label, of a type that the tree leaves open.  Parsed
trees carry nothing there, checked trees the type of the expression.
-/

namespace Formulae

/-- What every expression carries. -/
structure Node (α : Type) where
  id : Nat
  span : Span
  label : α
deriving Repr, Inhabited

/-- What every statement carries. -/
structure StmtNode where
  id : Nat
  span : Span
deriving Repr, Inhabited

/-- Literals.  Dates and durations are never read from source as such: a string
becomes one when it is used where only a date or a duration fits.  The value that
is no number has no sign, so the literal for it with a minus is one of its own. -/
inductive Constant
  | int (value : Int64)
  | float (value : Float)
  | negativeNan
  | bool (value : Bool)
  | null
  | string (text : String)
  | date (text : String)
  | duration (text : String)
deriving DecidableEq, Repr, Inhabited

namespace Constant

/-- The literal for a double in text, if the text is one. -/
def ofDouble? (text : List Char) : Option Constant :=
  (Number.float? text).map fun value =>
    if value.isNaN && (Number.splitSign text).1 then .negativeNan else .float value

/-- The text between the quotes of a literal that has quotes. -/
def text? : Constant → Option String
  | .string text | .date text | .duration text => some text
  | _ => none

end Constant

/-- Expressions.  A cast is a binary operator whose right operand is a type,
and assignments are binary operators too. -/
inductive Expr (α : Type)
  | ident (node : Node α) (name : String)
  | constant (node : Node α) (value : Constant)
  | unary (node : Node α) (op : Operator) (operand : Expr α)
  | binary (node : Node α) (op : Operator) (left right : Expr α)
  | ternary (node : Node α) (cond thenBranch elseBranch : Expr α)
  | call (node : Node α) (callee : Expr α) (args : List (Expr α))
  | array (node : Node α) (items : List (Expr α))
  | index (node : Node α) (receiver subscript : Expr α)
  | typeLiteral (node : Node α) (type : TypeExpr)
deriving Inhabited

namespace Expr

variable {α : Type}

/-- What the root of the expression carries. -/
def node : Expr α → Node α
  | .ident node _ | .constant node _ | .unary node _ _ | .binary node _ _ _
  | .ternary node _ _ _ | .call node _ _ | .array node _ | .index node _ _
  | .typeLiteral node _ => node

/-- The stretch of source the expression was read from. -/
def span (e : Expr α) : Span :=
  e.node.span

/-- The label of the root. -/
def label (e : Expr α) : α :=
  e.node.label

mutual

/-- The number of nodes. -/
def size : Expr α → Nat
  | .ident _ _ | .constant _ _ | .typeLiteral _ _ => 1
  | .unary _ _ operand => operand.size + 1
  | .binary _ _ left right => left.size + right.size + 1
  | .ternary _ cond thenBranch elseBranch =>
      cond.size + thenBranch.size + elseBranch.size + 1
  | .call _ callee args => callee.size + sizeAll args + 1
  | .array _ items => sizeAll items + 1
  | .index _ receiver subscript => receiver.size + subscript.size + 1

/-- The number of nodes of several expressions. -/
def sizeAll : List (Expr α) → Nat
  | [] => 0
  | e :: rest => e.size + sizeAll rest

end

end Expr

/-- What a declaration without its value says: `mut T name` or `var name`. -/
structure Binder where
  mutable : Bool
  type : Option TypeExpr
  name : String
deriving Repr, Inhabited

/-- A parameter of a declared function. -/
structure Param where
  mutable : Bool
  type : TypeExpr
  name : String
  span : Span
deriving Repr, Inhabited

/-- Statements. -/
inductive Stmt (α : Type)
  | expr (node : StmtNode) (e : Expr α)
  | varDecl (node : StmtNode) (binder : Binder) (init : Expr α)
  | ret (node : StmtNode) (value : Option (Expr α))
  | ifElse (node : StmtNode) (cond : Expr α) (thenBranch : Stmt α) (elseBranch : Option (Stmt α))
  | whileLoop (node : StmtNode) (cond : Expr α) (body : Stmt α)
  | doWhile (node : StmtNode) (body : Stmt α) (cond : Expr α)
  | forLoop (node : StmtNode) (init : Option (Stmt α)) (cond step : Option (Expr α))
      (body : Stmt α)
  | forEach (node : StmtNode) (binder : Binder) (iterable : Expr α) (body : Stmt α)
  | brk (node : StmtNode)
  | cont (node : StmtNode)
  | block (node : StmtNode) (stmts : List (Stmt α))
  | function (node : StmtNode) (ret : TypeExpr) (name : String) (params : List Param)
      (body : List (Stmt α))
deriving Inhabited

namespace Stmt

variable {α : Type}

/-- What the root of the statement carries. -/
def node : Stmt α → StmtNode
  | .expr node _ | .varDecl node _ _ | .ret node _ | .ifElse node _ _ _
  | .whileLoop node _ _ | .doWhile node _ _ | .forLoop node _ _ _ _ | .forEach node _ _ _
  | .brk node | .cont node | .block node _ | .function node _ _ _ _ => node

/-- The stretch of source the statement was read from. -/
def span (s : Stmt α) : Span :=
  s.node.span

mutual

/-- The number of expression nodes. -/
def exprSize : Stmt α → Nat
  | .expr _ e => e.size
  | .varDecl _ _ init => init.size
  | .ret _ value => (value.map Expr.size).getD 0
  | .ifElse _ cond thenBranch elseBranch =>
      cond.size + thenBranch.exprSize + exprSizeOption elseBranch
  | .whileLoop _ cond body => cond.size + body.exprSize
  | .doWhile _ body cond => body.exprSize + cond.size
  | .forLoop _ init cond step body =>
      exprSizeOption init + (cond.map Expr.size).getD 0 + (step.map Expr.size).getD 0
        + body.exprSize
  | .forEach _ _ iterable body => iterable.size + body.exprSize
  | .brk _ | .cont _ => 0
  | .block _ stmts => exprSizeAll stmts
  | .function _ _ _ _ body => exprSizeAll body

/-- The number of expression nodes of a statement that may be missing. -/
def exprSizeOption : Option (Stmt α) → Nat
  | none => 0
  | some s => s.exprSize

/-- The number of expression nodes of several statements. -/
def exprSizeAll : List (Stmt α) → Nat
  | [] => 0
  | s :: rest => s.exprSize + exprSizeAll rest

end

end Stmt

/-- A formula: statements, and a last expression whose value is the result. -/
structure Program (α : Type) where
  body : List (Stmt α)
  tail : Option (Expr α)
  span : Span
deriving Inhabited

namespace Program

variable {α : Type}

/-- The number of expression nodes. -/
def exprSize (p : Program α) : Nat :=
  Stmt.exprSizeAll p.body + (p.tail.map Expr.size).getD 0

end Program

/-!
## Bodies of declared functions

A function declaration is known by its number, and the tree gives its body back
under that number.
-/

namespace Stmt

variable {α : Type}

mutual

/-- The numbers of the functions declared in a statement, at any depth, with
their bodies. -/
def functions : Stmt α → List (Nat × List (Stmt α))
  | .expr _ _ | .varDecl _ _ _ | .ret _ _ | .brk _ | .cont _ => []
  | .ifElse _ _ thenBranch elseBranch => thenBranch.functions ++ functionsOption elseBranch
  | .whileLoop _ _ body | .doWhile _ body _ | .forEach _ _ _ body => body.functions
  | .forLoop _ init _ _ body => functionsOption init ++ body.functions
  | .block _ stmts => functionsAll stmts
  | .function node _ _ _ body => (node.id, body) :: functionsAll body

/-- The functions declared in a statement that may be missing. -/
def functionsOption : Option (Stmt α) → List (Nat × List (Stmt α))
  | none => []
  | some s => s.functions

/-- The functions declared in several statements. -/
def functionsAll : List (Stmt α) → List (Nat × List (Stmt α))
  | [] => []
  | s :: rest => s.functions ++ functionsAll rest

end

end Stmt

/-- The numbers of all functions declared in a formula, with their bodies. -/
def Program.functions {α : Type} (p : Program α) : List (Nat × List (Stmt α)) :=
  Stmt.functionsAll p.body

end Formulae
