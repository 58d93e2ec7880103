import Formulae.Proofs.Token.Written
import Formulae.Tree.Rename

/-!
# Trees that source can give

Not every tree comes from source.  In one that does, numbers have no sign and
names are no reserved words; casts, and nothing else, have a type on their right,
one that starts with a reserved word; and no branch before an `else` ends in a
conditional that could take the `else` for itself.

Renaming and requoting lead from such trees to such trees.
-/

namespace Formulae

namespace TypeExpr

/-- The first token of the type is a reserved word. -/
def startsWithWord : TypeExpr → Bool
  | .basic _ | .function _ _ => true
  | .array element => element.startsWithWord
  | .named _ => false

/-- The brackets of an array would belong to the result of the function. -/
def isFunction : TypeExpr → Bool
  | .function _ _ => true
  | _ => false

mutual

/-- Source can give the type. -/
def Readable : TypeExpr → Prop
  | .basic _ => True
  | .array element => element.Readable ∧ element.isFunction = false
  | .function params ret => ReadableAll params ∧ ret.Readable
  | .named name => Lexer.IsName name

/-- Source can give the types. -/
def ReadableAll : List TypeExpr → Prop
  | [] => True
  | type :: rest => type.Readable ∧ ReadableAll rest

end

end TypeExpr

/-- The constant is one that a single token stands for. -/
def Constant.Readable (floats : Float → Prop) : Constant → Prop
  | .int value => 0 ≤ value.toInt
  | .float value => floats value
  | .bool _ | .null | .string _ => True
  | .negativeNan | .date _ | .duration _ => False

namespace Operator

/-- The operator stands between its operands as a mark. -/
def IsInfix (op : Operator) : Prop :=
  op.mark?.isSome ∧ op.fixity = .infixOp

/-- The operator stands before its operand as a mark. -/
def IsPrefix (op : Operator) : Prop :=
  op.fixity = .prefixOp

theorem mark?_of_isPrefix {op : Operator} (h : op.IsPrefix) :
    op.mark? = some .minus ∨ op.mark? = some .bang := by
  unfold IsPrefix at h
  revert h
  cases op <;> decide

end Operator

section

variable {α : Type} (floats : Float → Prop)

namespace Expr

/-- A cast has a type on its right that cannot be taken for an expression. -/
def IsTarget : Expr α → Prop
  | .typeLiteral _ type => type.Readable ∧ type.startsWithWord
  | _ => False

mutual

/-- Source can give the expression. -/
def Readable : Expr α → Prop
  | .ident _ name => Lexer.IsName name
  | .constant _ value => value.Readable floats
  | .unary _ op operand => op.IsPrefix ∧ operand.Readable
  | .binary _ .typeCast left right => left.Readable ∧ right.IsTarget
  | .binary _ op left right => op.IsInfix ∧ left.Readable ∧ right.Readable
  | .ternary _ cond thenBranch elseBranch =>
      cond.Readable ∧ thenBranch.Readable ∧ elseBranch.Readable
  | .call _ callee args => callee.Readable ∧ ReadableAll args
  | .array _ items => ReadableAll items
  | .index _ receiver subscript => receiver.Readable ∧ subscript.Readable
  | .typeLiteral _ _ => False

/-- Source can give the expressions. -/
def ReadableAll : List (Expr α) → Prop
  | [] => True
  | e :: rest => e.Readable ∧ ReadableAll rest

end

variable {floats}

theorem readable_binary {node : Node α} {op : Operator} {left right : Expr α}
    (h : (Expr.binary node op left right).Readable floats) :
    op = .typeCast ∧ left.Readable floats ∧ right.IsTarget ∨
      op ≠ .typeCast ∧ op.IsInfix ∧ left.Readable floats ∧ right.Readable floats := by
  cases op <;> simp_all [Readable]

theorem readable_binary_of_cast {node : Node α} {left right : Expr α}
    (left' : left.Readable floats) (right' : right.IsTarget) :
    (Expr.binary node .typeCast left right).Readable floats := by
  simp [Readable, left', right']

theorem readable_binary_of_infix {node : Node α} {op : Operator} {left right : Expr α}
    (infixOp : op.IsInfix) (left' : left.Readable floats) (right' : right.Readable floats) :
    (Expr.binary node op left right).Readable floats := by
  cases op <;> simp_all [Readable, Operator.IsInfix, Operator.mark?]

variable (floats)

end Expr

/-- Source can give the declaration. -/
structure Binder.Readable (binder : Binder) : Prop where
  type : ∀ type ∈ binder.type, type.Readable
  name : Lexer.IsName binder.name

/-- Source can give the parameter. -/
structure Param.Readable (param : Param) : Prop where
  type : param.type.Readable
  name : Lexer.IsName param.name

namespace Stmt

mutual

/-- The statement ends in a conditional without an `else`, which would take one
that followed. -/
def opensElse : Stmt α → Bool
  | .ifElse _ _ _ elseBranch => opensElseOption elseBranch
  | .whileLoop _ _ body | .forLoop _ _ _ _ body | .forEach _ _ _ body => body.opensElse
  | _ => false

/-- The conditional has no other branch, or one that ends so. -/
def opensElseOption : Option (Stmt α) → Bool
  | none => true
  | some s => s.opensElse

end

/-- The statement may stand first in the header of a loop. -/
def isHeader : Stmt α → Bool
  | .expr _ _ | .varDecl _ _ _ => true
  | _ => false

mutual

/-- Source can give the statement. -/
def Readable : Stmt α → Prop
  | .expr _ e => e.Readable floats
  | .varDecl _ binder init => binder.Readable ∧ init.Readable floats
  | .ret _ value => ∀ e ∈ value, e.Readable floats
  | .ifElse _ cond thenBranch elseBranch =>
      cond.Readable floats ∧ thenBranch.Readable ∧ ReadableOption elseBranch ∧
        (elseBranch.isSome → thenBranch.opensElse = false)
  | .whileLoop _ cond body => cond.Readable floats ∧ body.Readable
  | .doWhile _ body cond => body.Readable ∧ cond.Readable floats
  | .forLoop _ init cond step body =>
      ReadableOption init ∧ (∀ s ∈ init, s.isHeader) ∧ (∀ e ∈ cond, e.Readable floats) ∧
        (∀ e ∈ step, e.Readable floats) ∧ body.Readable
  | .forEach _ binder iterable body =>
      binder.Readable ∧ iterable.Readable floats ∧ body.Readable
  | .brk _ | .cont _ => True
  | .block _ stmts => ReadableAll stmts
  | .function _ result name params body =>
      result.Readable ∧ Lexer.IsName name ∧ (∀ param ∈ params, param.Readable) ∧
        ReadableAll body

/-- Source can give the statement, if there is one. -/
def ReadableOption : Option (Stmt α) → Prop
  | none => True
  | some s => s.Readable

/-- Source can give the statements. -/
def ReadableAll : List (Stmt α) → Prop
  | [] => True
  | s :: rest => s.Readable ∧ ReadableAll rest

end

end Stmt

/-- Source can give the program. -/
structure Program.Readable (p : Program α) : Prop where
  body : Stmt.ReadableAll floats p.body
  tail : ∀ e ∈ p.tail, e.Readable floats

end

end Formulae
