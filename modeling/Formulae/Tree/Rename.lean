import Formulae.Tree.Names

/-!
# Renaming

Free names and quoted texts can be replaced throughout a tree.  Names that the
tree declares are left alone, and so are free names used in another role.
-/

namespace Formulae

/-- Replace one name by another in one role. -/
structure Renaming where
  role : Role
  old : String
  new : String
deriving DecidableEq, Repr

namespace Renaming

/-- The name to put at a use. -/
def apply (r : Renaming) (bound : List String) (role : Role) (name : String) : String :=
  if name ∉ bound ∧ role = r.role ∧ name = r.old then r.new else name

end Renaming

namespace Expr

variable {α : Type}

mutual

/-- Rename the free uses in an expression. -/
def rename (r : Renaming) (bound : List String) (role : Role) : Expr α → Expr α
  | .ident node name => .ident node (r.apply bound role name)
  | .constant node value => .constant node value
  | .typeLiteral node type => .typeLiteral node type
  | .unary node op operand => .unary node op (operand.rename r bound .variable)
  | .binary node op left right =>
      .binary node op (left.rename r bound .variable) (right.rename r bound .variable)
  | .ternary node cond thenBranch elseBranch =>
      .ternary node (cond.rename r bound .variable) (thenBranch.rename r bound .variable)
        (elseBranch.rename r bound .variable)
  | .call node callee args => .call node (callee.rename r bound .callee) (renameAll r bound args)
  | .array node items => .array node (renameAll r bound items)
  | .index node receiver subscript =>
      .index node (receiver.rename r bound .variable) (subscript.rename r bound .variable)

/-- Rename the free uses in several expressions. -/
def renameAll (r : Renaming) (bound : List String) : List (Expr α) → List (Expr α)
  | [] => []
  | e :: rest => e.rename r bound .variable :: renameAll r bound rest

end

/-- A quoted text in place of another.  What was taken for a date or a duration
is a plain string again. -/
def requoteConstant (old new : String) (value : Constant) : Constant :=
  if value.text? = some old then .string new else value

mutual

/-- Replace a quoted text throughout an expression. -/
def requote (old new : String) : Expr α → Expr α
  | .ident node name => .ident node name
  | .constant node value => .constant node (requoteConstant old new value)
  | .typeLiteral node type => .typeLiteral node type
  | .unary node op operand => .unary node op (operand.requote old new)
  | .binary node op left right => .binary node op (left.requote old new) (right.requote old new)
  | .ternary node cond thenBranch elseBranch =>
      .ternary node (cond.requote old new) (thenBranch.requote old new)
        (elseBranch.requote old new)
  | .call node callee args => .call node (callee.requote old new) (requoteAll old new args)
  | .array node items => .array node (requoteAll old new items)
  | .index node receiver subscript =>
      .index node (receiver.requote old new) (subscript.requote old new)

/-- Replace a quoted text throughout several expressions. -/
def requoteAll (old new : String) : List (Expr α) → List (Expr α)
  | [] => []
  | e :: rest => e.requote old new :: requoteAll old new rest

end

end Expr

namespace Stmt

variable {α : Type}

mutual

/-- Rename the free uses in a statement. -/
def rename (r : Renaming) (bound : List String) : Stmt α → Stmt α
  | .expr node e => .expr node (e.rename r bound .variable)
  | .varDecl node binder init => .varDecl node binder (init.rename r bound .variable)
  | .ret node value => .ret node (value.map (Expr.rename r bound .variable))
  | .ifElse node cond thenBranch elseBranch =>
      .ifElse node (cond.rename r bound .variable) (thenBranch.rename r bound)
        (renameOption r bound elseBranch)
  | .whileLoop node cond body =>
      .whileLoop node (cond.rename r bound .variable) (body.rename r bound)
  | .doWhile node body cond =>
      .doWhile node (body.rename r bound) (cond.rename r bound .variable)
  | .forLoop node init cond step body =>
      let inner := declaredOption init ++ bound
      .forLoop node (renameOption r bound init) (cond.map (Expr.rename r inner .variable))
        (step.map (Expr.rename r inner .variable)) (body.rename r inner)
  | .forEach node binder iterable body =>
      .forEach node binder (iterable.rename r bound .variable)
        (body.rename r (binder.name :: bound))
  | .brk node => .brk node
  | .cont node => .cont node
  | .block node stmts => .block node (renameAll r bound stmts)
  | .function node result name params body =>
      .function node result name params
        (renameAll r (params.map Param.name ++ name :: bound) body)

/-- Rename the free uses in a statement that may be missing. -/
def renameOption (r : Renaming) (bound : List String) : Option (Stmt α) → Option (Stmt α)
  | none => none
  | some s => some (s.rename r bound)

/-- Rename the free uses in a list of statements. -/
def renameAll (r : Renaming) (bound : List String) : List (Stmt α) → List (Stmt α)
  | [] => []
  | s :: rest => s.rename r bound :: renameAll r (s.declared ++ bound) rest

end

mutual

/-- Replace a quoted text throughout a statement. -/
def requote (old new : String) : Stmt α → Stmt α
  | .expr node e => .expr node (e.requote old new)
  | .varDecl node binder init => .varDecl node binder (init.requote old new)
  | .ret node value => .ret node (value.map (Expr.requote old new))
  | .ifElse node cond thenBranch elseBranch =>
      .ifElse node (cond.requote old new) (thenBranch.requote old new)
        (requoteOption old new elseBranch)
  | .whileLoop node cond body => .whileLoop node (cond.requote old new) (body.requote old new)
  | .doWhile node body cond => .doWhile node (body.requote old new) (cond.requote old new)
  | .forLoop node init cond step body =>
      .forLoop node (requoteOption old new init) (cond.map (Expr.requote old new))
        (step.map (Expr.requote old new)) (body.requote old new)
  | .forEach node binder iterable body =>
      .forEach node binder (iterable.requote old new) (body.requote old new)
  | .brk node => .brk node
  | .cont node => .cont node
  | .block node stmts => .block node (requoteAll old new stmts)
  | .function node result name params body =>
      .function node result name params (requoteAll old new body)

/-- Replace a quoted text throughout a statement that may be missing. -/
def requoteOption (old new : String) : Option (Stmt α) → Option (Stmt α)
  | none => none
  | some s => some (s.requote old new)

/-- Replace a quoted text throughout several statements. -/
def requoteAll (old new : String) : List (Stmt α) → List (Stmt α)
  | [] => []
  | s :: rest => s.requote old new :: requoteAll old new rest

end

end Stmt

namespace Program

variable {α : Type}

/-- Rename the free uses of a name in one role, and count them. -/
def rename (r : Renaming) (p : Program α) : Nat × Program α :=
  (p.free.countP fun use => use.role = r.role && use.name = r.old,
    { p with
      body := Stmt.renameAll r [] p.body
      tail := p.tail.map (Expr.rename r (Stmt.boundAfter [] p.body) .variable) })

/-- Replace a quoted text by another, and count the places. -/
def requote (old new : String) (p : Program α) : Nat × Program α :=
  (p.strings.count old,
    { p with
      body := Stmt.requoteAll old new p.body
      tail := p.tail.map (Expr.requote old new) })

end Program

end Formulae
