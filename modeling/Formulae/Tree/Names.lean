import Formulae.Tree.Basic

/-!
# Free names and quoted texts

Which names a tree uses without declaring them, in source order, and which
texts it quotes.  Scopes follow the rules of the language: a declaration is
visible in the statements after it up to the end of the block, branch or loop
it stands in; an initial value does not see the name it is for, while the body
of a function sees the function.

A scope is given by the names declared in it and around it.
-/

namespace Formulae

/-- What a free name is used for: as a value, or called directly. -/
inductive Role
  | variable
  | callee
deriving DecidableEq, Repr

/-- A free name where it is used. -/
structure Occurrence where
  name : String
  role : Role
  node : Nat
  span : Span
deriving DecidableEq, Repr

namespace Expr

variable {α : Type}

/-- The use of a name at a node, unless it is declared. -/
def occurrence (bound : List String) (role : Role) (node : Node α) (name : String) :
    List Occurrence :=
  if name ∈ bound then [] else [⟨name, role, node.id, node.span⟩]

mutual

/-- The uses of names that are not declared.  A name in the place of a callee
is a callee. -/
def free (bound : List String) (role : Role) : Expr α → List Occurrence
  | .ident node name => occurrence bound role node name
  | .constant _ _ | .typeLiteral _ _ => []
  | .unary _ _ operand => operand.free bound .variable
  | .binary _ _ left right => left.free bound .variable ++ right.free bound .variable
  | .ternary _ cond thenBranch elseBranch =>
      cond.free bound .variable ++ thenBranch.free bound .variable
        ++ elseBranch.free bound .variable
  | .call _ callee args => callee.free bound .callee ++ freeAll bound args
  | .array _ items => freeAll bound items
  | .index _ receiver subscript => receiver.free bound .variable ++ subscript.free bound .variable

/-- The uses of names in several expressions. -/
def freeAll (bound : List String) : List (Expr α) → List Occurrence
  | [] => []
  | e :: rest => e.free bound .variable ++ freeAll bound rest

end

mutual

/-- The quoted texts, in source order. -/
def strings : Expr α → List String
  | .constant _ value => value.text?.toList
  | .ident _ _ | .typeLiteral _ _ => []
  | .unary _ _ operand => operand.strings
  | .binary _ _ left right => left.strings ++ right.strings
  | .ternary _ cond thenBranch elseBranch =>
      cond.strings ++ thenBranch.strings ++ elseBranch.strings
  | .call _ callee args => callee.strings ++ stringsAll args
  | .array _ items => stringsAll items
  | .index _ receiver subscript => receiver.strings ++ subscript.strings

/-- The quoted texts of several expressions. -/
def stringsAll : List (Expr α) → List String
  | [] => []
  | e :: rest => e.strings ++ stringsAll rest

end

/-- The uses of names in an expression that may be missing. -/
def freeOption (bound : List String) (e : Option (Expr α)) : List Occurrence :=
  (e.map (free bound .variable)).getD []

/-- The quoted texts of an expression that may be missing. -/
def stringsOption (e : Option (Expr α)) : List String :=
  (e.map strings).getD []

end Expr

namespace Stmt

variable {α : Type}

/-- The names that a statement declares for the statements after it. -/
def declared : Stmt α → List String
  | .varDecl _ binder _ => [binder.name]
  | .function _ _ name _ _ => [name]
  | _ => []

/-- The names that a statement which may be missing declares. -/
def declaredOption (s : Option (Stmt α)) : List String :=
  (s.map declared).getD []

mutual

/-- The uses of names that are not declared. -/
def free (bound : List String) : Stmt α → List Occurrence
  | .expr _ e => e.free bound .variable
  | .varDecl _ _ init => init.free bound .variable
  | .ret _ value => Expr.freeOption bound value
  | .ifElse _ cond thenBranch elseBranch =>
      cond.free bound .variable ++ thenBranch.free bound ++ freeOption bound elseBranch
  | .whileLoop _ cond body => cond.free bound .variable ++ body.free bound
  | .doWhile _ body cond => body.free bound ++ cond.free bound .variable
  | .forLoop _ init cond step body =>
      let inner := declaredOption init ++ bound
      freeOption bound init ++ Expr.freeOption inner cond ++ Expr.freeOption inner step
        ++ body.free inner
  | .forEach _ binder iterable body =>
      iterable.free bound .variable ++ body.free (binder.name :: bound)
  | .brk _ | .cont _ => []
  | .block _ stmts => freeAll bound stmts
  | .function _ _ name params body => freeAll (params.map Param.name ++ name :: bound) body

/-- The uses of names in a statement that may be missing. -/
def freeOption (bound : List String) : Option (Stmt α) → List Occurrence
  | none => []
  | some s => s.free bound

/-- The uses of names in a list of statements, each of which sees what those
before it declare. -/
def freeAll (bound : List String) : List (Stmt α) → List Occurrence
  | [] => []
  | s :: rest => s.free bound ++ freeAll (s.declared ++ bound) rest

end

/-- The names in scope after a list of statements. -/
def boundAfter (bound : List String) (stmts : List (Stmt α)) : List String :=
  stmts.foldl (fun names s => s.declared ++ names) bound

mutual

/-- The quoted texts, in source order. -/
def strings : Stmt α → List String
  | .expr _ e => e.strings
  | .varDecl _ _ init => init.strings
  | .ret _ value => Expr.stringsOption value
  | .ifElse _ cond thenBranch elseBranch =>
      cond.strings ++ thenBranch.strings ++ stringsOption elseBranch
  | .whileLoop _ cond body => cond.strings ++ body.strings
  | .doWhile _ body cond => body.strings ++ cond.strings
  | .forLoop _ init cond step body =>
      stringsOption init ++ Expr.stringsOption cond ++ Expr.stringsOption step ++ body.strings
  | .forEach _ _ iterable body => iterable.strings ++ body.strings
  | .brk _ | .cont _ => []
  | .block _ stmts => stringsAll stmts
  | .function _ _ _ _ body => stringsAll body

/-- The quoted texts of a statement that may be missing. -/
def stringsOption : Option (Stmt α) → List String
  | none => []
  | some s => s.strings

/-- The quoted texts of several statements. -/
def stringsAll : List (Stmt α) → List String
  | [] => []
  | s :: rest => s.strings ++ stringsAll rest

end

end Stmt

namespace Program

variable {α : Type}

/-- Every use of a name that the program does not declare, in source order. -/
def free (p : Program α) : List Occurrence :=
  Stmt.freeAll [] p.body ++ Expr.freeOption (Stmt.boundAfter [] p.body) p.tail

/-- The names used in one role, each once, in the order of their first use. -/
def freeNames (p : Program α) (role : Role) : List String :=
  ((p.free.filter fun use => use.role = role).map Occurrence.name).eraseDups

/-- The names the host must supply values for. -/
def freeVariables (p : Program α) : List String :=
  p.freeNames .variable

/-- The names called directly that the host or the built-ins must supply. -/
def freeMethods (p : Program α) : List String :=
  p.freeNames .callee

/-- The text of every quoted literal in source order. -/
def strings (p : Program α) : List String :=
  Stmt.stringsAll p.body ++ Expr.stringsOption p.tail

end Program

end Formulae
