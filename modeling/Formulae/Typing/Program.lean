import Formulae.Typing.Expr

/-!
# Checking statements

Declarations are visible in the statements after them.  Branches, loop bodies,
blocks and functions have scopes of their own.  Checking a formula gives the tree
with the types of all expressions and the casts that were needed, and the type of
its result.
-/

namespace Formulae

/-- A checked statement. -/
abbrev TypedStmt := Stmt Ty

/-- Where a statement stands: what the enclosing function returns, if there is
one, and whether there is a loop to leave. -/
structure Surroundings where
  returns : Option Ty
  inLoop : Bool

namespace Surroundings

/-- Outside of all functions and loops. -/
def outside : Surroundings :=
  ⟨none, false⟩

/-- The body of a loop. -/
def loopBody (around : Surroundings) : Surroundings :=
  { around with inLoop := true }

/-- The body of a function with this return type. -/
def functionBody (ret : Ty) : Surroundings :=
  ⟨some ret, false⟩

end Surroundings

namespace Stmt

mutual

/-- Every way through the statement ends in a `return`. -/
def alwaysReturns {α : Type} : Stmt α → Bool
  | .ret _ _ => true
  | .block _ stmts => someReturns stmts
  | .ifElse _ _ thenBranch (some elseBranch) =>
      thenBranch.alwaysReturns && elseBranch.alwaysReturns
  | _ => false

/-- Some statement of a list always returns. -/
def someReturns {α : Type} : List (Stmt α) → Bool
  | [] => false
  | s :: rest => s.alwaysReturns || someReturns rest

end

end Stmt

namespace Typing

/-- The type of a variable that takes the type of its value.  The length of an
array is no part of it. -/
def slot : Ty → Ty
  | .array element _ _ => .array element none true
  | type => type.withFinal true

/-- Bind a name that is not bound in the scope yet. -/
def declare (env : TypeEnv) (name : String) (type : Ty) (span : Span) : Check TypeEnv :=
  match env.declare? name type with
  | some env => pure env
  | none => Check.fail (.duplicateDeclaration name) span

/-- The initial value of a variable, and the type of the variable. -/
def initial (written : Option TypeExpr) (value : TypedExpr) : Check (TypedExpr × Ty) :=
  match written with
  | some written => do
      let declared := Ty.ofExpr written
      return (← coerce .castable declared value, declared)
  | none => pure (value, slot value.label)

/-- What a function returns, as its declaration says. -/
def returned (expected : Option Ty) (value : TypedExpr) : Check TypedExpr :=
  match expected with
  | some expected => coerce .accepted expected value
  | none => pure value

/-- A `return` without a value. -/
def returnsNothing (expected : Option Ty) (span : Span) : Check Unit :=
  match expected with
  | some type =>
      if type.isVoid then pure () else Check.fail (.notAssignable type Ty.void) span
  | none => pure ()

/-- The type of the elements of what a loop goes through. -/
def elementType (iterable : TypedExpr) : Check Ty :=
  match iterable.label with
  | .array element _ _ => pure element
  | .basic .mixed _ => pure Ty.mixed
  | type => Check.fail (.notIterable type) iterable.span

/-- The type of the variable of a loop over elements. -/
def itemType (written : Option TypeExpr) (element : Ty) (span : Span) : Check Ty :=
  match written with
  | some written =>
      let declared := Ty.ofExpr written
      if declared.accepts element then pure declared
      else Check.fail (.notAssignable declared element) span
  | none => pure (slot element)

/-- A word that needs a loop around it. -/
def loopControl (around : Surroundings) (control : LoopControl) (span : Span) : Check Unit :=
  if around.inLoop then pure () else Check.fail (.outsideLoop control) span

/-- The type of a declared function. -/
def functionType (params : List Param) (ret : TypeExpr) : Ty :=
  .function (params.map fun param => Ty.ofExpr param.type) none (Ty.ofExpr ret) none true

/-- Bind the parameters of a function. -/
def declareParams (span : Span) : TypeEnv → List Param → Check TypeEnv
  | env, [] => pure env
  | env, param :: rest => do
      let type := (Ty.ofExpr param.type).withFinal !param.mutable
      declareParams span (← declare env param.name type span) rest

/-- A function that returns something must do so on every way through its
body. -/
def mustReturn (name : String) (ret : Ty) (body : List (Stmt Unit)) (span : Span) :
    Check Unit :=
  if ret.isVoid || Stmt.someReturns body then pure ()
  else Check.fail (.missingReturn name ret) span

end Typing

namespace Expr

open Typing

/-- An expression that must have a value. -/
def checkValue (env : TypeEnv) (e : Expr Unit) : Check TypedExpr := do
  requireValue (← e.check env)

/-- An expression that may be missing and has a value if it is there. -/
def checkValueOption (env : TypeEnv) : Option (Expr Unit) → Check (Option TypedExpr)
  | none => pure none
  | some e => return some (← e.checkValue env)

/-- An expression that may be missing. -/
def checkOption (env : TypeEnv) : Option (Expr Unit) → Check (Option TypedExpr)
  | none => pure none
  | some e => return some (← e.check env)

end Expr

namespace Stmt

open Typing

mutual

/-- The statement with the types of its expressions, and what is in scope after
it. -/
def check (around : Surroundings) (env : TypeEnv) : Stmt Unit → Check (TypedStmt × TypeEnv)
  | .expr node e => return (.expr node (← e.check env), env)
  | .varDecl node binder init => do
      let (value, type) ← initial binder.type (← init.checkValue env)
      let after ← declare env binder.name (type.withFinal !binder.mutable) node.span
      return (.varDecl node binder value, after)
  | .ret node none => do
      returnsNothing around.returns node.span
      return (.ret node none, env)
  | .ret node (some e) =>
      return (.ret node (some (← returned around.returns (← e.checkValue env))), env)
  | .ifElse node cond thenBranch elseBranch => do
      let c ← cond.checkValue env
      let (x, _) ← check around env.child thenBranch
      let y ← checkOption around env elseBranch
      return (.ifElse node c x y, env)
  | .whileLoop node cond body => do
      let c ← cond.checkValue env
      let (x, _) ← check around.loopBody env.child body
      return (.whileLoop node c x, env)
  | .doWhile node body cond => do
      let c ← cond.checkValue env
      let (x, _) ← check around.loopBody env.child body
      return (.doWhile node x c, env)
  | .forLoop node init cond step body => do
      let (i, inner) ← checkInit around env.child init
      let c ← Expr.checkValueOption inner cond
      let n ← Expr.checkOption inner step
      let (x, _) ← check around.loopBody inner.child body
      return (.forLoop node i c n x, env)
  | .forEach node binder iterable body => do
      let xs ← iterable.checkValue env
      let type ← itemType binder.type (← elementType xs) node.span
      let inner ← declare env.child binder.name (type.withFinal !binder.mutable) node.span
      let (x, _) ← check around.loopBody inner.child body
      return (.forEach node binder xs x, env)
  | .brk node => do
      loopControl around .brk node.span
      return (.brk node, env)
  | .cont node => do
      loopControl around .cont node.span
      return (.cont node, env)
  | .block node stmts => do
      let (checked, _) ← checkAll around env.child stmts
      return (.block node checked, env)
  | .function node written name params body => do
      let type := Ty.ofExpr written
      let after ← declare env name (functionType params written) node.span
      let inner ← declareParams node.span after.child params
      let (checked, _) ← checkAll (.functionBody type) inner body
      mustReturn name type body node.span
      return (.function node written name params checked, after)

/-- A branch that may be missing, in a scope of its own. -/
def checkOption (around : Surroundings) (env : TypeEnv) :
    Option (Stmt Unit) → Check (Option TypedStmt)
  | none => pure none
  | some s => return some (← check around env.child s).1

/-- The first part of a loop, which may be missing, and what is in scope after
it. -/
def checkInit (around : Surroundings) (env : TypeEnv) :
    Option (Stmt Unit) → Check (Option TypedStmt × TypeEnv)
  | none => pure (none, env)
  | some s => do
      let (checked, after) ← check around env s
      return (some checked, after)

/-- Statements in turn, and what is in scope after the last one. -/
def checkAll (around : Surroundings) (env : TypeEnv) :
    List (Stmt Unit) → Check (List TypedStmt × TypeEnv)
  | [] => pure ([], env)
  | s :: rest => do
      let (first, inner) ← check around env s
      let (others, after) ← checkAll around inner rest
      return (first :: others, after)

end

mutual

/-- The types of what a statement returns as the result of the formula, that is,
outside of functions. -/
def results : TypedStmt → List Ty
  | .ret _ none => [Ty.void]
  | .ret _ (some e) => [e.label]
  | .ifElse _ _ thenBranch elseBranch => thenBranch.results ++ resultsOption elseBranch
  | .whileLoop _ _ body | .doWhile _ body _ | .forEach _ _ _ body => body.results
  | .forLoop _ init _ _ body => resultsOption init ++ body.results
  | .block _ stmts => resultsAll stmts
  | .expr _ _ | .varDecl _ _ _ | .brk _ | .cont _ | .function _ _ _ _ _ => []

/-- The types of what a statement that may be missing returns. -/
def resultsOption : Option TypedStmt → List Ty
  | none => []
  | some s => s.results

/-- The types of what several statements return. -/
def resultsAll : List TypedStmt → List Ty
  | [] => []
  | s :: rest => s.results ++ resultsAll rest

end

end Stmt

/-- A checked formula. -/
abbrev TypedProgram := Program Ty

namespace Program

/-- The one type that all results have; mixed if they differ, and void if there
are none. -/
def joinResults : List Ty → Ty
  | [] => Ty.void
  | first :: rest => if rest.all fun type => type.equals first then first.withFinal true else Ty.mixed

/-- The type of the result of a checked formula. -/
def resultType (p : TypedProgram) : Ty :=
  joinResults (Stmt.resultsAll p.body ++ p.tail.toList.map Expr.label)

/-- The checked formula as a computation that hands out numbers. -/
def checked (globals : TypeEnv) (p : Program Unit) : Check TypedProgram := do
  let (body, env) ← Stmt.checkAll .outside globals.child p.body
  let tail ← Expr.checkOption env p.tail
  return ⟨body, tail, p.span⟩

/-- The checked formula.  Its declarations stand in a scope inside that of the
names bound from outside.  The expressions of the formula are numbered from zero,
and new nodes get the numbers after theirs. -/
def check (globals : TypeEnv) (p : Program Unit) : Except TypeError TypedProgram :=
  (p.checked globals).run' p.exprSize

end Program

end Formulae
