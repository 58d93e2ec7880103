import Formulae.Tree.Basic
import Formulae.Typing.Program

/-!
# How control leaves statements

A statement may be left by a `break` or `continue` that stands in no loop of its own
(`Stmt.escapes`), and by the `return`s that stand in no function of its own
(`Stmt.returned`).
-/

namespace Formulae

variable {α : Type}

namespace Stmt

mutual

/-- A `break` or `continue` may leave the statement. -/
def escapes : Stmt α → Bool
  | .brk _ | .cont _ => true
  | .ifElse _ _ thenBranch elseBranch => thenBranch.escapes || escapesOption elseBranch
  | .block _ stmts => escapesAll stmts
  | .expr _ _ | .varDecl _ _ _ | .ret _ _ | .whileLoop _ _ _ | .doWhile _ _ _
  | .forLoop _ _ _ _ _ | .forEach _ _ _ _ | .function _ _ _ _ _ => false

/-- The same of a statement that may be missing. -/
def escapesOption : Option (Stmt α) → Bool
  | none => false
  | some s => s.escapes

/-- The same of several statements. -/
def escapesAll : List (Stmt α) → Bool
  | [] => false
  | s :: rest => s.escapes || escapesAll rest

end

mutual

/-- What the `return`s of a statement return, outside of the functions declared in it. -/
def returned : Stmt α → List (Option (Expr α))
  | .ret _ value => [value]
  | .ifElse _ _ thenBranch elseBranch => thenBranch.returned ++ returnedOption elseBranch
  | .whileLoop _ _ body | .doWhile _ body _ | .forEach _ _ _ body => body.returned
  | .forLoop _ init _ _ body => returnedOption init ++ body.returned
  | .block _ stmts => returnedAll stmts
  | .expr _ _ | .varDecl _ _ _ | .brk _ | .cont _ | .function _ _ _ _ _ => []

/-- The same of a statement that may be missing. -/
def returnedOption : Option (Stmt α) → List (Option (Expr α))
  | none => []
  | some s => s.returned

/-- The same of several statements. -/
def returnedAll : List (Stmt α) → List (Option (Expr α))
  | [] => []
  | s :: rest => s.returned ++ returnedAll rest

end

mutual

/-- The statements in a statement, at any depth. -/
def inner : Stmt α → List (Stmt α)
  | .ifElse _ _ thenBranch elseBranch => (thenBranch :: thenBranch.inner) ++ stmtsOption elseBranch
  | .whileLoop _ _ body | .doWhile _ body _ | .forEach _ _ _ body => body :: body.inner
  | .forLoop _ init _ _ body => stmtsOption init ++ (body :: body.inner)
  | .block _ stmts | .function _ _ _ _ stmts => stmtsAll stmts
  | .expr _ _ | .varDecl _ _ _ | .ret _ _ | .brk _ | .cont _ => []

/-- A statement that may be missing with the statements in it. -/
def stmtsOption : Option (Stmt α) → List (Stmt α)
  | none => []
  | some s => s :: s.inner

/-- Several statements with the statements in them. -/
def stmtsAll : List (Stmt α) → List (Stmt α)
  | [] => []
  | s :: rest => (s :: s.inner) ++ stmtsAll rest

end

/-- A statement with the statements in it. -/
abbrev stmts (s : Stmt α) : List (Stmt α) :=
  s :: s.inner

/-- The number and the body of the function that a statement declares. -/
def function? : Stmt α → Option (Nat × List (Stmt α))
  | .function node _ _ _ body => some (node.id, body)
  | _ => none

mutual

theorem functions_eq : ∀ s : Stmt α, s.functions = s.stmts.filterMap function?
  | .expr _ _ | .varDecl _ _ _ | .ret _ _ | .brk _ | .cont _ => rfl
  | .ifElse _ _ thenBranch elseBranch => by
      rw [functions, functions_eq thenBranch, functionsOption_eq elseBranch,
        ← List.filterMap_append]
      rfl
  | .whileLoop _ _ body | .doWhile _ body _ | .forEach _ _ _ body => functions_eq body
  | .forLoop _ init _ _ body => by
      rw [functions, functionsOption_eq init, functions_eq body, ← List.filterMap_append]
      rfl
  | .block _ stmts => functionsAll_eq stmts
  | .function node _ _ _ body => congrArg ((node.id, body) :: ·) (functionsAll_eq body)

theorem functionsOption_eq : ∀ s : Option (Stmt α),
    functionsOption s = (stmtsOption s).filterMap function?
  | none => rfl
  | some s => functions_eq s

theorem functionsAll_eq : ∀ stmts : List (Stmt α),
    functionsAll stmts = (stmtsAll stmts).filterMap function?
  | [] => rfl
  | s :: rest => by
      rw [functionsAll, functions_eq s, functionsAll_eq rest, stmtsAll, List.filterMap_append]

end

theorem alwaysReturns_ifElse (node : StmtNode) (cond : Expr α) (thenBranch : Stmt α)
    (elseBranch : Option (Stmt α)) :
    (Stmt.ifElse node cond thenBranch elseBranch).alwaysReturns =
      (thenBranch.alwaysReturns && elseBranch.any alwaysReturns) := by
  cases elseBranch with
  | none => exact (Bool.and_false _).symm
  | some other => rfl

mutual

/-- The types of what a checked statement returns are those of the expressions returned. -/
theorem results_eq : ∀ s : TypedStmt,
    s.results = s.returned.map fun value => (value.map Expr.label).getD Ty.void
  | .expr _ _ | .varDecl _ _ _ | .brk _ | .cont _ | .function _ _ _ _ _ => rfl
  | .ret _ none | .ret _ (some _) => rfl
  | .ifElse _ _ thenBranch elseBranch => by
      simp [results, returned, results_eq thenBranch, resultsOption_eq elseBranch]
  | .whileLoop _ _ body | .doWhile _ body _ | .forEach _ _ _ body => results_eq body
  | .forLoop _ init _ _ body => by
      simp [results, returned, resultsOption_eq init, results_eq body]
  | .block _ stmts => resultsAll_eq stmts

theorem resultsOption_eq : ∀ s : Option TypedStmt,
    resultsOption s = (returnedOption s).map fun value => (value.map Expr.label).getD Ty.void
  | none => rfl
  | some s => results_eq s

theorem resultsAll_eq : ∀ stmts : List TypedStmt,
    resultsAll stmts = (returnedAll stmts).map fun value => (value.map Expr.label).getD Ty.void
  | [] => rfl
  | s :: rest => by simp [resultsAll, returnedAll, results_eq s, resultsAll_eq rest]

end

end Stmt

/-- All statements of a formula. -/
def Program.stmts (p : Program α) : List (Stmt α) :=
  Stmt.stmtsAll p.body

theorem Program.functions_eq (p : Program α) :
    p.functions = p.stmts.filterMap Stmt.function? :=
  Stmt.functionsAll_eq p.body

theorem Program.mem_functions {p : Program α} {node : StmtNode} {ret : TypeExpr} {name : String}
    {params : List Param} {body : List (Stmt α)}
    (declared : .function node ret name params body ∈ p.stmts) : (node.id, body) ∈ p.functions := by
  rw [Program.functions_eq]
  exact List.mem_filterMap.mpr ⟨_, declared, rfl⟩

theorem Program.declared_of_mem_functions {p : Program α} {function : Nat × List (Stmt α)}
    (member : function ∈ p.functions) : ∃ node ret name params,
      .function node ret name params function.2 ∈ p.stmts ∧ node.id = function.1 := by
  rw [Program.functions_eq] at member
  rcases List.mem_filterMap.mp member with ⟨s, declared, isFunction⟩
  cases s with
  | function node ret name params body =>
      cases isFunction
      exact ⟨node, ret, name, params, declared, rfl⟩
  | _ => cases isFunction

end Formulae
