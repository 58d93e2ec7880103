import Formulae.Proofs.Tree.Entries

/-!
# The expressions of a tree

All expressions of a tree, each with its parts, in the order of the entries
(`Program.entries_eq_map`).
-/

namespace Formulae

variable {α : Type}

namespace Expr

mutual

/-- The parts of an expression, at any depth. -/
def parts : Expr α → List (Expr α)
  | .ident _ _ | .constant _ _ | .typeLiteral _ _ => []
  | .unary _ _ operand => operand :: operand.parts
  | .binary _ _ left right => (left :: left.parts) ++ (right :: right.parts)
  | .ternary _ cond thenBranch elseBranch =>
      (cond :: cond.parts) ++ (thenBranch :: thenBranch.parts) ++ (elseBranch :: elseBranch.parts)
  | .call _ callee args => (callee :: callee.parts) ++ exprsAll args
  | .array _ items => exprsAll items
  | .index _ receiver subscript =>
      (receiver :: receiver.parts) ++ (subscript :: subscript.parts)

/-- Several expressions with their parts. -/
def exprsAll : List (Expr α) → List (Expr α)
  | [] => []
  | e :: rest => (e :: e.parts) ++ exprsAll rest

end

/-- An expression with its parts. -/
def exprs (e : Expr α) : List (Expr α) :=
  e :: e.parts

/-- An expression that may be missing with its parts. -/
def exprsOption (e : Option (Expr α)) : List (Expr α) :=
  (e.map exprs).getD []

mutual

theorem inner_eq_map : ∀ e : Expr α, e.inner = e.parts.map entry
  | .ident _ _ | .constant _ _ | .typeLiteral _ _ => rfl
  | .unary _ _ operand => by simp [inner, parts, inner_eq_map operand]
  | .binary _ _ left right | .index _ left right => by
      simp [inner, parts, inner_eq_map left, inner_eq_map right]
  | .ternary _ cond thenBranch elseBranch => by
      simp [inner, parts, inner_eq_map cond, inner_eq_map thenBranch, inner_eq_map elseBranch]
  | .call _ callee args => by simp [inner, parts, inner_eq_map callee, entriesAll_eq_map args]
  | .array _ items => entriesAll_eq_map items

theorem entriesAll_eq_map : ∀ es : List (Expr α), entriesAll es = (exprsAll es).map entry
  | [] => rfl
  | e :: rest => by simp [entriesAll, exprsAll, inner_eq_map e, entriesAll_eq_map rest]

end

theorem entries_eq_map (e : Expr α) : e.entries = e.exprs.map entry :=
  congrArg (e.entry :: ·) (inner_eq_map e)

theorem entriesOption_eq_map : ∀ e : Option (Expr α),
    entriesOption e = (exprsOption e).map entry
  | none => rfl
  | some e => entries_eq_map e

end Expr

namespace Stmt

mutual

/-- The expressions in a statement, at any depth. -/
def exprs : Stmt α → List (Expr α)
  | .expr _ e => e.exprs
  | .varDecl _ _ init => init.exprs
  | .ret _ value => Expr.exprsOption value
  | .ifElse _ cond thenBranch elseBranch =>
      cond.exprs ++ thenBranch.exprs ++ exprsOption elseBranch
  | .whileLoop _ cond body => cond.exprs ++ body.exprs
  | .doWhile _ body cond => body.exprs ++ cond.exprs
  | .forLoop _ init cond step body =>
      exprsOption init ++ Expr.exprsOption cond ++ Expr.exprsOption step ++ body.exprs
  | .forEach _ _ iterable body => iterable.exprs ++ body.exprs
  | .brk _ | .cont _ => []
  | .block _ stmts => exprsAll stmts
  | .function _ _ _ _ body => exprsAll body

/-- The expressions in a statement that may be missing. -/
def exprsOption : Option (Stmt α) → List (Expr α)
  | none => []
  | some s => s.exprs

/-- The expressions in several statements. -/
def exprsAll : List (Stmt α) → List (Expr α)
  | [] => []
  | s :: rest => s.exprs ++ exprsAll rest

end

mutual

theorem exprEntries_eq_map : ∀ s : Stmt α, s.exprEntries = s.exprs.map Expr.entry
  | .expr _ e => Expr.entries_eq_map e
  | .varDecl _ _ init => Expr.entries_eq_map init
  | .ret _ value => Expr.entriesOption_eq_map value
  | .ifElse _ cond thenBranch elseBranch => by
      simp [exprEntries, exprs, Expr.entries_eq_map, exprEntries_eq_map thenBranch,
        exprEntriesOption_eq_map elseBranch]
  | .whileLoop _ cond body | .doWhile _ body cond | .forEach _ _ cond body => by
      simp [exprEntries, exprs, Expr.entries_eq_map, exprEntries_eq_map body]
  | .forLoop _ init cond step body => by
      simp [exprEntries, exprs, Expr.entriesOption_eq_map, exprEntriesOption_eq_map init,
        exprEntries_eq_map body]
  | .brk _ | .cont _ => rfl
  | .block _ stmts | .function _ _ _ _ stmts => exprEntriesAll_eq_map stmts

theorem exprEntriesOption_eq_map : ∀ s : Option (Stmt α),
    exprEntriesOption s = (exprsOption s).map Expr.entry
  | none => rfl
  | some s => exprEntries_eq_map s

theorem exprEntriesAll_eq_map : ∀ stmts : List (Stmt α),
    exprEntriesAll stmts = (exprsAll stmts).map Expr.entry
  | [] => rfl
  | s :: rest => by
      simp [exprEntriesAll, exprsAll, exprEntries_eq_map s, exprEntriesAll_eq_map rest]

end

end Stmt

namespace Program

/-- All expressions of a formula. -/
def exprs (p : Program α) : List (Expr α) :=
  Stmt.exprsAll p.body ++ Expr.exprsOption p.tail

theorem entries_eq_map (p : Program α) : p.entries = p.exprs.map Expr.entry := by
  simp [entries, exprs, Stmt.exprEntriesAll_eq_map, Expr.entriesOption_eq_map]

end Program

end Formulae
