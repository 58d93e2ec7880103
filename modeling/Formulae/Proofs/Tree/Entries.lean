import Formulae.Tree.Basic

/-!
# Trees as numbered entries

A tree can be read as a table: under the number of every node stand its span, its
form and the numbers of its parts.  Each node is a part of one other node, or it
stands in one statement or at the end of the formula, so the numbers that are used
are those that there are (`Program.uses_perm_numbers`).
-/

namespace Formulae

variable {α : Type}

/-- The form of an expression, with the numbers of its parts in their places. -/
inductive ExprForm
  | ident (name : String)
  | constant (value : Constant)
  | unary (op : Operator) (operand : Nat)
  | binary (op : Operator) (left right : Nat)
  | ternary (cond thenBranch elseBranch : Nat)
  | call (callee : Nat) (args : List Nat)
  | array (items : List Nat)
  | index (receiver subscript : Nat)
  | typeLiteral (type : TypeExpr)

/-- The numbers of the parts. -/
def ExprForm.parts : ExprForm → List Nat
  | .ident _ | .constant _ | .typeLiteral _ => []
  | .unary _ operand => [operand]
  | .binary _ left right => [left, right]
  | .ternary cond thenBranch elseBranch => [cond, thenBranch, elseBranch]
  | .call callee args => callee :: args
  | .array items => items
  | .index receiver subscript => [receiver, subscript]

/-- A literal of the form is one that source has. -/
def ExprForm.IsRead : ExprForm → Prop
  | .constant (.date _) | .constant (.duration _) => False
  | _ => True

/-- What stands under the number of an expression. -/
structure ExprEntry where
  number : Nat
  span : Span
  form : ExprForm

/-- The form of a statement, with the numbers of its parts in their places. -/
inductive StmtForm
  | expr (e : Nat)
  | varDecl (binder : Binder) (init : Nat)
  | ret (value : Option Nat)
  | ifElse (cond thenBranch : Nat) (elseBranch : Option Nat)
  | whileLoop (cond body : Nat)
  | doWhile (body cond : Nat)
  | forLoop (init cond step : Option Nat) (body : Nat)
  | forEach (binder : Binder) (iterable body : Nat)
  | brk
  | cont
  | block (stmts : List Nat)
  | function (ret : TypeExpr) (name : String) (params : List Param) (body : List Nat)

/-- The numbers of the expressions in a statement. -/
def StmtForm.exprs : StmtForm → List Nat
  | .expr e => [e]
  | .varDecl _ init => [init]
  | .ret value => value.toList
  | .ifElse cond _ _ | .whileLoop cond _ | .doWhile _ cond => [cond]
  | .forLoop _ cond step _ => cond.toList ++ step.toList
  | .forEach _ iterable _ => [iterable]
  | .brk | .cont | .block _ | .function _ _ _ _ => []

/-- What stands under the number of a statement. -/
structure StmtEntry where
  number : Nat
  span : Span
  form : StmtForm

/-- The numbers that entries stand under. -/
def ExprEntry.numbers (entries : List ExprEntry) : List Nat :=
  entries.map ExprEntry.number

/-- The numbers of the parts that entries name. -/
def ExprEntry.parts (entries : List ExprEntry) : List Nat :=
  entries.flatMap fun entry => entry.form.parts

/-- The numbers of the expressions that statements name. -/
def StmtEntry.exprs (entries : List StmtEntry) : List Nat :=
  entries.flatMap fun entry => entry.form.exprs

@[simp]
theorem ExprEntry.numbers_nil : ExprEntry.numbers [] = [] :=
  rfl

@[simp]
theorem ExprEntry.numbers_cons (entry : ExprEntry) (rest : List ExprEntry) :
    ExprEntry.numbers (entry :: rest) = entry.number :: ExprEntry.numbers rest :=
  rfl

@[simp]
theorem ExprEntry.numbers_append (first second : List ExprEntry) :
    ExprEntry.numbers (first ++ second) = ExprEntry.numbers first ++ ExprEntry.numbers second :=
  List.map_append

@[simp]
theorem ExprEntry.parts_nil : ExprEntry.parts [] = [] :=
  rfl

@[simp]
theorem ExprEntry.parts_cons (entry : ExprEntry) (rest : List ExprEntry) :
    ExprEntry.parts (entry :: rest) = entry.form.parts ++ ExprEntry.parts rest :=
  rfl

@[simp]
theorem ExprEntry.parts_append (first second : List ExprEntry) :
    ExprEntry.parts (first ++ second) = ExprEntry.parts first ++ ExprEntry.parts second :=
  List.flatMap_append

@[simp]
theorem StmtEntry.exprs_nil : StmtEntry.exprs [] = [] :=
  rfl

@[simp]
theorem StmtEntry.exprs_cons (entry : StmtEntry) (rest : List StmtEntry) :
    StmtEntry.exprs (entry :: rest) = entry.form.exprs ++ StmtEntry.exprs rest :=
  rfl

@[simp]
theorem StmtEntry.exprs_append (first second : List StmtEntry) :
    StmtEntry.exprs (first ++ second) = StmtEntry.exprs first ++ StmtEntry.exprs second :=
  List.flatMap_append

namespace Expr

/-- The number of the root. -/
def number (e : Expr α) : Nat :=
  e.node.id

/-- The form of the root. -/
def form : Expr α → ExprForm
  | .ident _ name => .ident name
  | .constant _ value => .constant value
  | .unary _ op operand => .unary op operand.number
  | .binary _ op left right => .binary op left.number right.number
  | .ternary _ cond thenBranch elseBranch =>
      .ternary cond.number thenBranch.number elseBranch.number
  | .call _ callee args => .call callee.number (args.map number)
  | .array _ items => .array (items.map number)
  | .index _ receiver subscript => .index receiver.number subscript.number
  | .typeLiteral _ type => .typeLiteral type

/-- The entry of the root. -/
def entry (e : Expr α) : ExprEntry :=
  ⟨e.number, e.span, e.form⟩

mutual

/-- The entries of the parts, at any depth. -/
def inner : Expr α → List ExprEntry
  | .ident _ _ | .constant _ _ | .typeLiteral _ _ => []
  | .unary _ _ operand => operand.entry :: operand.inner
  | .binary _ _ left right => (left.entry :: left.inner) ++ (right.entry :: right.inner)
  | .ternary _ cond thenBranch elseBranch =>
      (cond.entry :: cond.inner) ++ (thenBranch.entry :: thenBranch.inner)
        ++ (elseBranch.entry :: elseBranch.inner)
  | .call _ callee args => (callee.entry :: callee.inner) ++ entriesAll args
  | .array _ items => entriesAll items
  | .index _ receiver subscript =>
      (receiver.entry :: receiver.inner) ++ (subscript.entry :: subscript.inner)

/-- The entries of several expressions. -/
def entriesAll : List (Expr α) → List ExprEntry
  | [] => []
  | e :: rest => (e.entry :: e.inner) ++ entriesAll rest

end

/-- The entries of an expression. -/
def entries (e : Expr α) : List ExprEntry :=
  e.entry :: e.inner

/-- The entries of an expression that may be missing. -/
def entriesOption (e : Option (Expr α)) : List ExprEntry :=
  (e.map entries).getD []

end Expr

namespace Stmt

/-- The number of the root. -/
def number (s : Stmt α) : Nat :=
  s.node.id

/-- The form of the root. -/
def form : Stmt α → StmtForm
  | .expr _ e => .expr e.number
  | .varDecl _ binder init => .varDecl binder init.number
  | .ret _ value => .ret (value.map Expr.number)
  | .ifElse _ cond thenBranch elseBranch =>
      .ifElse cond.number thenBranch.number (elseBranch.map number)
  | .whileLoop _ cond body => .whileLoop cond.number body.number
  | .doWhile _ body cond => .doWhile body.number cond.number
  | .forLoop _ init cond step body =>
      .forLoop (init.map number) (cond.map Expr.number) (step.map Expr.number) body.number
  | .forEach _ binder iterable body => .forEach binder iterable.number body.number
  | .brk _ => .brk
  | .cont _ => .cont
  | .block _ stmts => .block (stmts.map number)
  | .function _ result name params body => .function result name params (body.map number)

/-- The entry of the root. -/
def entry (s : Stmt α) : StmtEntry :=
  ⟨s.number, s.span, s.form⟩

mutual

/-- The entries of a statement and of the statements in it. -/
def entries : Stmt α → List StmtEntry
  | .ifElse node cond thenBranch elseBranch =>
      (Stmt.ifElse node cond thenBranch elseBranch).entry
        :: (thenBranch.entries ++ entriesOption elseBranch)
  | .whileLoop node cond body => (Stmt.whileLoop node cond body).entry :: body.entries
  | .doWhile node body cond => (Stmt.doWhile node body cond).entry :: body.entries
  | .forLoop node init cond step body =>
      (Stmt.forLoop node init cond step body).entry :: (entriesOption init ++ body.entries)
  | .forEach node binder iterable body =>
      (Stmt.forEach node binder iterable body).entry :: body.entries
  | .block node stmts => (Stmt.block node stmts).entry :: entriesAll stmts
  | .function node result name params body =>
      (Stmt.function node result name params body).entry :: entriesAll body
  | s => [s.entry]

/-- The entries of a statement that may be missing. -/
def entriesOption : Option (Stmt α) → List StmtEntry
  | none => []
  | some s => s.entries

/-- The entries of several statements. -/
def entriesAll : List (Stmt α) → List StmtEntry
  | [] => []
  | s :: rest => s.entries ++ entriesAll rest

end

mutual

/-- The entries of the expressions in a statement, at any depth. -/
def exprEntries : Stmt α → List ExprEntry
  | .expr _ e => e.entries
  | .varDecl _ _ init => init.entries
  | .ret _ value => Expr.entriesOption value
  | .ifElse _ cond thenBranch elseBranch =>
      cond.entries ++ thenBranch.exprEntries ++ exprEntriesOption elseBranch
  | .whileLoop _ cond body => cond.entries ++ body.exprEntries
  | .doWhile _ body cond => body.exprEntries ++ cond.entries
  | .forLoop _ init cond step body =>
      exprEntriesOption init ++ Expr.entriesOption cond ++ Expr.entriesOption step
        ++ body.exprEntries
  | .forEach _ _ iterable body => iterable.entries ++ body.exprEntries
  | .brk _ | .cont _ => []
  | .block _ stmts => exprEntriesAll stmts
  | .function _ _ _ _ body => exprEntriesAll body

/-- The entries of the expressions in a statement that may be missing. -/
def exprEntriesOption : Option (Stmt α) → List ExprEntry
  | none => []
  | some s => s.exprEntries

/-- The entries of the expressions in several statements. -/
def exprEntriesAll : List (Stmt α) → List ExprEntry
  | [] => []
  | s :: rest => s.exprEntries ++ exprEntriesAll rest

end

end Stmt

namespace Program

/-- The entries of all expressions. -/
def entries (p : Program α) : List ExprEntry :=
  Stmt.exprEntriesAll p.body ++ Expr.entriesOption p.tail

/-- The entries of all statements. -/
def stmtEntries (p : Program α) : List StmtEntry :=
  Stmt.entriesAll p.body

/-- The numbers of all expressions. -/
def numbers (p : Program α) : List Nat :=
  ExprEntry.numbers p.entries

/-- The numbers of expressions that are used, once for each use: as a part of another
expression, in a statement, or at the end of the formula. -/
def uses (p : Program α) : List Nat :=
  ExprEntry.parts p.entries ++ StmtEntry.exprs p.stmtEntries ++ (p.tail.map Expr.number).toList

end Program

/-! ## Numbers of entries -/

namespace Expr

mutual

theorem length_inner : ∀ e : Expr α, e.inner.length + 1 = e.size
  | .ident _ _ | .constant _ _ | .typeLiteral _ _ => rfl
  | .unary _ _ operand => congrArg Nat.succ (length_inner operand)
  | .binary _ _ left right | .index _ left right => by
      have left' := length_inner left
      have right' := length_inner right
      simp only [inner, size, List.length_append, List.length_cons]
      omega
  | .ternary _ cond thenBranch elseBranch => by
      have cond' := length_inner cond
      have then' := length_inner thenBranch
      have else' := length_inner elseBranch
      simp only [inner, size, List.length_append, List.length_cons]
      omega
  | .call _ callee args => by
      have callee' := length_inner callee
      have args' := length_entriesAll args
      simp only [inner, size, List.length_append, List.length_cons]
      omega
  | .array _ items => congrArg Nat.succ (length_entriesAll items)

theorem length_entriesAll : ∀ es : List (Expr α), (entriesAll es).length = sizeAll es
  | [] => rfl
  | e :: rest => by
      have first := length_inner e
      have rest' := length_entriesAll rest
      simp only [entriesAll, sizeAll, List.length_append, List.length_cons]
      omega

end

theorem length_entries (e : Expr α) : e.entries.length = e.size :=
  length_inner e

theorem length_entriesOption : ∀ e : Option (Expr α),
    (entriesOption e).length = (e.map size).getD 0
  | none => rfl
  | some e => length_entries e

end Expr

namespace Stmt

mutual

theorem length_exprEntries : ∀ s : Stmt α, s.exprEntries.length = s.exprSize
  | .expr _ e => Expr.length_entries e
  | .varDecl _ _ init => Expr.length_entries init
  | .ret _ value => Expr.length_entriesOption value
  | .ifElse _ cond thenBranch elseBranch => by
      simp [exprEntries, exprSize, Expr.length_entries, length_exprEntries thenBranch,
        length_exprEntriesOption elseBranch, Nat.add_assoc]
  | .whileLoop _ cond body | .doWhile _ body cond | .forEach _ _ cond body => by
      simp [exprEntries, exprSize, Expr.length_entries, length_exprEntries body]
  | .forLoop _ init cond step body => by
      simp [exprEntries, exprSize, Expr.length_entriesOption, length_exprEntriesOption init,
        length_exprEntries body, Nat.add_assoc]
  | .brk _ | .cont _ => rfl
  | .block _ stmts | .function _ _ _ _ stmts => length_exprEntriesAll stmts

theorem length_exprEntriesOption : ∀ s : Option (Stmt α),
    (exprEntriesOption s).length = exprSizeOption s
  | none => rfl
  | some s => length_exprEntries s

theorem length_exprEntriesAll : ∀ stmts : List (Stmt α),
    (exprEntriesAll stmts).length = exprSizeAll stmts
  | [] => rfl
  | s :: rest => by
      simp [exprEntriesAll, exprSizeAll, length_exprEntries s, length_exprEntriesAll rest]

end

end Stmt

theorem Program.length_entries (p : Program α) : p.entries.length = p.exprSize := by
  simp [entries, exprSize, Stmt.length_exprEntriesAll, Expr.length_entriesOption]

/-! ## Uses of numbers -/

namespace Expr

mutual

/-- Below the root, the numbers that are named are those that there are. -/
theorem count_parts (number : Nat) : ∀ e : Expr α,
    (ExprEntry.parts e.entries).count number = (ExprEntry.numbers e.inner).count number
  | .ident _ _ | .constant _ _ | .typeLiteral _ _ => rfl
  | .unary _ _ operand => by
      have operand' := count_parts number operand
      simp [entries, entry, form, ExprForm.parts, inner, List.count_cons] at operand' ⊢
      omega
  | .binary _ _ left right | .index _ left right => by
      have left' := count_parts number left
      have right' := count_parts number right
      simp [entries, entry, form, ExprForm.parts, inner, List.count_cons] at left' right' ⊢
      omega
  | .ternary _ cond thenBranch elseBranch => by
      have cond' := count_parts number cond
      have then' := count_parts number thenBranch
      have else' := count_parts number elseBranch
      simp [entries, entry, form, ExprForm.parts, inner, List.count_cons] at cond' then' else' ⊢
      omega
  | .call _ callee args => by
      have callee' := count_parts number callee
      have args' := count_parts_all number args
      simp [entries, entry, form, ExprForm.parts, inner, List.count_cons] at callee' args' ⊢
      omega
  | .array _ items => by
      simpa [entries, entry, form, ExprForm.parts, inner] using count_parts_all number items

theorem count_parts_all (number : Nat) : ∀ es : List (Expr α),
    (es.map Expr.number).count number + (ExprEntry.parts (entriesAll es)).count number
      = (ExprEntry.numbers (entriesAll es)).count number
  | [] => rfl
  | e :: rest => by
      have first := count_parts number e
      have rest' := count_parts_all number rest
      simp [entries, entriesAll, List.count_cons, entry] at first rest' ⊢
      omega

end

/-- An expression is used once more than its parts are. -/
theorem count_entries (number : Nat) (e : Expr α) :
    [e.number].count number + (ExprEntry.parts e.entries).count number
      = (ExprEntry.numbers e.entries).count number := by
  have inner := count_parts number e
  rw [inner, entries, ExprEntry.numbers_cons]
  simp only [List.count_cons, List.count_nil, entry]
  omega

theorem count_entries_option (number : Nat) : ∀ e : Option (Expr α),
    (e.map Expr.number).toList.count number + (ExprEntry.parts (entriesOption e)).count number
      = (ExprEntry.numbers (entriesOption e)).count number
  | none => rfl
  | some e => count_entries number e

end Expr

namespace Stmt

mutual

/-- The numbers that are named in a statement are those of its expressions. -/
theorem count_uses (number : Nat) : ∀ s : Stmt α,
    (StmtEntry.exprs s.entries).count number + (ExprEntry.parts s.exprEntries).count number
      = (ExprEntry.numbers s.exprEntries).count number
  | .expr _ e => Expr.count_entries number e
  | .varDecl _ _ init => Expr.count_entries number init
  | .ret _ value => by
      simpa [entries, exprEntries, entry, form, StmtForm.exprs]
        using Expr.count_entries_option number value
  | .ifElse _ cond thenBranch elseBranch => by
      have cond' := Expr.count_entries number cond
      have then' := count_uses number thenBranch
      have else' := count_uses_option number elseBranch
      simp [entries, exprEntries, entry, form, StmtForm.exprs, List.count_cons] at cond' ⊢
      omega
  | .whileLoop _ cond body | .doWhile _ body cond | .forEach _ _ cond body => by
      have cond' := Expr.count_entries number cond
      have body' := count_uses number body
      simp [entries, exprEntries, entry, form, StmtForm.exprs, List.count_cons] at cond' ⊢
      omega
  | .forLoop _ init cond step body => by
      have init' := count_uses_option number init
      have cond' := Expr.count_entries_option number cond
      have step' := Expr.count_entries_option number step
      have body' := count_uses number body
      simp [entries, exprEntries, entry, form, StmtForm.exprs] at cond' step' ⊢
      omega
  | .brk _ | .cont _ => rfl
  | .block _ stmts | .function _ _ _ _ stmts => by
      simpa [entries, exprEntries, entry, form, StmtForm.exprs] using count_uses_all number stmts

theorem count_uses_option (number : Nat) : ∀ s : Option (Stmt α),
    (StmtEntry.exprs (entriesOption s)).count number
        + (ExprEntry.parts (exprEntriesOption s)).count number
      = (ExprEntry.numbers (exprEntriesOption s)).count number
  | none => rfl
  | some s => count_uses number s

theorem count_uses_all (number : Nat) : ∀ stmts : List (Stmt α),
    (StmtEntry.exprs (entriesAll stmts)).count number
        + (ExprEntry.parts (exprEntriesAll stmts)).count number
      = (ExprEntry.numbers (exprEntriesAll stmts)).count number
  | [] => rfl
  | s :: rest => by
      have first := count_uses number s
      have rest' := count_uses_all number rest
      simp [entriesAll, exprEntriesAll]
      omega

end

end Stmt

/-- In a tree every expression is used exactly once. -/
theorem Program.uses_perm_numbers (p : Program α) : p.uses.Perm p.numbers := by
  rw [List.perm_iff_count]
  intro number
  have body := Stmt.count_uses_all number p.body
  have tail := Expr.count_entries_option number p.tail
  simp [uses, numbers, entries, stmtEntries] at tail ⊢
  omega

/-!
## Entries in the order of completion

An expression is complete when its parts are, and the type of a cast is read before the operand.
Listed in the order in which they are completed (`Program.completed`), the entries of a tree are
the same as before, in another order (`Program.completed_perm`).
-/

namespace Expr

mutual

/-- The entries of an expression, each behind those of its parts. -/
def completed : Expr α → List ExprEntry
  | .ident node name => [(Expr.ident node name).entry]
  | .constant node value => [(Expr.constant node value).entry]
  | .typeLiteral node type => [(Expr.typeLiteral node type).entry]
  | .unary node op operand => operand.completed ++ [(Expr.unary node op operand).entry]
  | .binary node .typeCast left right =>
      right.completed ++ left.completed ++ [(Expr.binary node .typeCast left right).entry]
  | .binary node op left right =>
      left.completed ++ right.completed ++ [(Expr.binary node op left right).entry]
  | .ternary node cond thenBranch elseBranch =>
      cond.completed ++ thenBranch.completed ++ elseBranch.completed
        ++ [(Expr.ternary node cond thenBranch elseBranch).entry]
  | .call node callee args =>
      callee.completed ++ completedAll args ++ [(Expr.call node callee args).entry]
  | .array node items => completedAll items ++ [(Expr.array node items).entry]
  | .index node receiver subscript =>
      receiver.completed ++ subscript.completed ++ [(Expr.index node receiver subscript).entry]

/-- The entries of several expressions. -/
def completedAll : List (Expr α) → List ExprEntry
  | [] => []
  | e :: rest => e.completed ++ completedAll rest

end

/-- The entries of an expression that may be missing. -/
def completedOption (e : Option (Expr α)) : List ExprEntry :=
  (e.map completed).getD []

theorem completed_isInfix (node : Node α) {op : Operator} (left right : Expr α)
    (isInfix : op ≠ .typeCast) : (Expr.binary node op left right).completed =
      left.completed ++ right.completed ++ [(Expr.binary node op left right).entry] := by
  rw [completed]
  exact isInfix

end Expr

namespace Stmt

mutual

/-- The entries of the expressions in a statement. -/
def completed : Stmt α → List ExprEntry
  | .expr _ e => e.completed
  | .varDecl _ _ init => init.completed
  | .ret _ value => Expr.completedOption value
  | .ifElse _ cond thenBranch elseBranch =>
      cond.completed ++ thenBranch.completed ++ completedOption elseBranch
  | .whileLoop _ cond body => cond.completed ++ body.completed
  | .doWhile _ body cond => body.completed ++ cond.completed
  | .forLoop _ init cond step body =>
      completedOption init ++ Expr.completedOption cond ++ Expr.completedOption step
        ++ body.completed
  | .forEach _ _ iterable body => iterable.completed ++ body.completed
  | .brk _ | .cont _ => []
  | .block _ stmts => completedAll stmts
  | .function _ _ _ _ body => completedAll body

/-- The entries of the expressions in a statement that may be missing. -/
def completedOption : Option (Stmt α) → List ExprEntry
  | none => []
  | some s => s.completed

/-- The entries of the expressions in several statements. -/
def completedAll : List (Stmt α) → List ExprEntry
  | [] => []
  | s :: rest => s.completed ++ completedAll rest

end

end Stmt

/-- The entries of all expressions, each behind those of its parts. -/
def Program.completed (p : Program α) : List ExprEntry :=
  Stmt.completedAll p.body ++ Expr.completedOption p.tail

/-! ### The same entries -/

namespace Expr

theorem perm_root {parts inner : List ExprEntry} (e : Expr α) (perm : parts.Perm inner) :
    (parts ++ [e.entry]).Perm (e.entry :: inner) :=
  (List.perm_append_singleton _ _).trans (perm.cons _)

mutual

theorem completed_perm : ∀ e : Expr α, e.completed.Perm e.entries
  | .ident _ _ | .constant _ _ | .typeLiteral _ _ => .refl _
  | .unary _ _ operand => perm_root _ (completed_perm operand)
  | .binary _ op left right => by
      by_cases cast : op = .typeCast
      · subst cast
        exact perm_root _
          (((completed_perm right).append (completed_perm left)).trans List.perm_append_comm)
      · rw [completed_isInfix _ _ _ cast]
        exact perm_root _ ((completed_perm left).append (completed_perm right))
  | .ternary _ cond thenBranch elseBranch =>
      perm_root _ (((completed_perm cond).append (completed_perm thenBranch)).append
        (completed_perm elseBranch))
  | .call _ callee args => perm_root _ ((completed_perm callee).append (completedAll_perm args))
  | .array _ items => perm_root _ (completedAll_perm items)
  | .index _ receiver subscript =>
      perm_root _ ((completed_perm receiver).append (completed_perm subscript))

theorem completedAll_perm : ∀ es : List (Expr α), (completedAll es).Perm (entriesAll es)
  | [] => .refl _
  | e :: rest => (completed_perm e).append (completedAll_perm rest)

end

theorem completedOption_perm : ∀ e : Option (Expr α),
    (completedOption e).Perm (entriesOption e)
  | none => .refl _
  | some e => completed_perm e

end Expr

namespace Stmt

mutual

theorem completed_perm : ∀ s : Stmt α, s.completed.Perm s.exprEntries
  | .expr _ e | .varDecl _ _ e => e.completed_perm
  | .ret _ value => Expr.completedOption_perm value
  | .ifElse _ cond thenBranch elseBranch =>
      (cond.completed_perm.append (completed_perm thenBranch)).append
        (completedOption_perm elseBranch)
  | .whileLoop _ cond body | .forEach _ _ cond body =>
      cond.completed_perm.append (completed_perm body)
  | .doWhile _ body cond => (completed_perm body).append cond.completed_perm
  | .forLoop _ init cond step body =>
      (((completedOption_perm init).append (Expr.completedOption_perm cond)).append
        (Expr.completedOption_perm step)).append (completed_perm body)
  | .brk _ | .cont _ => .refl _
  | .block _ stmts | .function _ _ _ _ stmts => completedAll_perm stmts

theorem completedOption_perm : ∀ s : Option (Stmt α),
    (completedOption s).Perm (exprEntriesOption s)
  | none => .refl _
  | some s => completed_perm s

theorem completedAll_perm : ∀ stmts : List (Stmt α),
    (completedAll stmts).Perm (exprEntriesAll stmts)
  | [] => .refl _
  | s :: rest => (completed_perm s).append (completedAll_perm rest)

end

end Stmt

theorem Program.completed_perm (p : Program α) : p.completed.Perm p.entries :=
  (Stmt.completedAll_perm p.body).append (Expr.completedOption_perm p.tail)

/-! ### Numbers in turn -/

namespace ExprEntry

/-- The numbers of the entries are those from `first` on, one after the other. -/
def InTurn (first : Nat) (entries : List ExprEntry) : Prop :=
  numbers entries = List.range' first entries.length

theorem inTurn_nil (first : Nat) : InTurn first [] :=
  rfl

theorem inTurn_singleton {first : Nat} {entry : ExprEntry} :
    InTurn first [entry] ↔ entry.number = first := by
  simp [InTurn]

theorem inTurn_append {first : Nat} {entries more : List ExprEntry} :
    InTurn first (entries ++ more) ↔
      InTurn first entries ∧ InTurn (first + entries.length) more := by
  have length : (numbers entries).length = (List.range' first entries.length).length := by
    rw [numbers, List.length_map, List.length_range']
  rw [InTurn, numbers_append, List.length_append, ← List.range'_append_1]
  constructor
  · exact fun whole => List.append_inj whole length
  · rintro ⟨first', more'⟩
    rw [first', more']

end ExprEntry

end Formulae
