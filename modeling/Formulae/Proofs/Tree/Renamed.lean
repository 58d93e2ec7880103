import Formulae.Proofs.Tree.Readable

/-!
# Renamed trees

Renaming to a name, and requoting to any text, keep a tree one that source can
give (`Program.readable_edit`).
-/

namespace Formulae

variable {α : Type} {floats : Float → Prop}

theorem Renaming.isName_apply {r : Renaming} (new : Lexer.IsName r.new) {bound : List String}
    {role : Role} {name : String} (h : Lexer.IsName name) :
    Lexer.IsName (r.apply bound role name) := by
  unfold Renaming.apply
  split
  · exact new
  · exact h

namespace Expr

theorem isTarget_rename {e : Expr α} (h : e.IsTarget) (r : Renaming) (bound : List String)
    (role : Role) : (e.rename r bound role).IsTarget := by
  cases e <;> simp_all [IsTarget, rename]

theorem isTarget_requote {e : Expr α} (h : e.IsTarget) (old new : String) :
    (e.requote old new).IsTarget := by
  cases e <;> simp_all [IsTarget, requote]

mutual

theorem readable_rename {r : Renaming} (new : Lexer.IsName r.new) (bound : List String) :
    (role : Role) → (e : Expr α) → e.Readable floats → (e.rename r bound role).Readable floats
  | _, .ident _ _, h => Renaming.isName_apply new h
  | _, .constant _ _, h | _, .typeLiteral _ _, h => h
  | _, .unary _ _ operand, h => ⟨h.1, readable_rename new bound _ operand h.2⟩
  | _, .binary node op left right, h => by
      rcases readable_binary h with ⟨rfl, left', right'⟩ | ⟨-, infixOp, left', right'⟩
      · exact readable_binary_of_cast (readable_rename new bound _ left left')
          (isTarget_rename right' _ _ _)
      · exact readable_binary_of_infix infixOp (readable_rename new bound _ left left')
          (readable_rename new bound _ right right')
  | _, .ternary _ cond thenBranch elseBranch, h =>
      ⟨readable_rename new bound _ cond h.1, readable_rename new bound _ thenBranch h.2.1,
        readable_rename new bound _ elseBranch h.2.2⟩
  | _, .call _ callee args, h =>
      ⟨readable_rename new bound _ callee h.1, readableAll_rename new bound args h.2⟩
  | _, .array _ items, h => readableAll_rename new bound items h
  | _, .index _ receiver subscript, h =>
      ⟨readable_rename new bound _ receiver h.1, readable_rename new bound _ subscript h.2⟩

theorem readableAll_rename {r : Renaming} (new : Lexer.IsName r.new) (bound : List String) :
    (items : List (Expr α)) → ReadableAll floats items →
      ReadableAll floats (renameAll r bound items)
  | [], _ => trivial
  | e :: rest, h => ⟨readable_rename new bound _ e h.1, readableAll_rename new bound rest h.2⟩

end

theorem readable_requoteConstant {value : Constant} (h : value.Readable floats)
    (old new : String) : (requoteConstant old new value).Readable floats := by
  unfold requoteConstant
  split
  · trivial
  · exact h

mutual

theorem readable_requote (old new : String) :
    (e : Expr α) → e.Readable floats → (e.requote old new).Readable floats
  | .ident _ _, h | .typeLiteral _ _, h => h
  | .constant _ _, h => readable_requoteConstant h old new
  | .unary _ _ operand, h => ⟨h.1, readable_requote old new operand h.2⟩
  | .binary node op left right, h => by
      rcases readable_binary h with ⟨rfl, left', right'⟩ | ⟨-, infixOp, left', right'⟩
      · exact readable_binary_of_cast (readable_requote old new left left')
          (isTarget_requote right' _ _)
      · exact readable_binary_of_infix infixOp (readable_requote old new left left')
          (readable_requote old new right right')
  | .ternary _ cond thenBranch elseBranch, h =>
      ⟨readable_requote old new cond h.1, readable_requote old new thenBranch h.2.1,
        readable_requote old new elseBranch h.2.2⟩
  | .call _ callee args, h =>
      ⟨readable_requote old new callee h.1, readableAll_requote old new args h.2⟩
  | .array _ items, h => readableAll_requote old new items h
  | .index _ receiver subscript, h =>
      ⟨readable_requote old new receiver h.1, readable_requote old new subscript h.2⟩

theorem readableAll_requote (old new : String) :
    (items : List (Expr α)) → ReadableAll floats items →
      ReadableAll floats (requoteAll old new items)
  | [], _ => trivial
  | e :: rest, h => ⟨readable_requote old new e h.1, readableAll_requote old new rest h.2⟩

end

end Expr

namespace Stmt

theorem readable_map_option {f : Expr α → Expr α}
    (keeps : ∀ e : Expr α, e.Readable floats → (f e).Readable floats) {value : Option (Expr α)}
    (h : ∀ e ∈ value, e.Readable floats) : ∀ e ∈ value.map f, e.Readable floats := by
  cases value with
  | none => simp
  | some e => simpa using keeps e (h e rfl)

mutual

theorem opensElse_rename (r : Renaming) (bound : List String) :
    (s : Stmt α) → (s.rename r bound).opensElse = s.opensElse
  | .ifElse _ _ _ elseBranch => opensElseOption_rename r bound elseBranch
  | .whileLoop _ _ body => opensElse_rename r bound body
  | .forLoop _ init _ _ body => opensElse_rename r (declaredOption init ++ bound) body
  | .forEach _ binder _ body => opensElse_rename r (binder.name :: bound) body
  | .expr .. | .varDecl .. | .ret .. | .doWhile .. | .brk .. | .cont .. | .block ..
  | .function .. => rfl

theorem opensElseOption_rename (r : Renaming) (bound : List String) :
    (s : Option (Stmt α)) → opensElseOption (renameOption r bound s) = opensElseOption s
  | none => rfl
  | some s => opensElse_rename r bound s

end

mutual

theorem opensElse_requote (old new : String) :
    (s : Stmt α) → (s.requote old new).opensElse = s.opensElse
  | .ifElse _ _ _ elseBranch => opensElseOption_requote old new elseBranch
  | .whileLoop _ _ body | .forLoop _ _ _ _ body | .forEach _ _ _ body =>
      opensElse_requote old new body
  | .expr .. | .varDecl .. | .ret .. | .doWhile .. | .brk .. | .cont .. | .block ..
  | .function .. => rfl

theorem opensElseOption_requote (old new : String) :
    (s : Option (Stmt α)) → opensElseOption (requoteOption old new s) = opensElseOption s
  | none => rfl
  | some s => opensElse_requote old new s

end

@[simp]
theorem isSome_renameOption (r : Renaming) (bound : List String) (s : Option (Stmt α)) :
    (renameOption r bound s).isSome = s.isSome := by
  cases s <;> rfl

@[simp]
theorem isSome_requoteOption (old new : String) (s : Option (Stmt α)) :
    (requoteOption old new s).isSome = s.isSome := by
  cases s <;> rfl

theorem isHeader_renameOption {r : Renaming} {bound : List String} {init : Option (Stmt α)}
    (h : ∀ s ∈ init, s.isHeader) : ∀ s ∈ renameOption r bound init, s.isHeader := by
  cases init with
  | none => simp [renameOption]
  | some s => cases s <;> simp_all [renameOption, rename, isHeader]

theorem isHeader_requoteOption {old new : String} {init : Option (Stmt α)}
    (h : ∀ s ∈ init, s.isHeader) : ∀ s ∈ requoteOption old new init, s.isHeader := by
  cases init with
  | none => simp [requoteOption]
  | some s => cases s <;> simp_all [requoteOption, requote, isHeader]

mutual

theorem readable_rename {r : Renaming} (new : Lexer.IsName r.new) (bound : List String) :
    (s : Stmt α) → s.Readable floats → (s.rename r bound).Readable floats
  | .expr _ e, h => Expr.readable_rename new bound _ e h
  | .varDecl _ _ init, h => ⟨h.1, Expr.readable_rename new bound _ init h.2⟩
  | .ret _ _, h => readable_map_option (Expr.readable_rename new bound _) h
  | .ifElse _ cond thenBranch elseBranch, h =>
      ⟨Expr.readable_rename new bound _ cond h.1, readable_rename new bound thenBranch h.2.1,
        readableOption_rename new bound elseBranch h.2.2.1, by
          rw [isSome_renameOption, opensElse_rename]
          exact h.2.2.2⟩
  | .whileLoop _ cond body, h =>
      ⟨Expr.readable_rename new bound _ cond h.1, readable_rename new bound body h.2⟩
  | .doWhile _ body cond, h =>
      ⟨readable_rename new bound body h.1, Expr.readable_rename new bound _ cond h.2⟩
  | .forLoop _ init _ _ body, h =>
      ⟨readableOption_rename new bound init h.1, isHeader_renameOption h.2.1,
        readable_map_option (Expr.readable_rename new _ _) h.2.2.1,
        readable_map_option (Expr.readable_rename new _ _) h.2.2.2.1,
        readable_rename new _ body h.2.2.2.2⟩
  | .forEach _ _ iterable body, h =>
      ⟨h.1, Expr.readable_rename new bound _ iterable h.2.1, readable_rename new _ body h.2.2⟩
  | .brk _, h | .cont _, h => h
  | .block _ stmts, h => readableAll_rename new bound stmts h
  | .function _ _ _ _ body, h => ⟨h.1, h.2.1, h.2.2.1, readableAll_rename new _ body h.2.2.2⟩

theorem readableOption_rename {r : Renaming} (new : Lexer.IsName r.new) (bound : List String) :
    (s : Option (Stmt α)) → ReadableOption floats s →
      ReadableOption floats (renameOption r bound s)
  | none, _ => trivial
  | some s, h => readable_rename new bound s h

theorem readableAll_rename {r : Renaming} (new : Lexer.IsName r.new) (bound : List String) :
    (stmts : List (Stmt α)) → ReadableAll floats stmts →
      ReadableAll floats (renameAll r bound stmts)
  | [], _ => trivial
  | s :: rest, h => ⟨readable_rename new bound s h.1, readableAll_rename new _ rest h.2⟩

end

mutual

theorem readable_requote (old new : String) :
    (s : Stmt α) → s.Readable floats → (s.requote old new).Readable floats
  | .expr _ e, h => Expr.readable_requote old new e h
  | .varDecl _ _ init, h => ⟨h.1, Expr.readable_requote old new init h.2⟩
  | .ret _ _, h => readable_map_option (Expr.readable_requote old new) h
  | .ifElse _ cond thenBranch elseBranch, h =>
      ⟨Expr.readable_requote old new cond h.1, readable_requote old new thenBranch h.2.1,
        readableOption_requote old new elseBranch h.2.2.1, by
          rw [isSome_requoteOption, opensElse_requote]
          exact h.2.2.2⟩
  | .whileLoop _ cond body, h =>
      ⟨Expr.readable_requote old new cond h.1, readable_requote old new body h.2⟩
  | .doWhile _ body cond, h =>
      ⟨readable_requote old new body h.1, Expr.readable_requote old new cond h.2⟩
  | .forLoop _ init _ _ body, h =>
      ⟨readableOption_requote old new init h.1, isHeader_requoteOption h.2.1,
        readable_map_option (Expr.readable_requote old new) h.2.2.1,
        readable_map_option (Expr.readable_requote old new) h.2.2.2.1,
        readable_requote old new body h.2.2.2.2⟩
  | .forEach _ _ iterable body, h =>
      ⟨h.1, Expr.readable_requote old new iterable h.2.1, readable_requote old new body h.2.2⟩
  | .brk _, h | .cont _, h => h
  | .block _ stmts, h => readableAll_requote old new stmts h
  | .function _ _ _ _ body, h =>
      ⟨h.1, h.2.1, h.2.2.1, readableAll_requote old new body h.2.2.2⟩

theorem readableOption_requote (old new : String) :
    (s : Option (Stmt α)) → ReadableOption floats s →
      ReadableOption floats (requoteOption old new s)
  | none, _ => trivial
  | some s, h => readable_requote old new s h

theorem readableAll_requote (old new : String) :
    (stmts : List (Stmt α)) → ReadableAll floats stmts →
      ReadableAll floats (requoteAll old new stmts)
  | [], _ => trivial
  | s :: rest, h => ⟨readable_requote old new s h.1, readableAll_requote old new rest h.2⟩

end

end Stmt

/-! ## Edits -/

/-- One change to a program: free uses of a name renamed, or a quoted text
replaced. -/
inductive Edit
  | rename (r : Renaming)
  | requote (old new : String)

/-- The edit brings in no name that reading could not give. -/
def Edit.KeepsNames : Edit → Prop
  | .rename r => Lexer.IsName r.new
  | .requote _ _ => True

namespace Program

/-- The program after an edit. -/
def edit (p : Program α) : Edit → Program α
  | .rename r => (p.rename r).2
  | .requote old new => (p.requote old new).2

theorem readable_edit {p : Program α} (h : p.Readable floats) {change : Edit}
    (keeps : change.KeepsNames) : (p.edit change).Readable floats := by
  cases change with
  | rename r =>
      exact ⟨Stmt.readableAll_rename keeps _ _ h.body,
        Stmt.readable_map_option (Expr.readable_rename keeps _ _) h.tail⟩
  | requote old new =>
      exact ⟨Stmt.readableAll_requote old new _ h.body,
        Stmt.readable_map_option (Expr.readable_requote old new) h.tail⟩

/-- No sequence of edits leads away from the trees that source can give. -/
theorem readable_foldl_edit {p : Program α} (h : p.Readable floats) {changes : List Edit}
    (keep : ∀ change ∈ changes, change.KeepsNames) : (changes.foldl edit p).Readable floats := by
  induction changes generalizing p with
  | nil => exact h
  | cons change changes inductionHypothesis =>
      exact inductionHypothesis (readable_edit h (keep change (by simp)))
        fun other member => keep other (by simp [member])

end Program

end Formulae
