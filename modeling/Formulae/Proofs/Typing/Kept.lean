import Formulae.Proofs.Tree.Entries
import Formulae.Tree.Names
import Formulae.Typing.Program

/-!
# What checking keeps of a tree

A checked tree is the tree that was read, except that string literals may have become
literals of dates and durations, and that expressions may have been wrapped in casts
(`Program.Kept`).  A cast takes over the number of the expression, which moves to a new
number, and its type stands under another new number.  Casts never stand in the place
of a callee.

From this follows what an entry of the tree may become (`Program.Kept.becomes`), that
taking the casts away again gives back the tree that was read
(`Program.Kept.restored`), and that free names and quoted texts stay the same
(`Program.Kept.free`, `Program.Kept.strings`).
-/

namespace Formulae

variable {α : Type}

/-! ## Literals -/

/-- The form is the same, except that a string literal may be read as a date or as a
duration. -/
inductive ExprForm.Rereads : ExprForm → ExprForm → Prop
  | same (form : ExprForm) : Rereads form form
  | date (text : String) : Rereads (.constant (.string text)) (.constant (.date text))
  | duration (text : String) : Rereads (.constant (.string text)) (.constant (.duration text))

/-- The literal as source has it. -/
def Constant.written : Constant → Constant
  | .date text | .duration text => .string text
  | value => value

/-- The literals are the same, except that a string may be read as a date or as a
duration. -/
abbrev Constant.Rereads (before after : Constant) : Prop :=
  (ExprForm.constant before).Rereads (.constant after)

theorem Constant.Rereads.text? {before after : Constant} (rereads : before.Rereads after) :
    after.text? = before.text? := by
  cases rereads <;> rfl

theorem Constant.Rereads.written {before after : Constant} (rereads : before.Rereads after) :
    after.written = before.written := by
  cases rereads <;> rfl

/-! ## Expressions -/

/-- The expression is as `kept` says, or it is wrapped in a cast that has taken over its
number, where it and the type have numbers from `first` on. -/
inductive Fitted (first : Nat) (kept : TypedExpr → Prop) : TypedExpr → Prop
  | kept {e : TypedExpr} (isKept : kept e) : Fitted first kept e
  | cast {e : TypedExpr} {moved literal : Nat} (type literalType : Ty) (written : TypeExpr)
      (isKept : kept e) (movedNew : first ≤ moved) (literalNew : first ≤ literal) :
      Fitted first kept (.binary ⟨e.number, e.span, type⟩ .typeCast (e.withId moved)
        (.typeLiteral ⟨literal, e.span, literalType⟩ written))

namespace Expr

mutual

/-- The checked expression is the expression with types, except that string literals may
be read as dates and durations, and that parts may be wrapped in casts. -/
def Kept (first : Nat) : Expr Unit → TypedExpr → Prop
  | .ident node name, checked => ∃ type, checked = .ident (node.typed type) name
  | .constant node value, checked => ∃ type after,
      value.Rereads after ∧ checked = .constant (node.typed type) after
  | .typeLiteral node written, checked => ∃ type, checked = .typeLiteral (node.typed type) written
  | .unary node op operand, checked => ∃ type x,
      Fitted first (Kept first operand) x ∧ checked = .unary (node.typed type) op x
  | .binary node op left right, checked => ∃ type x y,
      Fitted first (Kept first left) x ∧ Fitted first (Kept first right) y ∧
        checked = .binary (node.typed type) op x y
  | .ternary node cond thenBranch elseBranch, checked => ∃ type c x y,
      Fitted first (Kept first cond) c ∧ Fitted first (Kept first thenBranch) x ∧
        Fitted first (Kept first elseBranch) y ∧ checked = .ternary (node.typed type) c x y
  | .call node callee args, checked => ∃ type f xs,
      Kept first callee f ∧ FittedAll first args xs ∧ checked = .call (node.typed type) f xs
  | .array node items, checked => ∃ type xs,
      FittedAll first items xs ∧ checked = .array (node.typed type) xs
  | .index node receiver subscript, checked => ∃ type x y,
      Fitted first (Kept first receiver) x ∧ Fitted first (Kept first subscript) y ∧
        checked = .index (node.typed type) x y

/-- The expressions are kept or wrapped in casts, one by one. -/
def FittedAll (first : Nat) : List (Expr Unit) → List TypedExpr → Prop
  | [], checked => checked = []
  | e :: rest, checked => ∃ x xs,
      Fitted first (Kept first e) x ∧ FittedAll first rest xs ∧ checked = x :: xs

end

/-- The expression is kept or wrapped in a cast. -/
abbrev Fits (first : Nat) (e : Expr Unit) (checked : TypedExpr) : Prop :=
  Fitted first (e.Kept first) checked

/-- The expression that may be missing is kept or wrapped in a cast. -/
def FitsOption (first : Nat) : Option (Expr Unit) → Option TypedExpr → Prop
  | none, checked => checked = none
  | some e, checked => ∃ x, e.Fits first x ∧ checked = some x

end Expr

/-! ## Statements -/

namespace Stmt

mutual

/-- The checked statement is the statement, with its expressions kept or wrapped in
casts. -/
def Kept (first : Nat) : Stmt Unit → TypedStmt → Prop
  | .expr node e, checked => ∃ x, e.Fits first x ∧ checked = .expr node x
  | .varDecl node binder init, checked => ∃ x,
      init.Fits first x ∧ checked = .varDecl node binder x
  | .ret node value, checked => ∃ x, Expr.FitsOption first value x ∧ checked = .ret node x
  | .ifElse node cond thenBranch elseBranch, checked => ∃ c x y,
      cond.Fits first c ∧ Kept first thenBranch x ∧ KeptOption first elseBranch y ∧
        checked = .ifElse node c x y
  | .whileLoop node cond body, checked => ∃ c x,
      cond.Fits first c ∧ Kept first body x ∧ checked = .whileLoop node c x
  | .doWhile node body cond, checked => ∃ c x,
      cond.Fits first c ∧ Kept first body x ∧ checked = .doWhile node x c
  | .forLoop node init cond step body, checked => ∃ i c n x,
      KeptOption first init i ∧ Expr.FitsOption first cond c ∧ Expr.FitsOption first step n ∧
        Kept first body x ∧ checked = .forLoop node i c n x
  | .forEach node binder iterable body, checked => ∃ xs x,
      iterable.Fits first xs ∧ Kept first body x ∧ checked = .forEach node binder xs x
  | .brk node, checked => checked = .brk node
  | .cont node, checked => checked = .cont node
  | .block node stmts, checked => ∃ xs, KeptAll first stmts xs ∧ checked = .block node xs
  | .function node result name params body, checked => ∃ xs,
      KeptAll first body xs ∧ checked = .function node result name params xs

/-- The statement that may be missing is kept. -/
def KeptOption (first : Nat) : Option (Stmt Unit) → Option TypedStmt → Prop
  | none, checked => checked = none
  | some s, checked => ∃ x, Kept first s x ∧ checked = some x

/-- The statements are kept, one by one. -/
def KeptAll (first : Nat) : List (Stmt Unit) → List TypedStmt → Prop
  | [], checked => checked = []
  | s :: rest, checked => ∃ x xs,
      Kept first s x ∧ KeptAll first rest xs ∧ checked = x :: xs

end

end Stmt

/-- The checked formula is the formula that was read, except for string literals read as
dates and durations and for casts with numbers from `first` on. -/
structure Program.Kept (first : Nat) (p : Program Unit) (q : TypedProgram) : Prop where
  body : Stmt.KeptAll first p.body q.body
  tail : Expr.FitsOption first p.tail q.tail
  span : q.span = p.span

/-! ## Roots -/

namespace Expr

variable {first : Nat} {e : Expr Unit} {checked : TypedExpr}

theorem Kept.node (kept : e.Kept first checked) :
    checked.number = e.number ∧ checked.span = e.span := by
  cases e <;> simp only [Kept] at kept
  case ident => rcases kept with ⟨_, rfl⟩; exact ⟨rfl, rfl⟩
  case constant => rcases kept with ⟨_, _, _, rfl⟩; exact ⟨rfl, rfl⟩
  case typeLiteral => rcases kept with ⟨_, rfl⟩; exact ⟨rfl, rfl⟩
  case unary => rcases kept with ⟨_, _, _, rfl⟩; exact ⟨rfl, rfl⟩
  case binary => rcases kept with ⟨_, _, _, _, _, rfl⟩; exact ⟨rfl, rfl⟩
  case ternary => rcases kept with ⟨_, _, _, _, _, _, _, rfl⟩; exact ⟨rfl, rfl⟩
  case call => rcases kept with ⟨_, _, _, _, _, rfl⟩; exact ⟨rfl, rfl⟩
  case array => rcases kept with ⟨_, _, _, rfl⟩; exact ⟨rfl, rfl⟩
  case index => rcases kept with ⟨_, _, _, _, _, rfl⟩; exact ⟨rfl, rfl⟩

theorem Fits.node (fits : e.Fits first checked) :
    checked.number = e.number ∧ checked.span = e.span := by
  cases fits with
  | kept isKept => exact isKept.node
  | cast _ _ _ isKept => exact isKept.node

theorem FittedAll.numbers {es : List (Expr Unit)} {checked : List TypedExpr}
    (fits : FittedAll first es checked) : checked.map number = es.map number := by
  induction es generalizing checked with
  | nil =>
      cases fits
      rfl
  | cons e rest inductionHypothesis =>
      rcases fits with ⟨x, xs, x', xs', rfl⟩
      rw [List.map_cons, List.map_cons, (Fits.node x').1, inductionHypothesis xs']

theorem FitsOption.number {e : Option (Expr Unit)} {checked : Option TypedExpr}
    (fits : FitsOption first e checked) : checked.map Expr.number = e.map Expr.number := by
  cases e with
  | none => rw [fits]; rfl
  | some e =>
      rcases fits with ⟨x, x', rfl⟩
      exact congrArg some (Fits.node x').1

/-- The root has the form of the expression that was read, or that of a literal read
from its string. -/
theorem Kept.form (kept : e.Kept first checked) : e.form.Rereads checked.form := by
  cases e <;> simp only [Kept] at kept
  case ident => rcases kept with ⟨_, rfl⟩; exact .same _
  case constant => rcases kept with ⟨_, _, rereads, rfl⟩; exact rereads
  case typeLiteral => rcases kept with ⟨_, rfl⟩; exact .same _
  case unary =>
      rcases kept with ⟨_, _, x, rfl⟩
      simp only [Expr.form, (Fits.node x).1]
      exact .same _
  case binary =>
      rcases kept with ⟨_, _, _, x, y, rfl⟩
      simp only [Expr.form, (Fits.node x).1, (Fits.node y).1]
      exact .same _
  case ternary =>
      rcases kept with ⟨_, _, _, _, c, x, y, rfl⟩
      simp only [Expr.form, (Fits.node c).1, (Fits.node x).1, (Fits.node y).1]
      exact .same _
  case call =>
      rcases kept with ⟨_, _, _, f, xs, rfl⟩
      simp only [Expr.form, f.node.1, xs.numbers]
      exact .same _
  case array =>
      rcases kept with ⟨_, _, xs, rfl⟩
      simp only [Expr.form, xs.numbers]
      exact .same _
  case index =>
      rcases kept with ⟨_, _, _, x, y, rfl⟩
      simp only [Expr.form, (Fits.node x).1, (Fits.node y).1]
      exact .same _

end Expr

/-! ## Entries -/

/-- What an entry becomes when numbers from `first` on are new and `entries` are those of
the checked tree.  Under its number stands an entry with the same span and the same form,
up to a literal read from its string, or a cast of such an entry under a new number to
the type under another new number. -/
inductive ExprEntry.Becomes (first : Nat) (entries : List ExprEntry) (entry : ExprEntry) : Prop
  | kept {form : ExprForm} (rereads : entry.form.Rereads form)
      (found : ⟨entry.number, entry.span, form⟩ ∈ entries)
  | cast {form : ExprForm} {moved literal : Nat} {written : TypeExpr}
      (rereads : entry.form.Rereads form) (movedNew : first ≤ moved) (literalNew : first ≤ literal)
      (found : ⟨entry.number, entry.span, .binary .typeCast moved literal⟩ ∈ entries)
      (operand : ⟨moved, entry.span, form⟩ ∈ entries)
      (type : ⟨literal, entry.span, .typeLiteral written⟩ ∈ entries)

theorem ExprEntry.Becomes.mono {first : Nat} {entries more : List ExprEntry} {entry : ExprEntry}
    (becomes : entry.Becomes first entries) (subset : entries ⊆ more) :
    entry.Becomes first more := by
  cases becomes with
  | kept rereads found => exact .kept rereads (subset found)
  | cast rereads movedNew literalNew found operand type =>
      exact .cast rereads movedNew literalNew (subset found) (subset operand) (subset type)

/-- Every one of these entries becomes one of those. -/
def ExprEntry.BecomeAll (first : Nat) (before after : List ExprEntry) : Prop :=
  ∀ entry ∈ before, entry.Becomes first after

namespace ExprEntry

variable {first : Nat} {before before' after after' : List ExprEntry}

theorem becomeAll_nil : BecomeAll first [] after :=
  nofun

theorem BecomeAll.append (one : BecomeAll first before after)
    (two : BecomeAll first before' after') :
    BecomeAll first (before ++ before') (after ++ after') := by
  intro entry member
  rcases List.mem_append.mp member with inOne | inTwo
  · exact (one entry inOne).mono (List.subset_append_left _ _)
  · exact (two entry inTwo).mono (List.subset_append_right _ _)

end ExprEntry

namespace Expr

theorem number_withId (id : Nat) (e : Expr α) : (e.withId id).number = id := by
  cases e <;> rfl

theorem entries_cast (x : TypedExpr) (moved literal : Nat) (type literalType : Ty)
    (written : TypeExpr) :
    (binary ⟨x.number, x.span, type⟩ .typeCast (x.withId moved)
        (typeLiteral ⟨literal, x.span, literalType⟩ written)).entries
      = ⟨x.number, x.span, .binary .typeCast moved literal⟩ :: ⟨moved, x.span, x.form⟩
        :: (x.inner ++ [⟨literal, x.span, .typeLiteral written⟩]) := by
  cases x <;> rfl

variable {first : Nat} {e : Expr Unit} {checked : TypedExpr}

theorem Kept.entry (kept : e.Kept first checked) :
    checked.entry = ⟨e.number, e.span, checked.form⟩ := by
  rw [Expr.entry, kept.node.1, kept.node.2]

/-- An expression in its place becomes what is below it and a root. -/
theorem Fits.becomeAll (fits : e.Fits first checked)
    (below : ∀ {x : TypedExpr}, e.Kept first x → ExprEntry.BecomeAll first e.inner x.inner) :
    ExprEntry.BecomeAll first e.entries checked.entries := by
  cases fits with
  | kept isKept =>
      refine List.forall_mem_cons.mpr ⟨.kept isKept.form ?_, fun old member =>
        (below isKept old member).mono (List.subset_cons_of_subset _ fun _ h => h)⟩
      have root : (⟨e.number, e.span, checked.form⟩ : ExprEntry) = checked.entry :=
        isKept.entry.symm
      exact List.mem_cons.mpr (.inl root)
  | @cast x moved literal type literalType written isKept movedNew literalNew =>
      rw [entries_cast, isKept.node.1, isKept.node.2]
      have target : (⟨literal, e.span, .typeLiteral written⟩ : ExprEntry)
          ∈ x.inner ++ [⟨literal, e.span, .typeLiteral written⟩] :=
        List.mem_append_right _ (List.mem_singleton_self _)
      refine List.forall_mem_cons.mpr ⟨?_, fun old member => (below isKept old member).mono ?_⟩
      · exact .cast isKept.form movedNew literalNew List.mem_cons_self
          (List.mem_cons_of_mem _ List.mem_cons_self)
          (List.mem_cons_of_mem _ (List.mem_cons_of_mem _ target))
      · exact List.subset_cons_of_subset _
          (List.subset_cons_of_subset _ (List.subset_append_left _ _))

mutual

theorem Kept.becomeAll {first : Nat} : ∀ {e : Expr Unit} {checked : TypedExpr},
    e.Kept first checked → ExprEntry.BecomeAll first e.inner checked.inner
  | .ident _ _, _, ⟨_, equal⟩ | .typeLiteral _ _, _, ⟨_, equal⟩
  | .constant _ _, _, ⟨_, _, _, equal⟩ => equal ▸ ExprEntry.becomeAll_nil
  | .unary _ _ _, _, ⟨_, _, x, equal⟩ => equal ▸ Fits.becomeAll x Kept.becomeAll
  | .binary _ _ _ _, _, ⟨_, _, _, x, y, equal⟩ | .index _ _ _, _, ⟨_, _, _, x, y, equal⟩ =>
      equal ▸ (Fits.becomeAll x Kept.becomeAll).append (Fits.becomeAll y Kept.becomeAll)
  | .ternary _ _ _ _, _, ⟨_, _, _, _, c, x, y, equal⟩ =>
      equal ▸ ((Fits.becomeAll c Kept.becomeAll).append (Fits.becomeAll x Kept.becomeAll)).append
        (Fits.becomeAll y Kept.becomeAll)
  | .call _ _ _, _, ⟨_, _, _, f, xs, equal⟩ =>
      equal ▸ (Fits.becomeAll (.kept f) Kept.becomeAll).append xs.becomeAll
  | .array _ _, _, ⟨_, _, xs, equal⟩ => equal ▸ xs.becomeAll

theorem FittedAll.becomeAll {first : Nat} : ∀ {es : List (Expr Unit)} {checked : List TypedExpr},
    FittedAll first es checked → ExprEntry.BecomeAll first (entriesAll es) (entriesAll checked)
  | [], _, _ => ExprEntry.becomeAll_nil
  | _ :: _, _, ⟨_, _, x, xs, equal⟩ =>
      equal ▸ (Fits.becomeAll x Kept.becomeAll).append xs.becomeAll

end

theorem Fits.becomes (fits : e.Fits first checked) :
    ExprEntry.BecomeAll first e.entries checked.entries :=
  fits.becomeAll Kept.becomeAll

theorem FitsOption.becomes : ∀ {e : Option (Expr Unit)} {checked : Option TypedExpr},
    FitsOption first e checked → ExprEntry.BecomeAll first (entriesOption e) (entriesOption checked)
  | none, _, _ => ExprEntry.becomeAll_nil
  | some _, _, ⟨_, x, equal⟩ => equal ▸ x.becomes

end Expr

namespace Stmt

variable {first : Nat}

theorem Kept.node {stmt : Stmt Unit} {checked : TypedStmt} (kept : stmt.Kept first checked) :
    checked.node = stmt.node := by
  cases stmt <;> simp only [Kept] at kept
  case brk | cont => rw [kept]; rfl
  case expr | varDecl | ret | block | function => rcases kept with ⟨_, _, rfl⟩; rfl
  case whileLoop | doWhile | forEach => rcases kept with ⟨_, _, _, _, rfl⟩; rfl
  case ifElse => rcases kept with ⟨_, _, _, _, _, _, rfl⟩; rfl
  case forLoop => rcases kept with ⟨_, _, _, _, _, _, _, _, rfl⟩; rfl

theorem Kept.number {stmt : Stmt Unit} {checked : TypedStmt} (kept : stmt.Kept first checked) :
    checked.number = stmt.number :=
  congrArg StmtNode.id kept.node

theorem KeptOption.number {stmt : Option (Stmt Unit)} {checked : Option TypedStmt}
    (kept : KeptOption first stmt checked) :
    checked.map Stmt.number = stmt.map Stmt.number := by
  cases stmt with
  | none => rw [kept]; rfl
  | some stmt =>
      rcases kept with ⟨x, x', rfl⟩
      exact congrArg some x'.number

theorem KeptAll.numbers {stmts : List (Stmt Unit)} {checked : List TypedStmt}
    (kept : KeptAll first stmts checked) : checked.map Stmt.number = stmts.map Stmt.number := by
  induction stmts generalizing checked with
  | nil => rw [kept]; rfl
  | cons stmt rest inductionHypothesis =>
      rcases kept with ⟨x, xs, x', xs', rfl⟩
      rw [List.map_cons, List.map_cons, x'.number, inductionHypothesis xs']

/-- The numbers that a statement names are the same. -/
theorem Kept.entry {stmt : Stmt Unit} {checked : TypedStmt} (kept : stmt.Kept first checked) :
    checked.entry = stmt.entry := by
  have form : checked.form = stmt.form := by
    cases stmt <;> simp only [Kept] at kept
    case brk | cont => rw [kept]; rfl
    case expr | varDecl =>
        rcases kept with ⟨_, x, rfl⟩
        simp only [Stmt.form, (Expr.Fits.node x).1]
    case ret =>
        rcases kept with ⟨_, x, rfl⟩
        exact congrArg StmtForm.ret x.number
    case ifElse =>
        rcases kept with ⟨_, _, _, c, x, y, rfl⟩
        simp only [Stmt.form, (Expr.Fits.node c).1, x.number, y.number]
    case whileLoop | doWhile | forEach =>
        rcases kept with ⟨_, _, c, x, rfl⟩
        simp only [Stmt.form, (Expr.Fits.node c).1, x.number]
    case forLoop =>
        rcases kept with ⟨_, _, _, _, i, c, n, x, rfl⟩
        simp only [Stmt.form, i.number, c.number, n.number, x.number]
    case block | function =>
        rcases kept with ⟨_, xs, rfl⟩
        simp only [Stmt.form, xs.numbers]
  rw [Stmt.entry, Stmt.entry, kept.number, form, Stmt.span, Stmt.span, kept.node]

mutual

theorem Kept.entries : ∀ {stmt : Stmt Unit} {checked : TypedStmt}, stmt.Kept first checked →
    checked.entries = stmt.entries
  | .expr _ _, _, kept | .varDecl _ _ _, _, kept | .ret _ _, _, kept => by
      have entry := kept.entry
      rcases kept with ⟨_, _, rfl⟩
      exact congrArg ([·]) entry
  | .brk _, _, equal | .cont _, _, equal => equal ▸ rfl
  | .ifElse _ _ _ _, _, kept => by
      have entry := kept.entry
      rcases kept with ⟨_, _, _, _, x, y, rfl⟩
      rw [Stmt.entries, Stmt.entries, entry, x.entries, y.entries]
  | .whileLoop _ _ _, _, kept | .doWhile _ _ _, _, kept | .forEach _ _ _ _, _, kept => by
      have entry := kept.entry
      rcases kept with ⟨_, _, _, x, rfl⟩
      rw [Stmt.entries, Stmt.entries, entry, x.entries]
  | .forLoop _ _ _ _ _, _, kept => by
      have entry := kept.entry
      rcases kept with ⟨_, _, _, _, i, _, _, x, rfl⟩
      rw [Stmt.entries, Stmt.entries, entry, i.entries, x.entries]
  | .block _ _, _, kept | .function _ _ _ _ _, _, kept => by
      have entry := kept.entry
      rcases kept with ⟨_, xs, rfl⟩
      rw [Stmt.entries, Stmt.entries, entry, xs.entries]

theorem KeptOption.entries : ∀ {stmt : Option (Stmt Unit)} {checked : Option TypedStmt},
    KeptOption first stmt checked → entriesOption checked = entriesOption stmt
  | none, _, equal => equal ▸ rfl
  | some _, _, ⟨_, x, equal⟩ => equal ▸ x.entries

theorem KeptAll.entries : ∀ {stmts : List (Stmt Unit)} {checked : List TypedStmt},
    KeptAll first stmts checked → entriesAll checked = entriesAll stmts
  | [], _, equal => equal ▸ rfl
  | _ :: _, _, ⟨_, _, x, xs, equal⟩ => by
      rw [equal, entriesAll, entriesAll, x.entries, xs.entries]

end

mutual

theorem Kept.becomeAll : ∀ {stmt : Stmt Unit} {checked : TypedStmt}, stmt.Kept first checked →
    ExprEntry.BecomeAll first stmt.exprEntries checked.exprEntries
  | .expr _ _, _, ⟨_, x, equal⟩ | .varDecl _ _ _, _, ⟨_, x, equal⟩ => equal ▸ x.becomes
  | .ret _ _, _, ⟨_, x, equal⟩ => equal ▸ x.becomes
  | .brk _, _, equal | .cont _, _, equal => equal ▸ ExprEntry.becomeAll_nil
  | .ifElse _ _ _ _, _, ⟨_, _, _, c, x, y, equal⟩ =>
      equal ▸ (c.becomes.append x.becomeAll).append y.becomeAll
  | .whileLoop _ _ _, _, ⟨_, _, c, x, equal⟩ | .forEach _ _ _ _, _, ⟨_, _, c, x, equal⟩ =>
      equal ▸ c.becomes.append x.becomeAll
  | .doWhile _ _ _, _, ⟨_, _, c, x, equal⟩ => equal ▸ x.becomeAll.append c.becomes
  | .forLoop _ _ _ _ _, _, ⟨_, _, _, _, i, c, n, x, equal⟩ =>
      equal ▸ ((i.becomeAll.append c.becomes).append n.becomes).append x.becomeAll
  | .block _ _, _, ⟨_, xs, equal⟩ | .function _ _ _ _ _, _, ⟨_, xs, equal⟩ => equal ▸ xs.becomeAll

theorem KeptOption.becomeAll : ∀ {stmt : Option (Stmt Unit)} {checked : Option TypedStmt},
    KeptOption first stmt checked →
      ExprEntry.BecomeAll first (exprEntriesOption stmt) (exprEntriesOption checked)
  | none, _, equal => equal ▸ ExprEntry.becomeAll_nil
  | some _, _, ⟨_, x, equal⟩ => equal ▸ x.becomeAll

theorem KeptAll.becomeAll : ∀ {stmts : List (Stmt Unit)} {checked : List TypedStmt},
    KeptAll first stmts checked →
      ExprEntry.BecomeAll first (exprEntriesAll stmts) (exprEntriesAll checked)
  | [], _, equal => equal ▸ ExprEntry.becomeAll_nil
  | _ :: _, _, ⟨_, _, x, xs, equal⟩ => equal ▸ x.becomeAll.append xs.becomeAll

end

end Stmt

/-! ## Taking the changes away -/

/-- The node without its label. -/
def Node.unlabelled (node : Node α) : Node Unit :=
  ⟨node.id, node.span, ()⟩

namespace Expr

mutual

/-- The expression without the casts of expressions with numbers from `first` on, and
with strings for dates and durations. -/
def restored (first : Nat) : Expr α → Expr Unit
  | .ident node name => .ident node.unlabelled name
  | .constant node value => .constant node.unlabelled value.written
  | .typeLiteral node type => .typeLiteral node.unlabelled type
  | .unary node op operand => .unary node.unlabelled op (restored first operand)
  | .binary node op left right =>
      if op = .typeCast ∧ first ≤ left.number then (restored first left).withId node.id
      else .binary node.unlabelled op (restored first left) (restored first right)
  | .ternary node cond thenBranch elseBranch =>
      .ternary node.unlabelled (restored first cond) (restored first thenBranch)
        (restored first elseBranch)
  | .call node callee args =>
      .call node.unlabelled (restored first callee) (restoredAll first args)
  | .array node items => .array node.unlabelled (restoredAll first items)
  | .index node receiver subscript =>
      .index node.unlabelled (restored first receiver) (restored first subscript)

/-- The expressions without casts and without dates and durations. -/
def restoredAll (first : Nat) : List (Expr α) → List (Expr Unit)
  | [] => []
  | e :: rest => restored first e :: restoredAll first rest

end

end Expr

namespace Stmt

mutual

/-- The statement with its expressions as they were. -/
def restored (first : Nat) : Stmt α → Stmt Unit
  | .expr node e => .expr node (e.restored first)
  | .varDecl node binder init => .varDecl node binder (init.restored first)
  | .ret node value => .ret node (value.map (Expr.restored first))
  | .ifElse node cond thenBranch elseBranch =>
      .ifElse node (cond.restored first) (restored first thenBranch)
        (restoredOption first elseBranch)
  | .whileLoop node cond body => .whileLoop node (cond.restored first) (restored first body)
  | .doWhile node body cond => .doWhile node (restored first body) (cond.restored first)
  | .forLoop node init cond step body =>
      .forLoop node (restoredOption first init) (cond.map (Expr.restored first))
        (step.map (Expr.restored first)) (restored first body)
  | .forEach node binder iterable body =>
      .forEach node binder (iterable.restored first) (restored first body)
  | .brk node => .brk node
  | .cont node => .cont node
  | .block node stmts => .block node (restoredAll first stmts)
  | .function node result name params body =>
      .function node result name params (restoredAll first body)

/-- The statement that may be missing with its expressions as they were. -/
def restoredOption (first : Nat) : Option (Stmt α) → Option (Stmt Unit)
  | none => none
  | some s => some (restored first s)

/-- The statements with their expressions as they were. -/
def restoredAll (first : Nat) : List (Stmt α) → List (Stmt Unit)
  | [] => []
  | s :: rest => restored first s :: restoredAll first rest

end

end Stmt

/-- The formula without the casts of expressions with numbers from `first` on, and with
strings for dates and durations. -/
def Program.restored (first : Nat) (p : Program α) : Program Unit :=
  ⟨Stmt.restoredAll first p.body, p.tail.map (Expr.restored first), p.span⟩

/-- The entry is one of source, and its number is not new. -/
def ExprEntry.IsOld (first : Nat) (entry : ExprEntry) : Prop :=
  entry.number < first ∧ entry.form.IsRead

/-- The entries are of source, and none of their numbers is new. -/
def ExprEntry.AreOld (first : Nat) (entries : List ExprEntry) : Prop :=
  ∀ entry ∈ entries, entry.IsOld first

theorem ExprEntry.areOld_append {first : Nat} {entries more : List ExprEntry} :
    AreOld first (entries ++ more) ↔ AreOld first entries ∧ AreOld first more :=
  List.forall_mem_append

theorem ExprEntry.areOld_cons {first : Nat} {entry : ExprEntry} {entries : List ExprEntry} :
    AreOld first (entry :: entries) ↔ entry.IsOld first ∧ AreOld first entries :=
  List.forall_mem_cons

theorem Constant.written_of_isRead {value : Constant} (read : (ExprForm.constant value).IsRead) :
    value.written = value := by
  cases value <;> first | rfl | exact read.elim

namespace Expr

variable {first : Nat}

theorem withId_withId (id other : Nat) (e : Expr α) : (e.withId other).withId id = e.withId id := by
  cases e <;> rfl

theorem withId_number (e : Expr α) : e.withId e.number = e := by
  cases e <;> rfl

theorem restored_withId (id : Nat) (e : Expr α) :
    (e.withId id).restored first = (e.restored first).withId id := by
  cases e with
  | binary node op left right =>
      rw [withId, restored, restored]
      split
      · rw [withId_withId]
      · rfl
  | _ => rfl

/-- An expression in its place is as it was if it is so without a cast around it. -/
theorem Fits.restored_of {e : Expr Unit} {checked : TypedExpr} (fits : e.Fits first checked)
    (kept : ∀ {x : TypedExpr}, e.Kept first x → x.restored first = e) :
    checked.restored first = e := by
  cases fits with
  | kept isKept => exact kept isKept
  | cast _ _ _ isKept movedNew =>
      rw [restored, if_pos ⟨rfl, by rwa [number_withId]⟩, restored_withId, kept isKept,
        withId_withId, isKept.node.1]
      exact withId_number e

mutual

theorem Kept.restored : ∀ {e : Expr Unit} {checked : TypedExpr}, e.Kept first checked →
    ExprEntry.AreOld first e.entries → checked.restored first = e
  | .ident _ _, _, ⟨_, equal⟩, _ | .typeLiteral _ _, _, ⟨_, equal⟩, _ => equal ▸ rfl
  | .constant node value, _, ⟨_, _, rereads, equal⟩, old => by
      have read := (old _ List.mem_cons_self).2
      rw [equal, Expr.restored, rereads.written, Constant.written_of_isRead read]
      rfl
  | .unary _ _ operand, _, ⟨_, _, x, equal⟩, old => by
      rw [entries, inner, ExprEntry.areOld_cons] at old
      rw [equal, Expr.restored, Fits.restored_of x fun x => x.restored old.2]
      rfl
  | .binary _ op left right, _, ⟨_, x', _, x, y, equal⟩, old => by
      rw [entries, inner, ExprEntry.areOld_cons, ExprEntry.areOld_append] at old
      have own : ¬(op = .typeCast ∧ first ≤ x'.number) := fun ⟨_, new⟩ =>
        Nat.not_le_of_lt (old.2.1 _ List.mem_cons_self).1
          (Nat.le_trans new (Nat.le_of_eq (Fits.node x).1))
      rw [equal, Expr.restored, if_neg own, Fits.restored_of x fun x => x.restored old.2.1,
        Fits.restored_of y fun y => y.restored old.2.2]
      rfl
  | .ternary _ _ _ _, _, ⟨_, _, _, _, c, x, y, equal⟩, old => by
      rw [entries, inner, ExprEntry.areOld_cons, ExprEntry.areOld_append,
        ExprEntry.areOld_append] at old
      rw [equal, Expr.restored, Fits.restored_of c fun c => c.restored old.2.1.1,
        Fits.restored_of x fun x => x.restored old.2.1.2,
        Fits.restored_of y fun y => y.restored old.2.2]
      rfl
  | .call _ _ _, _, ⟨_, _, _, f, xs, equal⟩, old => by
      rw [entries, inner, ExprEntry.areOld_cons, ExprEntry.areOld_append] at old
      rw [equal, Expr.restored, f.restored old.2.1, xs.restored old.2.2]
      rfl
  | .array _ _, _, ⟨_, _, xs, equal⟩, old => by
      rw [entries, inner, ExprEntry.areOld_cons] at old
      rw [equal, Expr.restored, xs.restored old.2]
      rfl
  | .index _ _ _, _, ⟨_, _, _, x, y, equal⟩, old => by
      rw [entries, inner, ExprEntry.areOld_cons, ExprEntry.areOld_append] at old
      rw [equal, Expr.restored, Fits.restored_of x fun x => x.restored old.2.1,
        Fits.restored_of y fun y => y.restored old.2.2]
      rfl

theorem FittedAll.restored : ∀ {es : List (Expr Unit)} {checked : List TypedExpr},
    FittedAll first es checked → ExprEntry.AreOld first (entriesAll es) →
      restoredAll first checked = es
  | [], _, equal, _ => equal ▸ rfl
  | _ :: _, _, ⟨_, _, x, xs, equal⟩, old => by
      rw [entriesAll, ExprEntry.areOld_append] at old
      rw [equal, restoredAll, Fits.restored_of x fun x => x.restored old.1, xs.restored old.2]

end

theorem Fits.restored {e : Expr Unit} {checked : TypedExpr} (fits : e.Fits first checked)
    (old : ExprEntry.AreOld first e.entries) : checked.restored first = e :=
  fits.restored_of fun kept => kept.restored old

theorem FitsOption.restored : ∀ {e : Option (Expr Unit)} {checked : Option TypedExpr},
    FitsOption first e checked → ExprEntry.AreOld first (entriesOption e) →
      checked.map (Expr.restored first) = e
  | none, _, equal, _ => equal ▸ rfl
  | some _, _, ⟨_, x, equal⟩, old => equal ▸ congrArg some (x.restored old)

end Expr

namespace Stmt

variable {first : Nat}

mutual

theorem Kept.restored : ∀ {stmt : Stmt Unit} {checked : TypedStmt}, stmt.Kept first checked →
    ExprEntry.AreOld first stmt.exprEntries → checked.restored first = stmt
  | .expr node _, _, ⟨_, x, equal⟩, old => equal ▸ congrArg (expr node) (x.restored old)
  | .varDecl node binder _, _, ⟨_, x, equal⟩, old =>
      equal ▸ congrArg (varDecl node binder) (x.restored old)
  | .ret node _, _, ⟨_, x, equal⟩, old => equal ▸ congrArg (ret node) (x.restored old)
  | .brk _, _, equal, _ | .cont _, _, equal, _ => equal ▸ rfl
  | .ifElse _ _ _ _, _, ⟨_, _, _, c, x, y, equal⟩, old => by
      rw [exprEntries, ExprEntry.areOld_append, ExprEntry.areOld_append] at old
      rw [equal, Stmt.restored, c.restored old.1.1, x.restored old.1.2, y.restored old.2]
  | .whileLoop _ _ _, _, ⟨_, _, c, x, equal⟩, old
  | .forEach _ _ _ _, _, ⟨_, _, c, x, equal⟩, old => by
      rw [exprEntries, ExprEntry.areOld_append] at old
      rw [equal, Stmt.restored, c.restored old.1, x.restored old.2]
  | .doWhile _ _ _, _, ⟨_, _, c, x, equal⟩, old => by
      rw [exprEntries, ExprEntry.areOld_append] at old
      rw [equal, Stmt.restored, x.restored old.1, c.restored old.2]
  | .forLoop _ _ _ _ _, _, ⟨_, _, _, _, i, c, n, x, equal⟩, old => by
      rw [exprEntries, ExprEntry.areOld_append, ExprEntry.areOld_append,
        ExprEntry.areOld_append] at old
      rw [equal, Stmt.restored, i.restored old.1.1.1, c.restored old.1.1.2, n.restored old.1.2,
        x.restored old.2]
  | .block node _, _, ⟨_, xs, equal⟩, old => equal ▸ congrArg (block node) (xs.restored old)
  | .function node result name params _, _, ⟨_, xs, equal⟩, old =>
      equal ▸ congrArg (function node result name params) (xs.restored old)

theorem KeptOption.restored : ∀ {stmt : Option (Stmt Unit)} {checked : Option TypedStmt},
    KeptOption first stmt checked → ExprEntry.AreOld first (exprEntriesOption stmt) →
      restoredOption first checked = stmt
  | none, _, equal, _ => equal ▸ rfl
  | some _, _, ⟨_, x, equal⟩, old => equal ▸ congrArg some (x.restored old)

theorem KeptAll.restored : ∀ {stmts : List (Stmt Unit)} {checked : List TypedStmt},
    KeptAll first stmts checked → ExprEntry.AreOld first (exprEntriesAll stmts) →
      restoredAll first checked = stmts
  | [], _, equal, _ => equal ▸ rfl
  | _ :: _, _, ⟨_, _, x, xs, equal⟩, old => by
      rw [exprEntriesAll, ExprEntry.areOld_append] at old
      rw [equal, restoredAll, x.restored old.1, xs.restored old.2]

end

end Stmt

/-! ## Free names and quoted texts -/

/-- The use of a name, wherever it is numbered. -/
def Occurrence.anywhere (use : Occurrence) : Occurrence :=
  { use with node := 0 }

namespace Expr

variable {first : Nat}

theorem free_withId (id : Nat) (bound : List String) (role : Role) (e : Expr α) :
    ((e.withId id).free bound role).map Occurrence.anywhere
      = (e.free bound role).map Occurrence.anywhere := by
  cases e with
  | ident node name =>
      simp only [withId, free, occurrence]
      split <;> rfl
  | _ => rfl

theorem strings_withId (id : Nat) (e : Expr α) : (e.withId id).strings = e.strings := by
  cases e <;> rfl

/-- An expression in its place uses the names that it uses without a cast around it. -/
theorem Fits.free_of {e : Expr Unit} {checked : TypedExpr} {bound : List String}
    (fits : e.Fits first checked)
    (kept : ∀ {x : TypedExpr}, e.Kept first x → (x.free bound .variable).map Occurrence.anywhere
      = (e.free bound .variable).map Occurrence.anywhere) :
    (checked.free bound .variable).map Occurrence.anywhere
      = (e.free bound .variable).map Occurrence.anywhere := by
  cases fits with
  | kept isKept => exact kept isKept
  | cast _ _ _ isKept =>
      rw [Expr.free, Expr.free, List.append_nil, free_withId]
      exact kept isKept

/-- An expression in its place quotes the texts that it quotes without a cast around
it. -/
theorem Fits.strings_of {e : Expr Unit} {checked : TypedExpr} (fits : e.Fits first checked)
    (kept : ∀ {x : TypedExpr}, e.Kept first x → x.strings = e.strings) :
    checked.strings = e.strings := by
  cases fits with
  | kept isKept => exact kept isKept
  | cast _ _ _ isKept =>
      rw [Expr.strings, Expr.strings, List.append_nil, strings_withId]
      exact kept isKept

variable {bound : List String}

mutual

theorem Kept.free {role : Role} : ∀ {e : Expr Unit} {checked : TypedExpr},
    e.Kept first checked → (checked.free bound role).map Occurrence.anywhere
      = (e.free bound role).map Occurrence.anywhere
  | .ident _ _, _, ⟨_, equal⟩ | .typeLiteral _ _, _, ⟨_, equal⟩
  | .constant _ _, _, ⟨_, _, _, equal⟩ => equal ▸ rfl
  | .unary _ _ _, _, ⟨_, _, x, equal⟩ => equal ▸ Fits.free_of x Kept.free
  | .binary _ _ _ _, _, ⟨_, _, _, x, y, equal⟩ | .index _ _ _, _, ⟨_, _, _, x, y, equal⟩ => by
      simp only [equal, Expr.free, List.map_append, Fits.free_of x Kept.free,
        Fits.free_of y Kept.free]
  | .ternary _ _ _ _, _, ⟨_, _, _, _, c, x, y, equal⟩ => by
      simp only [equal, Expr.free, List.map_append, Fits.free_of c Kept.free,
        Fits.free_of x Kept.free, Fits.free_of y Kept.free]
  | .call _ _ _, _, ⟨_, _, _, f, xs, equal⟩ => by
      simp only [equal, Expr.free, List.map_append, f.free, xs.free]
  | .array _ _, _, ⟨_, _, xs, equal⟩ => equal ▸ xs.free

theorem FittedAll.free : ∀ {es : List (Expr Unit)} {checked : List TypedExpr},
    FittedAll first es checked → (freeAll bound checked).map Occurrence.anywhere
      = (freeAll bound es).map Occurrence.anywhere
  | [], _, equal => equal ▸ rfl
  | _ :: _, _, ⟨_, _, x, xs, equal⟩ => by
      simp only [equal, freeAll, List.map_append, Fits.free_of x Kept.free, xs.free]

end

theorem Fits.free {e : Expr Unit} {checked : TypedExpr} (fits : e.Fits first checked) :
    (checked.free bound .variable).map Occurrence.anywhere
      = (e.free bound .variable).map Occurrence.anywhere :=
  fits.free_of Kept.free

theorem FitsOption.free : ∀ {e : Option (Expr Unit)} {checked : Option TypedExpr},
    FitsOption first e checked → (freeOption bound checked).map Occurrence.anywhere
      = (freeOption bound e).map Occurrence.anywhere
  | none, _, equal => equal ▸ rfl
  | some _, _, ⟨_, x, equal⟩ => equal ▸ x.free

mutual

theorem Kept.strings : ∀ {e : Expr Unit} {checked : TypedExpr}, e.Kept first checked →
    checked.strings = e.strings
  | .ident _ _, _, ⟨_, equal⟩ | .typeLiteral _ _, _, ⟨_, equal⟩ => equal ▸ rfl
  | .constant _ _, _, ⟨_, _, rereads, equal⟩ =>
      equal ▸ congrArg Option.toList (Constant.Rereads.text? rereads)
  | .unary _ _ _, _, ⟨_, _, x, equal⟩ => by
      simp only [equal, Expr.strings, Fits.strings_of x Kept.strings]
  | .binary _ _ _ _, _, ⟨_, _, _, x, y, equal⟩ | .index _ _ _, _, ⟨_, _, _, x, y, equal⟩ => by
      simp only [equal, Expr.strings, Fits.strings_of x Kept.strings,
        Fits.strings_of y Kept.strings]
  | .ternary _ _ _ _, _, ⟨_, _, _, _, c, x, y, equal⟩ => by
      simp only [equal, Expr.strings, Fits.strings_of c Kept.strings,
        Fits.strings_of x Kept.strings, Fits.strings_of y Kept.strings]
  | .call _ _ _, _, ⟨_, _, _, f, xs, equal⟩ => by
      simp only [equal, Expr.strings, f.strings, xs.strings]
  | .array _ _, _, ⟨_, _, xs, equal⟩ => equal ▸ xs.strings

theorem FittedAll.strings : ∀ {es : List (Expr Unit)} {checked : List TypedExpr},
    FittedAll first es checked → stringsAll checked = stringsAll es
  | [], _, equal => equal ▸ rfl
  | _ :: _, _, ⟨_, _, x, xs, equal⟩ => by
      simp only [equal, stringsAll, Fits.strings_of x Kept.strings, xs.strings]

end

theorem Fits.strings {e : Expr Unit} {checked : TypedExpr} (fits : e.Fits first checked) :
    checked.strings = e.strings :=
  fits.strings_of Kept.strings

theorem FitsOption.strings : ∀ {e : Option (Expr Unit)} {checked : Option TypedExpr},
    FitsOption first e checked → stringsOption checked = stringsOption e
  | none, _, equal => equal ▸ rfl
  | some _, _, ⟨_, x, equal⟩ => equal ▸ x.strings

end Expr

namespace Stmt

variable {first : Nat}

theorem Kept.declared {stmt : Stmt Unit} {checked : TypedStmt} (kept : stmt.Kept first checked) :
    checked.declared = stmt.declared := by
  cases stmt <;> simp only [Kept] at kept
  case brk | cont => rw [kept]; rfl
  case expr | varDecl | ret | block | function => rcases kept with ⟨_, _, rfl⟩; rfl
  case whileLoop | doWhile | forEach => rcases kept with ⟨_, _, _, _, rfl⟩; rfl
  case ifElse => rcases kept with ⟨_, _, _, _, _, _, rfl⟩; rfl
  case forLoop => rcases kept with ⟨_, _, _, _, _, _, _, _, rfl⟩; rfl

theorem KeptOption.declared {stmt : Option (Stmt Unit)} {checked : Option TypedStmt}
    (kept : KeptOption first stmt checked) : declaredOption checked = declaredOption stmt := by
  cases stmt with
  | none => rw [kept]; rfl
  | some stmt =>
      rcases kept with ⟨x, x', rfl⟩
      exact x'.declared

theorem KeptAll.boundAfter {stmts : List (Stmt Unit)} {checked : List TypedStmt}
    (kept : KeptAll first stmts checked) (bound : List String) :
    Stmt.boundAfter bound checked = Stmt.boundAfter bound stmts := by
  induction stmts generalizing checked bound with
  | nil => rw [kept]; rfl
  | cons stmt rest inductionHypothesis =>
      rcases kept with ⟨x, xs, x', xs', rfl⟩
      have rest' := inductionHypothesis xs' (stmt.declared ++ bound)
      simpa only [Stmt.boundAfter, List.foldl_cons, x'.declared] using rest'

mutual

theorem Kept.free : ∀ {bound : List String} {stmt : Stmt Unit} {checked : TypedStmt},
    stmt.Kept first checked →
      (checked.free bound).map Occurrence.anywhere = (stmt.free bound).map Occurrence.anywhere
  | _, .expr _ _, _, ⟨_, x, equal⟩ | _, .varDecl _ _ _, _, ⟨_, x, equal⟩ => equal ▸ x.free
  | _, .ret _ _, _, ⟨_, x, equal⟩ => equal ▸ x.free
  | _, .brk _, _, equal | _, .cont _, _, equal => equal ▸ rfl
  | _, .ifElse _ _ _ _, _, ⟨_, _, _, c, x, y, equal⟩ => by
      simp only [equal, Stmt.free, List.map_append, c.free, x.free, y.free]
  | _, .whileLoop _ _ _, _, ⟨_, _, c, x, equal⟩ | _, .forEach _ _ _ _, _, ⟨_, _, c, x, equal⟩
  | _, .doWhile _ _ _, _, ⟨_, _, c, x, equal⟩ => by
      simp only [equal, Stmt.free, List.map_append, c.free, x.free]
  | _, .forLoop _ _ _ _ _, _, ⟨_, _, _, _, i, c, n, x, equal⟩ => by
      simp only [equal, Stmt.free, List.map_append, i.declared, i.free, c.free, n.free, x.free]
  | _, .block _ _, _, ⟨_, xs, equal⟩ | _, .function _ _ _ _ _, _, ⟨_, xs, equal⟩ =>
      equal ▸ xs.free

theorem KeptOption.free : ∀ {bound : List String} {stmt : Option (Stmt Unit)}
    {checked : Option TypedStmt}, KeptOption first stmt checked →
      (freeOption bound checked).map Occurrence.anywhere
        = (freeOption bound stmt).map Occurrence.anywhere
  | _, none, _, equal => equal ▸ rfl
  | _, some _, _, ⟨_, x, equal⟩ => equal ▸ x.free

theorem KeptAll.free : ∀ {bound : List String} {stmts : List (Stmt Unit)}
    {checked : List TypedStmt}, KeptAll first stmts checked →
      (freeAll bound checked).map Occurrence.anywhere
        = (freeAll bound stmts).map Occurrence.anywhere
  | _, [], _, equal => equal ▸ rfl
  | _, _ :: _, _, ⟨_, _, x, xs, equal⟩ => by
      simp only [equal, freeAll, List.map_append, x.declared, x.free, xs.free]

end

mutual

theorem Kept.strings : ∀ {stmt : Stmt Unit} {checked : TypedStmt}, stmt.Kept first checked →
    checked.strings = stmt.strings
  | .expr _ _, _, ⟨_, x, equal⟩ | .varDecl _ _ _, _, ⟨_, x, equal⟩ => equal ▸ x.strings
  | .ret _ _, _, ⟨_, x, equal⟩ => equal ▸ x.strings
  | .brk _, _, equal | .cont _, _, equal => equal ▸ rfl
  | .ifElse _ _ _ _, _, ⟨_, _, _, c, x, y, equal⟩ => by
      simp only [equal, Stmt.strings, c.strings, x.strings, y.strings]
  | .whileLoop _ _ _, _, ⟨_, _, c, x, equal⟩ | .forEach _ _ _ _, _, ⟨_, _, c, x, equal⟩
  | .doWhile _ _ _, _, ⟨_, _, c, x, equal⟩ => by
      simp only [equal, Stmt.strings, c.strings, x.strings]
  | .forLoop _ _ _ _ _, _, ⟨_, _, _, _, i, c, n, x, equal⟩ => by
      simp only [equal, Stmt.strings, i.strings, c.strings, n.strings, x.strings]
  | .block _ _, _, ⟨_, xs, equal⟩ | .function _ _ _ _ _, _, ⟨_, xs, equal⟩ => equal ▸ xs.strings

theorem KeptOption.strings : ∀ {stmt : Option (Stmt Unit)} {checked : Option TypedStmt},
    KeptOption first stmt checked → stringsOption checked = stringsOption stmt
  | none, _, equal => equal ▸ rfl
  | some _, _, ⟨_, x, equal⟩ => equal ▸ x.strings

theorem KeptAll.strings : ∀ {stmts : List (Stmt Unit)} {checked : List TypedStmt},
    KeptAll first stmts checked → stringsAll checked = stringsAll stmts
  | [], _, equal => equal ▸ rfl
  | _ :: _, _, ⟨_, _, x, xs, equal⟩ => by
      simp only [equal, stringsAll, x.strings, xs.strings]

end

end Stmt

/-! ## Formulas -/

namespace Program.Kept

variable {first : Nat} {p : Program Unit} {q : TypedProgram}

theorem becomes (kept : p.Kept first q) : ExprEntry.BecomeAll first p.entries q.entries :=
  kept.body.becomeAll.append kept.tail.becomes

theorem stmtEntries (kept : p.Kept first q) : q.stmtEntries = p.stmtEntries :=
  kept.body.entries

theorem restored (kept : p.Kept first q) (old : ExprEntry.AreOld first p.entries) :
    q.restored first = p := by
  rw [Program.entries, ExprEntry.areOld_append] at old
  rw [Program.restored, kept.body.restored old.1, kept.tail.restored old.2, kept.span]

theorem free (kept : p.Kept first q) :
    q.free.map Occurrence.anywhere = p.free.map Occurrence.anywhere := by
  rw [Program.free, Program.free, List.map_append, List.map_append, kept.body.free,
    kept.body.boundAfter, kept.tail.free]

theorem strings (kept : p.Kept first q) : q.strings = p.strings := by
  rw [Program.strings, Program.strings, kept.body.strings, kept.tail.strings]

end Program.Kept

/-- The names that a formula uses in a role are those of its uses, wherever these are
numbered. -/
theorem Program.freeNames_congr {β : Type} {p : Program α} {q : Program β}
    (same : q.free.map Occurrence.anywhere = p.free.map Occurrence.anywhere) (role : Role) :
    q.freeNames role = p.freeNames role := by
  have names (uses : List Occurrence) :
      (uses.filter fun use => use.role = role).map Occurrence.name
        = ((uses.map Occurrence.anywhere).filter fun use => use.role = role).map
            Occurrence.name := by
    rw [List.filter_map, List.map_map]
    rfl
  rw [freeNames, freeNames, names q.free, same, ← names p.free]

end Formulae
