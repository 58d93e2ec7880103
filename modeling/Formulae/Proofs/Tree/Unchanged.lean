import Formulae.Tree.Rename

/-!
# Trees without a place to change

Where renaming and requoting count no place, they leave the tree as it is
(`Program.rename_of_count_eq_zero`, `Program.requote_of_count_eq_zero`).
-/

namespace Formulae

variable {α : Type}

/-- No use is one that the renaming is for. -/
def Renaming.Misses (r : Renaming) (uses : List Occurrence) : Prop :=
  ∀ use ∈ uses, ¬ (use.role = r.role ∧ use.name = r.old)

theorem Renaming.misses_append {r : Renaming} {first second : List Occurrence} :
    r.Misses (first ++ second) ↔ r.Misses first ∧ r.Misses second :=
  List.forall_mem_append

namespace Expr

theorem apply_eq_self {r : Renaming} {bound : List String} {role : Role} {node : Node α}
    {name : String} (misses : r.Misses (occurrence bound role node name)) :
    r.apply bound role name = name := by
  unfold Renaming.apply
  split
  · next matched =>
      rw [occurrence, if_neg matched.1] at misses
      exact absurd ⟨matched.2.1, matched.2.2⟩ (misses _ List.mem_cons_self)
  · rfl

mutual

theorem rename_eq_self {r : Renaming} {bound : List String} : ∀ {role : Role} (e : Expr α),
    r.Misses (e.free bound role) → e.rename r bound role = e
  | _, .ident node name, h => congrArg (ident node) (apply_eq_self h)
  | _, .constant _ _, _ | _, .typeLiteral _ _, _ => rfl
  | _, .unary node op operand, h => congrArg (unary node op) (rename_eq_self operand h)
  | _, .binary node op left right, h => by
      rw [free, Renaming.misses_append] at h
      rw [rename, rename_eq_self left h.1, rename_eq_self right h.2]
  | _, .ternary node cond thenBranch elseBranch, h => by
      rw [free, Renaming.misses_append, Renaming.misses_append] at h
      rw [rename, rename_eq_self cond h.1.1, rename_eq_self thenBranch h.1.2,
        rename_eq_self elseBranch h.2]
  | _, .call node callee args, h => by
      rw [free, Renaming.misses_append] at h
      rw [rename, rename_eq_self callee h.1, renameAll_eq_self args h.2]
  | _, .array node items, h => congrArg (array node) (renameAll_eq_self items h)
  | _, .index node receiver subscript, h => by
      rw [free, Renaming.misses_append] at h
      rw [rename, rename_eq_self receiver h.1, rename_eq_self subscript h.2]

theorem renameAll_eq_self {r : Renaming} {bound : List String} : ∀ es : List (Expr α),
    r.Misses (freeAll bound es) → renameAll r bound es = es
  | [], _ => rfl
  | e :: rest, h => by
      rw [freeAll, Renaming.misses_append] at h
      rw [renameAll, rename_eq_self e h.1, renameAll_eq_self rest h.2]

end

theorem renameOption_eq_self {r : Renaming} {bound : List String} {e : Option (Expr α)}
    (h : r.Misses (freeOption bound e)) : e.map (rename r bound .variable) = e := by
  cases e with
  | none => rfl
  | some e => exact congrArg some (rename_eq_self e h)

theorem requoteConstant_eq_self {old : String} (new : String) {value : Constant}
    (missing : old ∉ value.text?.toList) : requoteConstant old new value = value := by
  unfold requoteConstant
  split
  · next quoted => simp [quoted] at missing
  · rfl

mutual

theorem requote_eq_self {old : String} (new : String) : ∀ e : Expr α, old ∉ e.strings →
    e.requote old new = e
  | .ident _ _, _ | .typeLiteral _ _, _ => rfl
  | .constant node value, h => congrArg (constant node) (requoteConstant_eq_self new h)
  | .unary node op operand, h => congrArg (unary node op) (requote_eq_self new operand h)
  | .binary node op left right, h => by
      rw [strings, List.mem_append, not_or] at h
      rw [requote, requote_eq_self new left h.1, requote_eq_self new right h.2]
  | .ternary node cond thenBranch elseBranch, h => by
      rw [strings, List.mem_append, List.mem_append, not_or, not_or] at h
      rw [requote, requote_eq_self new cond h.1.1, requote_eq_self new thenBranch h.1.2,
        requote_eq_self new elseBranch h.2]
  | .call node callee args, h => by
      rw [strings, List.mem_append, not_or] at h
      rw [requote, requote_eq_self new callee h.1, requoteAll_eq_self new args h.2]
  | .array node items, h => congrArg (array node) (requoteAll_eq_self new items h)
  | .index node receiver subscript, h => by
      rw [strings, List.mem_append, not_or] at h
      rw [requote, requote_eq_self new receiver h.1, requote_eq_self new subscript h.2]

theorem requoteAll_eq_self {old : String} (new : String) : ∀ es : List (Expr α),
    old ∉ stringsAll es → requoteAll old new es = es
  | [], _ => rfl
  | e :: rest, h => by
      rw [stringsAll, List.mem_append, not_or] at h
      rw [requoteAll, requote_eq_self new e h.1, requoteAll_eq_self new rest h.2]

end

theorem requoteOption_eq_self {old : String} (new : String) {e : Option (Expr α)}
    (h : old ∉ stringsOption e) : e.map (requote old new) = e := by
  cases e with
  | none => rfl
  | some e => exact congrArg some (requote_eq_self new e h)

end Expr

namespace Stmt

mutual

theorem rename_eq_self {r : Renaming} {bound : List String} : ∀ stmt : Stmt α,
    r.Misses (stmt.free bound) → stmt.rename r bound = stmt
  | .expr node e, h => congrArg (expr node) (Expr.rename_eq_self e h)
  | .varDecl node binder init, h => congrArg (varDecl node binder) (Expr.rename_eq_self init h)
  | .ret node value, h => congrArg (ret node) (Expr.renameOption_eq_self h)
  | .ifElse node cond thenBranch elseBranch, h => by
      rw [free, Renaming.misses_append, Renaming.misses_append] at h
      rw [rename, Expr.rename_eq_self cond h.1.1, rename_eq_self thenBranch h.1.2,
        renameOption_eq_self elseBranch h.2]
  | .whileLoop node cond body, h => by
      rw [free, Renaming.misses_append] at h
      rw [rename, Expr.rename_eq_self cond h.1, rename_eq_self body h.2]
  | .doWhile node body cond, h => by
      rw [free, Renaming.misses_append] at h
      rw [rename, rename_eq_self body h.1, Expr.rename_eq_self cond h.2]
  | .forLoop node init cond step body, h => by
      rw [free, Renaming.misses_append, Renaming.misses_append, Renaming.misses_append] at h
      rw [rename, renameOption_eq_self init h.1.1.1, Expr.renameOption_eq_self h.1.1.2,
        Expr.renameOption_eq_self h.1.2, rename_eq_self body h.2]
  | .forEach node binder iterable body, h => by
      rw [free, Renaming.misses_append] at h
      rw [rename, Expr.rename_eq_self iterable h.1, rename_eq_self body h.2]
  | .brk _, _ | .cont _, _ => rfl
  | .block node stmts, h => congrArg (block node) (renameAll_eq_self stmts h)
  | .function node result name params body, h =>
      congrArg (function node result name params) (renameAll_eq_self body h)

theorem renameOption_eq_self {r : Renaming} {bound : List String} : ∀ stmt : Option (Stmt α),
    r.Misses (freeOption bound stmt) → renameOption r bound stmt = stmt
  | none, _ => rfl
  | some stmt, h => congrArg some (rename_eq_self stmt h)

theorem renameAll_eq_self {r : Renaming} {bound : List String} : ∀ stmts : List (Stmt α),
    r.Misses (freeAll bound stmts) → renameAll r bound stmts = stmts
  | [], _ => rfl
  | stmt :: rest, h => by
      rw [freeAll, Renaming.misses_append] at h
      rw [renameAll, rename_eq_self stmt h.1, renameAll_eq_self rest h.2]

end

mutual

theorem requote_eq_self {old : String} (new : String) : ∀ stmt : Stmt α, old ∉ stmt.strings →
    stmt.requote old new = stmt
  | .expr node e, h => congrArg (expr node) (Expr.requote_eq_self new e h)
  | .varDecl node binder init, h => congrArg (varDecl node binder) (Expr.requote_eq_self new init h)
  | .ret node value, h => congrArg (ret node) (Expr.requoteOption_eq_self new h)
  | .ifElse node cond thenBranch elseBranch, h => by
      simp only [strings, List.mem_append, not_or] at h
      rw [requote, Expr.requote_eq_self new cond h.1.1, requote_eq_self new thenBranch h.1.2,
        requoteOption_eq_self new elseBranch h.2]
  | .whileLoop node cond body, h => by
      rw [strings, List.mem_append, not_or] at h
      rw [requote, Expr.requote_eq_self new cond h.1, requote_eq_self new body h.2]
  | .doWhile node body cond, h => by
      rw [strings, List.mem_append, not_or] at h
      rw [requote, requote_eq_self new body h.1, Expr.requote_eq_self new cond h.2]
  | .forLoop node init cond step body, h => by
      simp only [strings, List.mem_append, not_or] at h
      rw [requote, requoteOption_eq_self new init h.1.1.1, Expr.requoteOption_eq_self new h.1.1.2,
        Expr.requoteOption_eq_self new h.1.2, requote_eq_self new body h.2]
  | .forEach node binder iterable body, h => by
      rw [strings, List.mem_append, not_or] at h
      rw [requote, Expr.requote_eq_self new iterable h.1, requote_eq_self new body h.2]
  | .brk _, _ | .cont _, _ => rfl
  | .block node stmts, h => congrArg (block node) (requoteAll_eq_self new stmts h)
  | .function node result name params body, h =>
      congrArg (function node result name params) (requoteAll_eq_self new body h)

theorem requoteOption_eq_self {old : String} (new : String) : ∀ stmt : Option (Stmt α),
    old ∉ stringsOption stmt → requoteOption old new stmt = stmt
  | none, _ => rfl
  | some stmt, h => congrArg some (requote_eq_self new stmt h)

theorem requoteAll_eq_self {old : String} (new : String) : ∀ stmts : List (Stmt α),
    old ∉ stringsAll stmts → requoteAll old new stmts = stmts
  | [], _ => rfl
  | stmt :: rest, h => by
      rw [stringsAll, List.mem_append, not_or] at h
      rw [requoteAll, requote_eq_self new stmt h.1, requoteAll_eq_self new rest h.2]

end

end Stmt

namespace Program

theorem rename_of_count_eq_zero {r : Renaming} {p : Program α} (none : (p.rename r).1 = 0) :
    (p.rename r).2 = p := by
  have misses : r.Misses p.free := by
    intro use member matched
    have unmatched := List.countP_eq_zero.mp none use member
    simp [matched] at unmatched
  rw [free, Renaming.misses_append] at misses
  rw [rename, Stmt.renameAll_eq_self _ misses.1, Expr.renameOption_eq_self misses.2]

theorem requote_of_count_eq_zero {old new : String} {p : Program α}
    (none : (p.requote old new).1 = 0) : (p.requote old new).2 = p := by
  have missing := List.count_eq_zero.mp none
  rw [strings, List.mem_append, not_or] at missing
  rw [requote, Stmt.requoteAll_eq_self new _ missing.1, Expr.requoteOption_eq_self new missing.2]

end Program

end Formulae
