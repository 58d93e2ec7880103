import Formulae.Proofs.Tree.Entries
import Formulae.Proofs.Tree.Mentions

/-!
# Edits that can be taken back

Renaming to a name that a formula does not mention, and requoting to a text that it does not
quote, replace one name or one text in the list that they are for and leave the other lists
alone.  The same edit the other way round finds the same nodes and gives the formula back
(`Program.rename_back`, `Program.requote_back`).
-/

namespace Formulae

variable {α : Type}

/-- One text in place of another. -/
def replaced (old new text : String) : String :=
  if text = old then new else text

variable {old new : String}

theorem replaced_eq_new {text : String} (spared : text ≠ new) :
    replaced old new text = new ↔ text = old := by
  unfold replaced
  split
  · next same => exact iff_of_true rfl same
  · next other => exact iff_of_false spared other

theorem replaced_inj {one other : String} (oneSpared : one ≠ new) (otherSpared : other ≠ new) :
    replaced old new one = replaced old new other ↔ one = other := by
  unfold replaced
  grind

/-- Texts that stay apart are listed once each in the same order. -/
theorem eraseDups_map {f : String → String} : (texts : List String) →
    (∀ one ∈ texts, ∀ other ∈ texts, f one = f other ↔ one = other) →
      (texts.map f).eraseDups = texts.eraseDups.map f
  | [], _ => rfl
  | first :: rest, apart => by
      have others : (rest.map f).filter (fun other => !other == f first)
          = (rest.filter fun other => !other == first).map f := by
        rw [List.filter_map]
        refine congrArg (List.map f) (List.filter_congr fun other member => ?_)
        simp [Bool.beq_eq_decide_eq, apart other (List.mem_cons_of_mem _ member) first
          List.mem_cons_self]
      have inRest := eraseDups_map (rest.filter fun other => !other == first)
        fun one member other member' =>
          apart one (List.mem_cons_of_mem _ (List.mem_filter.mp member).1) other
            (List.mem_cons_of_mem _ (List.mem_filter.mp member').1)
      rw [List.map_cons, List.eraseDups_cons, others, inRest, List.eraseDups_cons, List.map_cons]
termination_by texts => texts.length
decreasing_by exact Nat.lt_succ_of_le (List.length_filter_le ..)

namespace Renaming

variable {r : Renaming} {bound : List String} {role : Role}

/-- The renaming the other way round. -/
def back (r : Renaming) : Renaming :=
  ⟨r.role, r.new, r.old⟩

theorem apply_back {name : String} (fresh : r.new ∉ bound) (spared : r.new ≠ name) :
    r.back.apply bound role (r.apply bound role name) = name := by
  by_cases matched : name ∉ bound ∧ role = r.role ∧ name = r.old
  · have found : r.new ∉ bound ∧ role = r.back.role ∧ r.new = r.back.old :=
      ⟨fresh, matched.2.1, rfl⟩
    rw [apply_eq_new matched.1 matched.2, apply, if_pos found]
    exact matched.2.2.symm
  · have same : r.apply bound role name = name := if_neg matched
    rw [same, apply_of_unmatched fun again => spared again.2.symm]

/-- The way back is for the uses that were renamed. -/
theorem matches_back {use : Occurrence} (spared : r.new ≠ use.name) :
    (r.use use).role = r.role ∧ (r.use use).name = r.new ↔
      use.role = r.role ∧ use.name = r.old := by
  unfold Renaming.use
  split
  · next matched => exact iff_of_true ⟨matched.1, rfl⟩ matched
  · next unmatched => exact iff_of_false (fun again => spared again.2.symm) unmatched

theorem role_use (use : Occurrence) : (r.use use).role = use.role := by
  unfold Renaming.use
  split <;> rfl

theorem name_use {use : Occurrence} (sameRole : use.role = r.role) :
    (r.use use).name = replaced r.old r.new use.name := by
  unfold Renaming.use replaced
  simp only [sameRole, true_and]
  split <;> rfl

theorem name_use_of_ne {use : Occurrence} (other : use.role ≠ r.role) :
    (r.use use).name = use.name := by
  rw [Renaming.use, if_neg fun matched => other matched.1]

end Renaming

/-! ## Renaming -/

namespace Expr

variable {r : Renaming} {bound : List String}

mutual

theorem rename_back (fresh : r.new ∉ bound) : ∀ {role : Role} (e : Expr α), r.new ∉ e.mentions →
    (e.rename r bound role).rename r.back bound role = e
  | _, .ident node name, spared =>
      congrArg (ident node) (Renaming.apply_back fresh (List.ne_of_not_mem_cons spared))
  | _, .constant _ _, _ | _, .typeLiteral _ _, _ => rfl
  | _, .unary node op operand, spared => congrArg (unary node op) (rename_back fresh operand spared)
  | _, .binary node op left right, spared => by
      rw [mentions, List.mem_append, not_or] at spared
      rw [rename, rename, rename_back fresh left spared.1, rename_back fresh right spared.2]
  | _, .ternary node cond thenBranch elseBranch, spared => by
      rw [mentions, List.mem_append, List.mem_append, not_or, not_or] at spared
      rw [rename, rename, rename_back fresh cond spared.1.1,
        rename_back fresh thenBranch spared.1.2, rename_back fresh elseBranch spared.2]
  | _, .call node callee args, spared => by
      rw [mentions, List.mem_append, not_or] at spared
      rw [rename, rename, rename_back fresh callee spared.1, renameAll_back fresh args spared.2]
  | _, .array node items, spared => congrArg (array node) (renameAll_back fresh items spared)
  | _, .index node receiver subscript, spared => by
      rw [mentions, List.mem_append, not_or] at spared
      rw [rename, rename, rename_back fresh receiver spared.1,
        rename_back fresh subscript spared.2]

theorem renameAll_back (fresh : r.new ∉ bound) : ∀ es : List (Expr α), r.new ∉ mentionsAll es →
    renameAll r.back bound (renameAll r bound es) = es
  | [], _ => rfl
  | e :: rest, spared => by
      rw [mentionsAll, List.mem_append, not_or] at spared
      rw [renameAll, renameAll, rename_back fresh e spared.1, renameAll_back fresh rest spared.2]

end

theorem renameOption_back (fresh : r.new ∉ bound) : ∀ e : Option (Expr α),
    r.new ∉ mentionsOption e →
      (e.map (rename r bound .variable)).map (rename r.back bound .variable) = e
  | none, _ => rfl
  | some e, spared => congrArg some (rename_back fresh e spared)

mutual

theorem strings_rename : ∀ {role : Role} (e : Expr α), (e.rename r bound role).strings = e.strings
  | _, .ident _ _ | _, .constant _ _ | _, .typeLiteral _ _ => rfl
  | _, .unary _ _ operand => strings_rename operand
  | _, .binary _ _ left right | _, .index _ left right => by
      rw [rename, strings, strings, strings_rename left, strings_rename right]
  | _, .ternary _ cond thenBranch elseBranch => by
      rw [rename, strings, strings, strings_rename cond, strings_rename thenBranch,
        strings_rename elseBranch]
  | _, .call _ callee args => by
      rw [rename, strings, strings, strings_rename callee, stringsAll_rename args]
  | _, .array _ items => stringsAll_rename items

theorem stringsAll_rename : ∀ es : List (Expr α), stringsAll (renameAll r bound es) = stringsAll es
  | [] => rfl
  | e :: rest => by
      rw [renameAll, stringsAll, stringsAll, strings_rename e, stringsAll_rename rest]

end

theorem stringsOption_rename : ∀ e : Option (Expr α),
    stringsOption (e.map (rename r bound .variable)) = stringsOption e
  | none => rfl
  | some e => strings_rename e

end Expr

namespace Stmt

variable {r : Renaming}

mutual

theorem rename_back {bound : List String} (fresh : r.new ∉ bound) : ∀ s : Stmt α,
    r.new ∉ s.mentions → (s.rename r bound).rename r.back bound = s
  | .expr node e, spared => congrArg (expr node) (Expr.rename_back fresh e spared)
  | .varDecl node binder init, spared =>
      congrArg (varDecl node binder)
        (Expr.rename_back fresh init (List.not_mem_of_not_mem_cons spared))
  | .ret node value, spared => congrArg (ret node) (Expr.renameOption_back fresh value spared)
  | .ifElse node cond thenBranch elseBranch, spared => by
      simp only [mentions, List.mem_append, not_or] at spared
      rw [rename, rename, Expr.rename_back fresh cond spared.1.1,
        rename_back fresh thenBranch spared.1.2, renameOption_back fresh elseBranch spared.2]
  | .whileLoop node cond body, spared => by
      rw [mentions, List.mem_append, not_or] at spared
      rw [rename, rename, Expr.rename_back fresh cond spared.1, rename_back fresh body spared.2]
  | .doWhile node body cond, spared => by
      rw [mentions, List.mem_append, not_or] at spared
      rw [rename, rename, rename_back fresh body spared.1, Expr.rename_back fresh cond spared.2]
  | .forLoop node init cond step body, spared => by
      simp only [mentions, List.mem_append, not_or] at spared
      have inside := fresh_declaredOption fresh spared.1.1.1
      simp only [rename, declaredOption_rename, renameOption_back fresh init spared.1.1.1,
        Expr.renameOption_back inside cond spared.1.1.2,
        Expr.renameOption_back inside step spared.1.2, rename_back inside body spared.2]
  | .forEach node binder iterable body, spared => by
      simp only [mentions, List.mem_append, List.mem_cons, not_or] at spared
      have inside : r.new ∉ binder.name :: bound :=
        List.not_mem_cons_of_ne_of_not_mem spared.1.1 fresh
      rw [rename, rename, Expr.rename_back fresh iterable spared.1.2,
        rename_back inside body spared.2]
  | .brk _, _ | .cont _, _ => rfl
  | .block node stmts, spared => congrArg (block node) (renameAll_back fresh stmts spared)
  | .function node result name params body, spared => by
      simp only [mentions, List.mem_append, List.mem_cons, not_or] at spared
      have inside : r.new ∉ params.map Param.name ++ name :: bound := by
        simp only [List.mem_append, List.mem_cons, not_or]
        exact ⟨spared.1.2, spared.1.1, fresh⟩
      rw [rename, rename, renameAll_back inside body spared.2]

theorem renameOption_back {bound : List String} (fresh : r.new ∉ bound) : ∀ s : Option (Stmt α),
    r.new ∉ mentionsOption s → renameOption r.back bound (renameOption r bound s) = s
  | none, _ => rfl
  | some s, spared => congrArg some (rename_back fresh s spared)

theorem renameAll_back {bound : List String} (fresh : r.new ∉ bound) : ∀ stmts : List (Stmt α),
    r.new ∉ mentionsAll stmts → renameAll r.back bound (renameAll r bound stmts) = stmts
  | [], _ => rfl
  | s :: rest, spared => by
      rw [mentionsAll, List.mem_append, not_or] at spared
      rw [renameAll, renameAll, declared_rename, rename_back fresh s spared.1,
        renameAll_back (fresh_declared fresh spared.1) rest spared.2]

end

mutual

theorem strings_rename {bound : List String} : ∀ s : Stmt α,
    (s.rename r bound).strings = s.strings
  | .expr _ e | .varDecl _ _ e => Expr.strings_rename e
  | .ret _ value => Expr.stringsOption_rename value
  | .ifElse _ cond thenBranch elseBranch => by
      rw [rename, strings, strings, Expr.strings_rename cond, strings_rename thenBranch,
        stringsOption_rename elseBranch]
  | .whileLoop _ cond body | .doWhile _ body cond | .forEach _ _ cond body => by
      rw [rename, strings, strings, Expr.strings_rename cond, strings_rename body]
  | .forLoop _ init cond step body => by
      simp only [rename, strings, stringsOption_rename init, Expr.stringsOption_rename,
        strings_rename body]
  | .brk _ | .cont _ => rfl
  | .block _ stmts => stringsAll_rename stmts
  | .function _ _ _ _ body => stringsAll_rename body

theorem stringsOption_rename {bound : List String} : ∀ s : Option (Stmt α),
    stringsOption (renameOption r bound s) = stringsOption s
  | none => rfl
  | some s => strings_rename s

theorem stringsAll_rename {bound : List String} : ∀ stmts : List (Stmt α),
    stringsAll (renameAll r bound stmts) = stringsAll stmts
  | [] => rfl
  | s :: rest => by
      rw [renameAll, stringsAll, stringsAll, strings_rename s, stringsAll_rename rest]

end

end Stmt

namespace Program

variable {r : Renaming} {p : Program α}

theorem strings_rename (r : Renaming) (p : Program α) : (p.rename r).2.strings = p.strings := by
  simp only [rename, strings, Stmt.stringsAll_rename, Expr.stringsOption_rename]

/-- In the list that the renaming is for, the new name stands where the old one did. -/
theorem freeNames_rename (spared : r.new ∉ p.mentions) :
    (p.rename r).2.freeNames r.role = (p.freeNames r.role).map (replaced r.old r.new) := by
  have names : ((p.rename r).2.free.filter fun use => use.role = r.role).map Occurrence.name =
      ((p.free.filter fun use => use.role = r.role).map Occurrence.name).map
        (replaced r.old r.new) := by
    rw [free_rename spared, List.filter_map, List.map_map, List.map_map]
    simp only [Function.comp_def, Renaming.role_use]
    refine List.map_congr_left fun use member => ?_
    exact Renaming.name_use (of_decide_eq_true (List.mem_filter.mp member).2)
  rw [freeNames, names, freeNames]
  have unlisted : ∀ name ∈ (p.free.filter fun use => use.role = r.role).map Occurrence.name,
      name ≠ r.new := by
    intro name member same
    obtain ⟨use, isUse, rfl⟩ := List.mem_map.mp member
    exact spared (same ▸ mem_mentions_of_free (List.mem_filter.mp isUse).1)
  exact eraseDups_map _ fun one member other member' =>
    replaced_inj (unlisted one member) (unlisted other member')

theorem freeNames_rename_of_ne (spared : r.new ∉ p.mentions) {role : Role} (other : role ≠ r.role) :
    (p.rename r).2.freeNames role = p.freeNames role := by
  have names : ((p.rename r).2.free.filter fun use => use.role = role).map Occurrence.name =
      (p.free.filter fun use => use.role = role).map Occurrence.name := by
    rw [free_rename spared, List.filter_map, List.map_map]
    simp only [Function.comp_def, Renaming.role_use]
    refine List.map_congr_left fun use member => Renaming.name_use_of_ne ?_
    rw [of_decide_eq_true (List.mem_filter.mp member).2]
    exact other
  rw [freeNames, names, freeNames]

/-- Renaming the other way round renames as many uses, and gives the formula back. -/
theorem rename_back (spared : r.new ∉ p.mentions) :
    (p.rename r).2.rename r.back = ((p.rename r).1, p) := by
  have count : ((p.rename r).2.rename r.back).1 = (p.rename r).1 := by
    change (p.rename r).2.free.countP _ = _
    rw [free_rename spared, List.countP_map]
    refine List.countP_congr fun use member => ?_
    have unlisted : r.new ≠ use.name := fun same => spared (same ▸ mem_mentions_of_free member)
    simp only [Function.comp_apply, Bool.and_eq_true, decide_eq_true_eq]
    exact Renaming.matches_back unlisted
  refine Prod.ext count ?_
  rw [mentions, List.mem_append, not_or] at spared
  have after : r.new ∉ Stmt.boundAfter [] p.body :=
    Stmt.fresh_boundAfter List.not_mem_nil spared.1
  simp only [rename, Stmt.boundAfter_rename, Stmt.renameAll_back List.not_mem_nil _ spared.1,
    Expr.renameOption_back after _ spared.2]

end Program

/-! ## Requoting -/

/-- Source has no literals for dates and durations. -/
theorem Constant.eq_string_of_isRead {value : Constant} {text : String}
    (read : (ExprForm.constant value).IsRead) (quotes : value.text? = some text) :
    value = .string text := by
  cases value with
  | string text =>
      cases quotes
      rfl
  | date | duration => exact read.elim
  | _ => cases quotes

namespace Expr

theorem text_requoteConstant (value : Constant) :
    (requoteConstant old new value).text?.toList = value.text?.toList.map (replaced old new) := by
  unfold requoteConstant
  split
  · next quotes =>
      rw [quotes]
      simp [Constant.text?, replaced]
  · next silent =>
      cases quoted : value.text? with
      | none => rfl
      | some text =>
          have kept : text ≠ old := fun same => silent (quoted.trans (congrArg some same))
          simp [replaced, kept]

theorem requoteConstant_back {value : Constant} (spared : new ∉ value.text?.toList)
    (read : (ExprForm.constant value).IsRead) :
    requoteConstant new old (requoteConstant old new value) = value := by
  by_cases quotes : value.text? = some old
  · rw [Constant.eq_string_of_isRead read quotes]
    simp [requoteConstant, Constant.text?]
  · have same : requoteConstant old new value = value := if_neg quotes
    have other : value.text? ≠ some new := fun again =>
      spared (again ▸ List.mem_singleton_self new)
    rw [same, requoteConstant, if_neg other]

mutual

theorem requote_back : ∀ e : Expr α, new ∉ e.strings → (∀ entry ∈ e.entries, entry.form.IsRead) →
    (e.requote old new).requote new old = e
  | .ident _ _, _, _ | .typeLiteral _ _, _, _ => rfl
  | .constant node value, spared, read =>
      congrArg (constant node) (requoteConstant_back spared (read _ List.mem_cons_self))
  | .unary node op operand, spared, read =>
      congrArg (unary node op) (requote_back operand spared (List.forall_mem_cons.mp read).2)
  | .binary node op left right, spared, read => by
      have parts := List.forall_mem_append.mp (List.forall_mem_cons.mp read).2
      rw [strings, List.mem_append, not_or] at spared
      rw [requote, requote, requote_back left spared.1 parts.1,
        requote_back right spared.2 parts.2]
  | .ternary node cond thenBranch elseBranch, spared, read => by
      have parts := List.forall_mem_append.mp (List.forall_mem_cons.mp read).2
      have before := List.forall_mem_append.mp parts.1
      rw [strings, List.mem_append, List.mem_append, not_or, not_or] at spared
      rw [requote, requote, requote_back cond spared.1.1 before.1,
        requote_back thenBranch spared.1.2 before.2, requote_back elseBranch spared.2 parts.2]
  | .call node callee args, spared, read => by
      have parts := List.forall_mem_append.mp (List.forall_mem_cons.mp read).2
      rw [strings, List.mem_append, not_or] at spared
      rw [requote, requote, requote_back callee spared.1 parts.1,
        requoteAll_back args spared.2 parts.2]
  | .array node items, spared, read =>
      congrArg (array node) (requoteAll_back items spared (List.forall_mem_cons.mp read).2)
  | .index node receiver subscript, spared, read => by
      have parts := List.forall_mem_append.mp (List.forall_mem_cons.mp read).2
      rw [strings, List.mem_append, not_or] at spared
      rw [requote, requote, requote_back receiver spared.1 parts.1,
        requote_back subscript spared.2 parts.2]

theorem requoteAll_back : ∀ es : List (Expr α), new ∉ stringsAll es →
    (∀ entry ∈ entriesAll es, entry.form.IsRead) →
      requoteAll new old (requoteAll old new es) = es
  | [], _, _ => rfl
  | e :: rest, spared, read => by
      have parts := List.forall_mem_append.mp read
      rw [stringsAll, List.mem_append, not_or] at spared
      rw [requoteAll, requoteAll, requote_back e spared.1 parts.1,
        requoteAll_back rest spared.2 parts.2]

end

theorem requoteOption_back : ∀ e : Option (Expr α), new ∉ stringsOption e →
    (∀ entry ∈ entriesOption e, entry.form.IsRead) →
      (e.map (requote old new)).map (requote new old) = e
  | none, _, _ => rfl
  | some e, spared, read => congrArg some (requote_back e spared read)

mutual

theorem strings_requote : ∀ e : Expr α,
    (e.requote old new).strings = e.strings.map (replaced old new)
  | .ident _ _ | .typeLiteral _ _ => rfl
  | .constant _ value => text_requoteConstant value
  | .unary _ _ operand => strings_requote operand
  | .binary _ _ left right | .index _ left right => by
      rw [requote, strings, strings, List.map_append, strings_requote left, strings_requote right]
  | .ternary _ cond thenBranch elseBranch => by
      rw [requote, strings, strings, List.map_append, List.map_append, strings_requote cond,
        strings_requote thenBranch, strings_requote elseBranch]
  | .call _ callee args => by
      rw [requote, strings, strings, List.map_append, strings_requote callee,
        stringsAll_requote args]
  | .array _ items => stringsAll_requote items

theorem stringsAll_requote : ∀ es : List (Expr α),
    stringsAll (requoteAll old new es) = (stringsAll es).map (replaced old new)
  | [] => rfl
  | e :: rest => by
      rw [requoteAll, stringsAll, stringsAll, List.map_append, strings_requote e,
        stringsAll_requote rest]

end

theorem stringsOption_requote : ∀ e : Option (Expr α),
    stringsOption (e.map (requote old new)) = (stringsOption e).map (replaced old new)
  | none => rfl
  | some e => strings_requote e

mutual

theorem free_requote {bound : List String} : ∀ {role : Role} (e : Expr α),
    (e.requote old new).free bound role = e.free bound role
  | _, .ident _ _ | _, .constant _ _ | _, .typeLiteral _ _ => rfl
  | _, .unary _ _ operand => free_requote operand
  | _, .binary _ _ left right | _, .index _ left right => by
      rw [requote, free, free, free_requote left, free_requote right]
  | _, .ternary _ cond thenBranch elseBranch => by
      rw [requote, free, free, free_requote cond, free_requote thenBranch,
        free_requote elseBranch]
  | _, .call _ callee args => by
      rw [requote, free, free, free_requote callee, freeAll_requote args]
  | _, .array _ items => freeAll_requote items

theorem freeAll_requote {bound : List String} : ∀ es : List (Expr α),
    freeAll bound (requoteAll old new es) = freeAll bound es
  | [] => rfl
  | e :: rest => by
      rw [requoteAll, freeAll, freeAll, free_requote e, freeAll_requote rest]

end

theorem freeOption_requote {bound : List String} : ∀ e : Option (Expr α),
    freeOption bound (e.map (requote old new)) = freeOption bound e
  | none => rfl
  | some e => free_requote e

end Expr

namespace Stmt

mutual

theorem requote_back : ∀ s : Stmt α, new ∉ s.strings →
    (∀ entry ∈ s.exprEntries, entry.form.IsRead) → (s.requote old new).requote new old = s
  | .expr node e, spared, read => congrArg (expr node) (e.requote_back spared read)
  | .varDecl node binder init, spared, read =>
      congrArg (varDecl node binder) (init.requote_back spared read)
  | .ret node value, spared, read => congrArg (ret node) (Expr.requoteOption_back value spared read)
  | .ifElse node cond thenBranch elseBranch, spared, read => by
      simp only [strings, List.mem_append, not_or] at spared
      rw [exprEntries, List.forall_mem_append, List.forall_mem_append] at read
      rw [requote, requote, cond.requote_back spared.1.1 read.1.1,
        requote_back thenBranch spared.1.2 read.1.2,
        requoteOption_back elseBranch spared.2 read.2]
  | .whileLoop node cond body, spared, read | .forEach node _ cond body, spared, read => by
      rw [strings, List.mem_append, not_or] at spared
      rw [exprEntries, List.forall_mem_append] at read
      rw [requote, requote, cond.requote_back spared.1 read.1, requote_back body spared.2 read.2]
  | .doWhile node body cond, spared, read => by
      rw [strings, List.mem_append, not_or] at spared
      rw [exprEntries, List.forall_mem_append] at read
      rw [requote, requote, requote_back body spared.1 read.1, cond.requote_back spared.2 read.2]
  | .forLoop node init cond step body, spared, read => by
      simp only [strings, List.mem_append, not_or] at spared
      rw [exprEntries, List.forall_mem_append, List.forall_mem_append,
        List.forall_mem_append] at read
      rw [requote, requote, requoteOption_back init spared.1.1.1 read.1.1.1,
        Expr.requoteOption_back cond spared.1.1.2 read.1.1.2,
        Expr.requoteOption_back step spared.1.2 read.1.2, requote_back body spared.2 read.2]
  | .brk _, _, _ | .cont _, _, _ => rfl
  | .block node stmts, spared, read => congrArg (block node) (requoteAll_back stmts spared read)
  | .function node result name params body, spared, read =>
      congrArg (function node result name params) (requoteAll_back body spared read)

theorem requoteOption_back : ∀ s : Option (Stmt α), new ∉ stringsOption s →
    (∀ entry ∈ exprEntriesOption s, entry.form.IsRead) →
      requoteOption new old (requoteOption old new s) = s
  | none, _, _ => rfl
  | some s, spared, read => congrArg some (requote_back s spared read)

theorem requoteAll_back : ∀ stmts : List (Stmt α), new ∉ stringsAll stmts →
    (∀ entry ∈ exprEntriesAll stmts, entry.form.IsRead) →
      requoteAll new old (requoteAll old new stmts) = stmts
  | [], _, _ => rfl
  | s :: rest, spared, read => by
      rw [stringsAll, List.mem_append, not_or] at spared
      rw [exprEntriesAll, List.forall_mem_append] at read
      rw [requoteAll, requoteAll, requote_back s spared.1 read.1,
        requoteAll_back rest spared.2 read.2]

end

mutual

theorem strings_requote : ∀ s : Stmt α,
    (s.requote old new).strings = s.strings.map (replaced old new)
  | .expr _ e | .varDecl _ _ e => e.strings_requote
  | .ret _ value => Expr.stringsOption_requote value
  | .ifElse _ cond thenBranch elseBranch => by
      rw [requote, strings, strings, List.map_append, List.map_append, cond.strings_requote,
        strings_requote thenBranch, stringsOption_requote elseBranch]
  | .whileLoop _ cond body | .doWhile _ body cond | .forEach _ _ cond body => by
      rw [requote, strings, strings, List.map_append, cond.strings_requote, strings_requote body]
  | .forLoop _ init cond step body => by
      simp only [requote, strings, List.map_append, stringsOption_requote init,
        Expr.stringsOption_requote, strings_requote body]
  | .brk _ | .cont _ => rfl
  | .block _ stmts => stringsAll_requote stmts
  | .function _ _ _ _ body => stringsAll_requote body

theorem stringsOption_requote : ∀ s : Option (Stmt α),
    stringsOption (requoteOption old new s) = (stringsOption s).map (replaced old new)
  | none => rfl
  | some s => strings_requote s

theorem stringsAll_requote : ∀ stmts : List (Stmt α),
    stringsAll (requoteAll old new stmts) = (stringsAll stmts).map (replaced old new)
  | [] => rfl
  | s :: rest => by
      rw [requoteAll, stringsAll, stringsAll, List.map_append, strings_requote s,
        stringsAll_requote rest]

end

@[simp]
theorem declared_requote (s : Stmt α) : (s.requote old new).declared = s.declared := by
  cases s <;> rfl

@[simp]
theorem declaredOption_requote (s : Option (Stmt α)) :
    declaredOption (requoteOption old new s) = declaredOption s := by
  cases s with
  | none => rfl
  | some s => exact declared_requote s

@[simp]
theorem boundAfter_requote (bound : List String) (stmts : List (Stmt α)) :
    boundAfter bound (requoteAll old new stmts) = boundAfter bound stmts := by
  induction stmts generalizing bound with
  | nil => rfl
  | cons s rest inductionHypothesis =>
      rw [requoteAll, boundAfter, List.foldl_cons, declared_requote]
      exact inductionHypothesis (s.declared ++ bound)

mutual

theorem free_requote {bound : List String} : ∀ s : Stmt α,
    (s.requote old new).free bound = s.free bound
  | .expr _ e | .varDecl _ _ e => e.free_requote
  | .ret _ value => Expr.freeOption_requote value
  | .ifElse _ cond thenBranch elseBranch => by
      rw [requote, free, free, cond.free_requote, free_requote thenBranch,
        freeOption_requote elseBranch]
  | .whileLoop _ cond body | .doWhile _ body cond | .forEach _ _ cond body => by
      rw [requote, free, free, cond.free_requote, free_requote body]
  | .forLoop _ init cond step body => by
      simp only [requote, free, declaredOption_requote, freeOption_requote init,
        Expr.freeOption_requote, free_requote body]
  | .brk _ | .cont _ => rfl
  | .block _ stmts => freeAll_requote stmts
  | .function _ _ _ _ body => freeAll_requote body

theorem freeOption_requote {bound : List String} : ∀ s : Option (Stmt α),
    freeOption bound (requoteOption old new s) = freeOption bound s
  | none => rfl
  | some s => free_requote s

theorem freeAll_requote {bound : List String} : ∀ stmts : List (Stmt α),
    freeAll bound (requoteAll old new stmts) = freeAll bound stmts
  | [] => rfl
  | s :: rest => by
      rw [requoteAll, freeAll, freeAll, declared_requote, free_requote s, freeAll_requote rest]

end

end Stmt

/-! ## Texts among the entries -/

namespace ExprEntry

/-- The text that an entry quotes, if it is a literal with quotes. -/
def text? (entry : ExprEntry) : Option String :=
  match entry.form with
  | .constant value => value.text?
  | _ => none

/-- The numbers of the entries that quote the text. -/
def quoting (text : String) (entries : List ExprEntry) : List Nat :=
  numbers (entries.filter fun entry => entry.text? = some text)

@[simp]
theorem quoting_append (text : String) (entries more : List ExprEntry) :
    quoting text (entries ++ more) = quoting text entries ++ quoting text more := by
  simp [quoting]

theorem length_quoting (text : String) (entries : List ExprEntry) :
    (quoting text entries).length = (entries.filterMap text?).count text := by
  rw [quoting, numbers, List.length_map, ← List.countP_eq_length_filter, List.count,
    List.countP_filterMap]
  refine List.countP_congr fun entry _ => ?_
  cases entry.text? <;> simp

end ExprEntry

namespace Expr

mutual

theorem texts_entries : ∀ e : Expr α, e.entries.filterMap ExprEntry.text? = e.strings
  | .ident _ _ | .typeLiteral _ _ => rfl
  | .constant node value => by
      have single : (Expr.constant node value).entries.filterMap ExprEntry.text? =
          [value].filterMap Constant.text? := rfl
      rw [single, strings]
      cases quoted : value.text? <;> simp [quoted]
  | .unary _ _ operand => texts_entries operand
  | .binary node op left right => by
      have parts : (Expr.binary node op left right).entries.filterMap ExprEntry.text? =
          (left.entries ++ right.entries).filterMap ExprEntry.text? := rfl
      rw [parts, List.filterMap_append, texts_entries left, texts_entries right, strings]
  | .ternary node cond thenBranch elseBranch => by
      have parts : (Expr.ternary node cond thenBranch elseBranch).entries.filterMap
          ExprEntry.text? = (cond.entries ++ thenBranch.entries ++ elseBranch.entries).filterMap
            ExprEntry.text? := rfl
      rw [parts, List.filterMap_append, List.filterMap_append, texts_entries cond,
        texts_entries thenBranch, texts_entries elseBranch, strings]
  | .call node callee args => by
      have parts : (Expr.call node callee args).entries.filterMap ExprEntry.text? =
          (callee.entries ++ entriesAll args).filterMap ExprEntry.text? := rfl
      rw [parts, List.filterMap_append, texts_entries callee, texts_entriesAll args, strings]
  | .array _ items => texts_entriesAll items
  | .index node receiver subscript => by
      have parts : (Expr.index node receiver subscript).entries.filterMap ExprEntry.text? =
          (receiver.entries ++ subscript.entries).filterMap ExprEntry.text? := rfl
      rw [parts, List.filterMap_append, texts_entries receiver, texts_entries subscript, strings]

theorem texts_entriesAll : ∀ es : List (Expr α),
    (entriesAll es).filterMap ExprEntry.text? = stringsAll es
  | [] => rfl
  | e :: rest => by
      have parts : entriesAll (e :: rest) = e.entries ++ entriesAll rest := rfl
      rw [parts, List.filterMap_append, texts_entries e, texts_entriesAll rest, stringsAll]

end

theorem texts_entriesOption : ∀ e : Option (Expr α),
    (entriesOption e).filterMap ExprEntry.text? = stringsOption e
  | none => rfl
  | some e => texts_entries e

end Expr

namespace Stmt

mutual

theorem texts_exprEntries : ∀ s : Stmt α, s.exprEntries.filterMap ExprEntry.text? = s.strings
  | .expr _ e | .varDecl _ _ e => e.texts_entries
  | .ret _ value => Expr.texts_entriesOption value
  | .ifElse _ cond thenBranch elseBranch => by
      rw [exprEntries, strings, List.filterMap_append, List.filterMap_append, cond.texts_entries,
        texts_exprEntries thenBranch, texts_exprEntriesOption elseBranch]
  | .whileLoop _ cond body | .doWhile _ body cond | .forEach _ _ cond body => by
      rw [exprEntries, strings, List.filterMap_append, cond.texts_entries, texts_exprEntries body]
  | .forLoop _ init cond step body => by
      simp only [exprEntries, strings, List.filterMap_append, texts_exprEntriesOption init,
        Expr.texts_entriesOption, texts_exprEntries body]
  | .brk _ | .cont _ => rfl
  | .block _ stmts => texts_exprEntriesAll stmts
  | .function _ _ _ _ body => texts_exprEntriesAll body

theorem texts_exprEntriesOption : ∀ s : Option (Stmt α),
    (exprEntriesOption s).filterMap ExprEntry.text? = stringsOption s
  | none => rfl
  | some s => texts_exprEntries s

theorem texts_exprEntriesAll : ∀ stmts : List (Stmt α),
    (exprEntriesAll stmts).filterMap ExprEntry.text? = stringsAll stmts
  | [] => rfl
  | s :: rest => by
      rw [exprEntriesAll, stringsAll, List.filterMap_append, texts_exprEntries s,
        texts_exprEntriesAll rest]

end

end Stmt

namespace Program

variable {p : Program α}

/-- In the list of texts, the new one stands where the old one did. -/
theorem strings_requote (old new : String) (p : Program α) :
    (p.requote old new).2.strings = p.strings.map (replaced old new) := by
  simp only [requote, strings, List.map_append, Stmt.stringsAll_requote,
    Expr.stringsOption_requote]

theorem freeNames_requote (old new : String) (p : Program α) (role : Role) :
    (p.requote old new).2.freeNames role = p.freeNames role := by
  have uses : (p.requote old new).2.free = p.free := by
    simp only [requote, free, Stmt.boundAfter_requote, Stmt.freeAll_requote,
      Expr.freeOption_requote]
  rw [freeNames, freeNames, uses]

/-- Requoting counts the entries that quote the text. -/
theorem count_requote (old new : String) (p : Program α) :
    (p.requote old new).1 = (ExprEntry.quoting old p.entries).length := by
  have texts : p.entries.filterMap ExprEntry.text? = p.strings := by
    rw [entries, strings, List.filterMap_append, Stmt.texts_exprEntriesAll,
      Expr.texts_entriesOption]
  rw [ExprEntry.length_quoting, texts, requote]

/-- Requoting the other way round requotes as many literals, and gives the formula back. -/
theorem requote_back (spared : new ∉ p.strings)
    (read : ∀ entry ∈ p.entries, entry.form.IsRead) :
    (p.requote old new).2.requote new old = ((p.requote old new).1, p) := by
  have count : ((p.requote old new).2.requote new old).1 = (p.requote old new).1 := by
    change (p.requote old new).2.strings.count new = p.strings.count old
    rw [strings_requote, List.count, List.count, List.countP_map]
    refine List.countP_congr fun text member => ?_
    have unquoted : text ≠ new := fun same => spared (same ▸ member)
    simp only [Function.comp_apply, beq_iff_eq]
    exact replaced_eq_new unquoted
  refine Prod.ext count ?_
  rw [strings, List.mem_append, not_or] at spared
  rw [entries, List.forall_mem_append] at read
  simp only [requote, Stmt.requoteAll_back _ spared.1 read.1,
    Expr.requoteOption_back _ spared.2 read.2]

end Program

end Formulae
