import Formulae.Tree.Rename

/-!
# Names that stand in a tree

A tree mentions the names that it uses and those that it declares, wherever they stand
(`Program.mentions`).  Renaming to a name that a tree does not mention renames its free uses
one by one and captures none of them (`Program.free_rename`).
-/

namespace Formulae

variable {α : Type} {r : Renaming} {bound : List String} {role : Role}

namespace Renaming

/-- The use after the renaming. -/
def use (r : Renaming) (use : Occurrence) : Occurrence :=
  if use.role = r.role ∧ use.name = r.old then { use with name := r.new } else use

theorem apply_eq_new {name : String} (undeclared : name ∉ bound)
    (matched : role = r.role ∧ name = r.old) : r.apply bound role name = r.new :=
  if_pos ⟨undeclared, matched⟩

theorem apply_of_mem {name : String} (declared : name ∈ bound) :
    r.apply bound role name = name :=
  if_neg fun matched => matched.1 declared

theorem apply_of_unmatched {name : String} (unmatched : ¬ (role = r.role ∧ name = r.old)) :
    r.apply bound role name = name :=
  if_neg fun matched => unmatched matched.2

/-- A variable that is renamed is not what is called. -/
theorem apply_callee (ofVariables : r.role = .variable) (name : String) :
    r.apply bound .callee name = name := by
  apply apply_of_unmatched
  rintro ⟨ofCallees, -⟩
  cases ofCallees.trans ofVariables

end Renaming

namespace Expr

mutual

/-- The names that stand in an expression, in source order. -/
def mentions : Expr α → List String
  | .ident _ name => [name]
  | .constant _ _ | .typeLiteral _ _ => []
  | .unary _ _ operand => operand.mentions
  | .binary _ _ left right => left.mentions ++ right.mentions
  | .ternary _ cond thenBranch elseBranch =>
      cond.mentions ++ thenBranch.mentions ++ elseBranch.mentions
  | .call _ callee args => callee.mentions ++ mentionsAll args
  | .array _ items => mentionsAll items
  | .index _ receiver subscript => receiver.mentions ++ subscript.mentions

/-- The names that stand in several expressions. -/
def mentionsAll : List (Expr α) → List String
  | [] => []
  | e :: rest => e.mentions ++ mentionsAll rest

end

/-- The names that stand in an expression that may be missing. -/
def mentionsOption (e : Option (Expr α)) : List String :=
  (e.map mentions).getD []

mutual

theorem mem_mentions_of_free {use : Occurrence} : ∀ {role : Role} (e : Expr α),
    use ∈ e.free bound role → use.name ∈ e.mentions
  | _, .ident node name, member => by
      rw [free, occurrence] at member
      split at member
      · cases member
      · cases List.mem_singleton.mp member
        exact List.mem_singleton_self name
  | _, .constant _ _, member | _, .typeLiteral _ _, member => nomatch member
  | _, .unary _ _ operand, member => mem_mentions_of_free operand member
  | _, .binary _ _ left right, member | _, .index _ left right, member =>
      List.mem_append.mpr ((List.mem_append.mp member).imp (mem_mentions_of_free left)
        (mem_mentions_of_free right))
  | _, .ternary _ cond thenBranch elseBranch, member =>
      List.mem_append.mpr ((List.mem_append.mp member).imp
        (fun member => List.mem_append.mpr ((List.mem_append.mp member).imp
          (mem_mentions_of_free cond) (mem_mentions_of_free thenBranch)))
        (mem_mentions_of_free elseBranch))
  | _, .call _ callee args, member =>
      List.mem_append.mpr ((List.mem_append.mp member).imp (mem_mentions_of_free callee)
        (mem_mentionsAll_of_free args))
  | _, .array _ items, member => mem_mentionsAll_of_free items member

theorem mem_mentionsAll_of_free {use : Occurrence} : ∀ es : List (Expr α),
    use ∈ freeAll bound es → use.name ∈ mentionsAll es
  | [], member => nomatch member
  | e :: rest, member =>
      List.mem_append.mpr ((List.mem_append.mp member).imp (mem_mentions_of_free e)
        (mem_mentionsAll_of_free rest))

end

theorem mem_mentionsOption_of_free {use : Occurrence} : ∀ e : Option (Expr α),
    use ∈ freeOption bound e → use.name ∈ mentionsOption e
  | none, member => nomatch member
  | some e, member => mem_mentions_of_free e member

theorem occurrence_rename (fresh : r.new ∉ bound) (role : Role) (node : Node α) (name : String) :
    occurrence bound role node (r.apply bound role name) =
      (occurrence bound role node name).map r.use := by
  by_cases declared : name ∈ bound
  · rw [Renaming.apply_of_mem declared, occurrence, if_pos declared, List.map_nil]
  · by_cases matched : role = r.role ∧ name = r.old
    · rw [Renaming.apply_eq_new declared matched, occurrence, occurrence, if_neg fresh,
        if_neg declared, List.map_singleton, Renaming.use, if_pos matched]
    · rw [Renaming.apply_of_unmatched matched, occurrence, if_neg declared, List.map_singleton,
        Renaming.use, if_neg matched]

mutual

theorem free_rename (fresh : r.new ∉ bound) : ∀ {role : Role} (e : Expr α),
    (e.rename r bound role).free bound role = (e.free bound role).map r.use
  | _, .ident node name => occurrence_rename fresh _ node name
  | _, .constant _ _ | _, .typeLiteral _ _ => rfl
  | _, .unary _ _ operand => free_rename fresh operand
  | _, .binary _ _ left right => by
      rw [rename, free, free, List.map_append, free_rename fresh left, free_rename fresh right]
  | _, .ternary _ cond thenBranch elseBranch => by
      rw [rename, free, free, List.map_append, List.map_append, free_rename fresh cond,
        free_rename fresh thenBranch, free_rename fresh elseBranch]
  | _, .call _ callee args => by
      rw [rename, free, free, List.map_append, free_rename fresh callee, freeAll_rename fresh args]
  | _, .array _ items => freeAll_rename fresh items
  | _, .index _ receiver subscript => by
      rw [rename, free, free, List.map_append, free_rename fresh receiver,
        free_rename fresh subscript]

theorem freeAll_rename (fresh : r.new ∉ bound) : ∀ es : List (Expr α),
    freeAll bound (renameAll r bound es) = (freeAll bound es).map r.use
  | [] => rfl
  | e :: rest => by
      rw [renameAll, freeAll, freeAll, List.map_append, free_rename fresh e,
        freeAll_rename fresh rest]

end

theorem freeOption_rename (fresh : r.new ∉ bound) (e : Option (Expr α)) :
    freeOption bound (e.map (rename r bound .variable)) = (freeOption bound e).map r.use := by
  cases e with
  | none => rfl
  | some e => exact free_rename fresh e

end Expr

namespace Stmt

mutual

/-- The names that stand in a statement, those it declares included. -/
def mentions : Stmt α → List String
  | .expr _ e => e.mentions
  | .varDecl _ binder init => binder.name :: init.mentions
  | .ret _ value => Expr.mentionsOption value
  | .ifElse _ cond thenBranch elseBranch =>
      cond.mentions ++ thenBranch.mentions ++ mentionsOption elseBranch
  | .whileLoop _ cond body => cond.mentions ++ body.mentions
  | .doWhile _ body cond => body.mentions ++ cond.mentions
  | .forLoop _ init cond step body =>
      mentionsOption init ++ Expr.mentionsOption cond ++ Expr.mentionsOption step ++ body.mentions
  | .forEach _ binder iterable body => binder.name :: iterable.mentions ++ body.mentions
  | .brk _ | .cont _ => []
  | .block _ stmts => mentionsAll stmts
  | .function _ _ name params body => name :: params.map Param.name ++ mentionsAll body

/-- The names that stand in a statement that may be missing. -/
def mentionsOption : Option (Stmt α) → List String
  | none => []
  | some s => s.mentions

/-- The names that stand in several statements. -/
def mentionsAll : List (Stmt α) → List String
  | [] => []
  | s :: rest => s.mentions ++ mentionsAll rest

end

@[simp]
theorem declared_rename (s : Stmt α) : (s.rename r bound).declared = s.declared := by
  cases s <;> rfl

@[simp]
theorem declaredOption_rename (s : Option (Stmt α)) :
    declaredOption (renameOption r bound s) = declaredOption s := by
  cases s with
  | none => rfl
  | some s => exact declared_rename s

@[simp]
theorem boundAfter_rename (bound : List String) (stmts : List (Stmt α)) :
    boundAfter bound (renameAll r bound stmts) = boundAfter bound stmts := by
  induction stmts generalizing bound with
  | nil => rfl
  | cons s rest inductionHypothesis =>
      rw [renameAll, boundAfter, List.foldl_cons, declared_rename]
      exact inductionHypothesis (s.declared ++ bound)

theorem declared_subset_mentions : ∀ s : Stmt α, s.declared ⊆ s.mentions
  | .varDecl _ _ _ => List.cons_subset_cons _ (List.nil_subset _)
  | .function _ _ _ _ _ => List.cons_subset_cons _ (List.nil_subset _)
  | .expr .. | .ret .. | .ifElse .. | .whileLoop .. | .doWhile .. | .forLoop .. | .forEach ..
  | .brk .. | .cont .. | .block .. => List.nil_subset _

/-- What a statement declares is not fresh for the statements after it. -/
theorem fresh_declared {x : String} (fresh : x ∉ bound) {s : Stmt α} (spared : x ∉ s.mentions) :
    x ∉ s.declared ++ bound := by
  rw [List.mem_append, not_or]
  exact ⟨fun declared => spared (declared_subset_mentions s declared), fresh⟩

theorem fresh_declaredOption {x : String} (fresh : x ∉ bound) {s : Option (Stmt α)}
    (spared : x ∉ mentionsOption s) : x ∉ declaredOption s ++ bound := by
  cases s with
  | none => exact fresh
  | some s => exact fresh_declared fresh spared

theorem fresh_boundAfter {x : String} (fresh : x ∉ bound) {stmts : List (Stmt α)}
    (spared : x ∉ mentionsAll stmts) : x ∉ boundAfter bound stmts := by
  induction stmts generalizing bound with
  | nil => exact fresh
  | cons s rest inductionHypothesis =>
      rw [mentionsAll, List.mem_append, not_or] at spared
      exact inductionHypothesis (fresh_declared fresh spared.1) spared.2

mutual

theorem mem_mentions_of_free {use : Occurrence} {bound : List String} : ∀ s : Stmt α,
    use ∈ s.free bound → use.name ∈ s.mentions
  | .expr _ e, member => Expr.mem_mentions_of_free e member
  | .varDecl _ _ init, member => List.mem_cons_of_mem _ (Expr.mem_mentions_of_free init member)
  | .ret _ value, member => Expr.mem_mentionsOption_of_free value member
  | .ifElse _ cond thenBranch elseBranch, member =>
      List.mem_append.mpr ((List.mem_append.mp member).imp
        (fun member => List.mem_append.mpr ((List.mem_append.mp member).imp
          (Expr.mem_mentions_of_free cond) (mem_mentions_of_free thenBranch)))
        (mem_mentionsOption_of_free elseBranch))
  | .whileLoop _ cond body, member =>
      List.mem_append.mpr ((List.mem_append.mp member).imp (Expr.mem_mentions_of_free cond)
        (mem_mentions_of_free body))
  | .doWhile _ body cond, member =>
      List.mem_append.mpr ((List.mem_append.mp member).imp (mem_mentions_of_free body)
        (Expr.mem_mentions_of_free cond))
  | .forLoop _ init cond step body, member => by
      simp only [free, List.mem_append] at member
      simp only [mentions, List.mem_append]
      exact member.imp (fun member => member.imp
          (fun member => member.imp (mem_mentionsOption_of_free init)
            (Expr.mem_mentionsOption_of_free cond))
          (Expr.mem_mentionsOption_of_free step))
        (mem_mentions_of_free body)
  | .forEach _ _ iterable body, member =>
      List.mem_append.mpr ((List.mem_append.mp member).imp
        (fun member => List.mem_cons_of_mem _ (Expr.mem_mentions_of_free iterable member))
        (mem_mentions_of_free body))
  | .brk _, member | .cont _, member => nomatch member
  | .block _ stmts, member => mem_mentionsAll_of_free stmts member
  | .function _ _ _ _ body, member => List.mem_append_right _ (mem_mentionsAll_of_free body member)

theorem mem_mentionsOption_of_free {use : Occurrence} {bound : List String} :
    ∀ s : Option (Stmt α), use ∈ freeOption bound s → use.name ∈ mentionsOption s
  | none, member => nomatch member
  | some s, member => mem_mentions_of_free s member

theorem mem_mentionsAll_of_free {use : Occurrence} {bound : List String} :
    ∀ stmts : List (Stmt α), use ∈ freeAll bound stmts → use.name ∈ mentionsAll stmts
  | [], member => nomatch member
  | s :: rest, member =>
      List.mem_append.mpr ((List.mem_append.mp member).imp (mem_mentions_of_free s)
        (mem_mentionsAll_of_free rest))

end

mutual

theorem free_rename {bound : List String} (fresh : r.new ∉ bound) : ∀ s : Stmt α,
    r.new ∉ s.mentions → (s.rename r bound).free bound = (s.free bound).map r.use
  | .expr _ e, _ | .varDecl _ _ e, _ => Expr.free_rename fresh e
  | .ret _ value, _ => Expr.freeOption_rename fresh value
  | .ifElse _ cond thenBranch elseBranch, spared => by
      simp only [mentions, List.mem_append, not_or] at spared
      simp only [rename, free, List.map_append, Expr.free_rename fresh cond,
        free_rename fresh thenBranch spared.1.2, freeOption_rename fresh elseBranch spared.2]
  | .whileLoop _ cond body, spared => by
      simp only [mentions, List.mem_append, not_or] at spared
      simp only [rename, free, List.map_append, Expr.free_rename fresh cond,
        free_rename fresh body spared.2]
  | .doWhile _ body cond, spared => by
      simp only [mentions, List.mem_append, not_or] at spared
      simp only [rename, free, List.map_append, Expr.free_rename fresh cond,
        free_rename fresh body spared.1]
  | .forLoop _ init cond step body, spared => by
      simp only [mentions, List.mem_append, not_or] at spared
      have inside := fresh_declaredOption fresh spared.1.1.1
      simp only [rename, free, List.map_append, declaredOption_rename,
        freeOption_rename fresh init spared.1.1.1, Expr.freeOption_rename inside,
        free_rename inside body spared.2]
  | .forEach _ binder iterable body, spared => by
      simp only [mentions, List.mem_append, List.mem_cons, not_or] at spared
      have inside : r.new ∉ binder.name :: bound :=
        List.not_mem_cons_of_ne_of_not_mem spared.1.1 fresh
      simp only [rename, free, List.map_append, Expr.free_rename fresh iterable,
        free_rename inside body spared.2]
  | .brk _, _ | .cont _, _ => rfl
  | .block _ stmts, spared => freeAll_rename fresh stmts spared
  | .function _ _ name params body, spared => by
      simp only [mentions, List.mem_append, List.mem_cons, not_or] at spared
      apply freeAll_rename _ body spared.2
      simp only [List.mem_append, List.mem_cons, not_or]
      exact ⟨spared.1.2, spared.1.1, fresh⟩

theorem freeOption_rename {bound : List String} (fresh : r.new ∉ bound) : ∀ s : Option (Stmt α),
    r.new ∉ mentionsOption s →
      freeOption bound (renameOption r bound s) = (freeOption bound s).map r.use
  | none, _ => rfl
  | some s, spared => free_rename fresh s spared

theorem freeAll_rename {bound : List String} (fresh : r.new ∉ bound) : ∀ stmts : List (Stmt α),
    r.new ∉ mentionsAll stmts →
      freeAll bound (renameAll r bound stmts) = (freeAll bound stmts).map r.use
  | [], _ => rfl
  | s :: rest, spared => by
      rw [mentionsAll, List.mem_append, not_or] at spared
      simp only [renameAll, freeAll, List.map_append, declared_rename,
        free_rename fresh s spared.1, freeAll_rename (fresh_declared fresh spared.1) rest spared.2]

end

end Stmt

namespace Program

/-- The names that stand in a formula, those it declares included. -/
def mentions (p : Program α) : List String :=
  Stmt.mentionsAll p.body ++ Expr.mentionsOption p.tail

theorem mem_mentions_of_free {p : Program α} {use : Occurrence} (member : use ∈ p.free) :
    use.name ∈ p.mentions :=
  List.mem_append.mpr ((List.mem_append.mp member).imp (Stmt.mem_mentionsAll_of_free p.body)
    (Expr.mem_mentionsOption_of_free p.tail))

/-- Renaming to a name that stands nowhere in the formula renames its free uses one by one. -/
theorem free_rename {p : Program α} (spared : r.new ∉ p.mentions) :
    (p.rename r).2.free = p.free.map r.use := by
  rw [mentions, List.mem_append, not_or] at spared
  have after : r.new ∉ Stmt.boundAfter [] p.body :=
    Stmt.fresh_boundAfter List.not_mem_nil spared.1
  simp only [rename, free, List.map_append, Stmt.boundAfter_rename,
    Stmt.freeAll_rename List.not_mem_nil _ spared.1, Expr.freeOption_rename after]

end Program

end Formulae
