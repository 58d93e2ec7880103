import Formulae.Arena.Store

/-!
# What stays in storage

Adding to storage keeps what there was, and the place of a tree shows the stretch of source it
was read from, then and later.
-/

namespace Formulae

namespace Arena

/-- The second holds what the first does, at the same places. -/
structure Le (a b : Arena) : Prop where
  exprs : a.exprs <+: b.exprs
  exprLists : a.exprLists <+: b.exprLists
  stmts : a.stmts <+: b.stmts
  stmtLists : a.stmtLists <+: b.stmtLists
  params : a.params <+: b.params

instance : LE Arena :=
  ⟨Le⟩

variable {a b c : Arena}

theorem le_refl (a : Arena) : a ≤ a :=
  ⟨List.prefix_rfl, List.prefix_rfl, List.prefix_rfl, List.prefix_rfl, List.prefix_rfl⟩

theorem le_trans (one : a ≤ b) (two : b ≤ c) : a ≤ c :=
  ⟨one.exprs.trans two.exprs, one.exprLists.trans two.exprLists, one.stmts.trans two.stmts,
    one.stmtLists.trans two.stmtLists, one.params.trans two.params⟩

/-- Cutting back what has grown since gives what there was. -/
theorem rollback_checkpoint (grown : a ≤ b) : b.rollback a.checkpoint = a := by
  simp only [rollback, checkpoint, ← List.prefix_iff_eq_take.mp grown.exprs,
    ← List.prefix_iff_eq_take.mp grown.exprLists, ← List.prefix_iff_eq_take.mp grown.stmts,
    ← List.prefix_iff_eq_take.mp grown.stmtLists, ← List.prefix_iff_eq_take.mp grown.params]

/-! ## Adding -/

theorem le_addExpr (kind : ExprKind) (span : Span) (a : Arena) : a ≤ (addExpr kind span a).2 :=
  ⟨List.prefix_append _ _, List.prefix_rfl, List.prefix_rfl, List.prefix_rfl, List.prefix_rfl⟩

theorem le_addStmt (kind : StmtKind) (span : Span) (a : Arena) : a ≤ (addStmt kind span a).2 :=
  ⟨List.prefix_rfl, List.prefix_rfl, List.prefix_append _ _, List.prefix_rfl, List.prefix_rfl⟩

theorem le_addExprList (ids : List Nat) (a : Arena) : a ≤ (addExprList ids a).2 :=
  ⟨List.prefix_rfl, List.prefix_append _ _, List.prefix_rfl, List.prefix_rfl, List.prefix_rfl⟩

theorem le_addStmtList (ids : List Nat) (a : Arena) : a ≤ (addStmtList ids a).2 :=
  ⟨List.prefix_rfl, List.prefix_rfl, List.prefix_rfl, List.prefix_append _ _, List.prefix_rfl⟩

theorem le_addParams (list : List Param) (a : Arena) : a ≤ (addParams list a).2 :=
  ⟨List.prefix_rfl, List.prefix_rfl, List.prefix_rfl, List.prefix_rfl, List.prefix_append _ _⟩

/-! ## Stretches of source -/

/-- The expression at the place has this stretch of source. -/
def Shows (a : Arena) (id : Nat) (span : Span) : Prop :=
  ∃ kind, a.exprs[id]? = some ⟨kind, span⟩

variable {id : Nat} {span : Span}

theorem Shows.exprSpan (shows : a.Shows id span) : a.exprSpan id = span := by
  rcases shows with ⟨kind, found⟩
  simp [Arena.exprSpan, found]

theorem Shows.later (shows : a.Shows id span) (grown : a ≤ b) : b.Shows id span := by
  rcases shows with ⟨kind, found⟩
  rcases List.getElem?_eq_some_iff.mp found with ⟨inside, same⟩
  refine ⟨kind, ?_⟩
  rw [← same, ← List.prefix_iff_getElem?.mp grown.exprs id inside]

theorem shows_addExpr (kind : ExprKind) (span : Span) (a : Arena) :
    (addExpr kind span a).2.Shows (addExpr kind span a).1 span :=
  ⟨kind, List.getElem?_concat_length⟩

end Arena

/-- The operands of an infix operator stand in the order of source. -/
theorem Expr.store_isInfix {α : Type} (node : Node α) {op : Operator} (left right : Expr α)
    (isInfix : op ≠ .typeCast) :
    (Expr.binary node op left right).store = left.store >>= fun x => right.store >>= fun y =>
      Arena.addExpr (.binary op x y) node.span := by
  rw [store, if_neg isInfix]

/-- The type of a cast stands before the operand. -/
theorem Expr.store_cast {α : Type} (node : Node α) (operand target : Expr α) :
    (Expr.binary node .typeCast operand target).store =
      target.store >>= fun y => operand.store >>= fun x =>
        Arena.addExpr (.binary .typeCast x y) node.span := by
  rw [store, if_pos rfl]

section Keeping

variable {α : Type}

/-- The step adds no list of statements. -/
def Arena.KeepsStmtLists {β : Type} (step : StateM Arena β) : Prop :=
  ∀ a, (step a).2.stmtLists = a.stmtLists

theorem Arena.KeepsStmtLists.bind {β γ : Type} {step : StateM Arena β} {next : β → StateM Arena γ}
    (first : KeepsStmtLists step) (second : ∀ value, KeepsStmtLists (next value)) :
    KeepsStmtLists (step >>= next) :=
  fun a => (second _ _).trans (first a)

mutual

/-- Expressions add no list of statements. -/
theorem Expr.keepsStmtLists_store : ∀ e : Expr α, Arena.KeepsStmtLists e.store
  | .ident _ _ | .constant _ _ | .typeLiteral _ _ => fun _ => rfl
  | .unary _ _ operand => (keepsStmtLists_store operand).bind fun _ _ => rfl
  | .binary _ op left right => by
      by_cases cast : op = .typeCast
      · subst cast
        rw [store_cast]
        exact (keepsStmtLists_store right).bind fun _ =>
          (keepsStmtLists_store left).bind fun _ _ => rfl
      · rw [store_isInfix _ _ _ cast]
        exact (keepsStmtLists_store left).bind fun _ =>
          (keepsStmtLists_store right).bind fun _ _ => rfl
  | .ternary _ cond thenBranch elseBranch =>
      (keepsStmtLists_store cond).bind fun _ => (keepsStmtLists_store thenBranch).bind fun _ =>
        (keepsStmtLists_store elseBranch).bind fun _ _ => rfl
  | .call _ callee args =>
      (keepsStmtLists_store callee).bind fun _ => (keepsStmtLists_storeAll args).bind fun _ _ =>
        rfl
  | .array _ items => (keepsStmtLists_storeAll items).bind fun _ _ => rfl
  | .index _ receiver subscript =>
      (keepsStmtLists_store receiver).bind fun _ =>
        (keepsStmtLists_store subscript).bind fun _ _ => rfl

theorem Expr.keepsStmtLists_storeAll : ∀ list : List (Expr α),
    Arena.KeepsStmtLists (storeAll list)
  | [] => fun _ => rfl
  | e :: rest =>
      (keepsStmtLists_store e).bind fun _ => (keepsStmtLists_storeAll rest).bind fun _ _ => rfl

end

end Keeping

/-- The place of a tree in storage shows the stretch of source of the tree. -/
theorem Expr.shows_store {α : Type} (e : Expr α) (a : Arena) :
    (e.store a).2.Shows (e.store a).1 e.span := by
  cases e with
  | binary _ op left right =>
      rw [store]
      split <;> exact Arena.shows_addExpr _ _ _
  | _ =>
      rw [store]
      exact Arena.shows_addExpr _ _ _

end Formulae
