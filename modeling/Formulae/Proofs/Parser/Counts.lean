import Formulae.Proofs.Parser.ExprLaws
import Formulae.Proofs.Parser.StmtLaws

/-!
# Rules that complete no node

Types, parameters and what a declaration says are no nodes of their own.
-/

namespace Formulae.Parser

variable {s s' : State}

/-- How many expressions and statements are complete. -/
def State.counts (s : State) : Nat × Nat :=
  (s.exprs, s.stmts)

theorem State.counts_advance (s : State) : s.advance.counts = s.counts :=
  rfl

theorem State.exprs_eq (same : s'.counts = s.counts) : s'.exprs = s.exprs :=
  congrArg Prod.fst same

/-! ## Types -/

theorem counts_arraySuffix (element : TypeExpr) (s : State) :
    (arraySuffix element s).state.counts = s.counts := by
  by_cases brackets : s.kind = .mark .leftBracket ∧ s.advance.kind = .mark .rightBracket
  · have shorter := State.remaining_advance_lt_of_mark brackets.1
    have shorter' := State.remaining_advance_lt_of_mark brackets.2
    rw [(arraySuffix_of_brackets element brackets.1 brackets.2).2]
    exact counts_arraySuffix (.array element) s.advance.advance
  · rw [arraySuffix_of_stop _ fun opening closing => brackets ⟨opening, closing⟩]
    rfl
termination_by s.remaining

mutual

/-- Reading a type completes no node. -/
theorem counts_typeExpr (s : State) {s' : State} {type : TypeExpr}
    (gives : Gives (typeExpr s) type s') : s'.counts = s.counts := by
  cases kind : s.kind with
  | basicType word =>
      rw [← ((gives_typeExpr_basic kind).mp gives).2]
      exact counts_arraySuffix _ _
  | ident name =>
      rw [← ((gives_typeExpr_named kind).mp gives).2]
      exact counts_arraySuffix _ _
  | keyword word =>
      by_cases isFunction : word = .functionWord
      · subst isFunction
        have shorter := State.remaining_advance_lt_of_keyword kind
        rcases (gives_typeExpr_function kind).mp gives with
          ⟨paren, params, s₁, arrow, list, ret, rfl, result⟩
        have shorter' := State.remaining_advance_lt_of_mark paren
        have shorter₁ := list.remaining_lt
        have shorter₂ := State.remaining_advance_lt_of_mark arrow
        have params' := counts_typeList s.advance.advance list
        exact (counts_typeExpr s₁.advance result).trans params'
      · exact absurd gives (fails_typeExpr (by cases word <;> simp_all [Token.Kind.isTypeWord])
          (by simp [kind]) _ _)
  | _ => exact absurd gives (fails_typeExpr (by simp [kind, Token.Kind.isTypeWord])
      (by simp [kind]) _ _)
termination_by (s.remaining, 0)

theorem counts_typeList (s : State) {s' : State} {types : List TypeExpr}
    (gives : Gives (typeList s) types s') : s'.counts = s.counts := by
  by_cases close : s.kind = .mark .rightParen
  · rcases (gives_typeList_nil close).mp gives with ⟨rfl, rfl⟩
    rfl
  · exact counts_typesFrom s ((gives_typeList_cons close).mp gives)
termination_by (s.remaining, 2)

theorem counts_typesFrom (s : State) {s' : State} {types : List TypeExpr}
    (gives : Gives (typesFrom s) types s') : s'.counts = s.counts := by
  rcases gives_typesFrom.mp gives with ⟨first, s₁, head, ⟨comma, rest, rfl, tail⟩ | ⟨rfl, -, rfl⟩⟩
  · have shorter := head.remaining_lt
    have shorter' := State.remaining_advance_lt_of_mark comma
    have first' := counts_typeExpr s head
    exact (counts_typesFrom s₁.advance tail).trans first'
  · have first' := counts_typeExpr s head
    exact first'
termination_by (s.remaining, 1)

end

/-! ## Declarations -/

theorem counts_givesBinder {mutable : Bool} {bound : Binder}
    (gives : GivesBinder mutable s bound s') : s'.counts = s.counts := by
  rcases gives with ⟨-, name, rfl, ident, rfl⟩ | ⟨-, type, s₁, read, name, rfl, ident, rfl⟩
  · rfl
  · have type' := counts_typeExpr s read
    exact type'

theorem counts_binder {bound : Binder} (gives : Gives (binder s) bound s') :
    s'.counts = s.counts := by
  by_cases isMut : s.kind = .keyword .mutWord
  · have rest := counts_givesBinder ((gives_binder_of_mut isMut).mp gives)
    exact rest
  · exact counts_givesBinder ((gives_binder_of_ne isMut).mp gives)

theorem counts_param {bound : Param} (gives : Gives (param s) bound s') :
    s'.counts = s.counts := by
  by_cases isMut : s.kind = .keyword .mutWord
  · rcases (gives_param_of_mut isMut).mp gives with ⟨type, s₁, read, name, rfl, ident, rfl⟩
    have type' := counts_typeExpr s.advance read
    exact type'
  · rcases (gives_param_of_ne isMut).mp gives with ⟨type, s₁, read, name, rfl, ident, rfl⟩
    have type' := counts_typeExpr s read
    exact type'

theorem counts_paramsFrom (s : State) {s' : State} {list : List Param}
    (gives : Gives (paramsFrom s) list s') : s'.counts = s.counts := by
  rcases gives_paramsFrom.mp gives with
    ⟨first, s₁, head, ⟨comma, rest, rfl, tail⟩ | ⟨rfl, -, rfl⟩⟩
  · have shorter := head.remaining_lt
    have shorter' := State.remaining_advance_lt_of_mark comma
    have first' := counts_param head
    exact (counts_paramsFrom s₁.advance tail).trans first'
  · have first' := counts_param head
    exact first'
termination_by s.remaining

theorem counts_params {list : List Param} (gives : Gives (params s) list s') :
    s'.counts = s.counts := by
  by_cases close : s.kind = .mark .rightParen
  · rcases (gives_params_nil close).mp gives with ⟨rfl, rfl⟩
    rfl
  · rw [params_of_ne close] at gives
    exact counts_paramsFrom s gives

end Formulae.Parser
