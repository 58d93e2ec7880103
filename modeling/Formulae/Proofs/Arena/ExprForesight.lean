import Formulae.Proofs.Arena.TypeForesight

/-!
# How far reading expressions looks ahead

The rules for expressions are built from steps that look one token ahead, so they do not look
further either.
-/

namespace Formulae.Build

variable {a n : Nat} {p : Place}

/-- What the rules for expressions depend on, within a bound. -/
structure DecidedExprs (n : Nat) : Prop where
  binary : ∀ minimum p, Decided 0 0 p (binary n minimum)
  climb : ∀ minimum left p, Decided 0 0 p (climb n minimum left)
  unary : ∀ p, Decided 0 0 p (unary n)
  postfixed : ∀ p, Decided 0 0 p (postfixed n)
  suffixes : ∀ head p, Decided 0 0 p (suffixes n head)
  primary : ∀ p, Decided 0 0 p (primary n)
  exprList : ∀ {close a}, (Token.Kind.mark close).depth a = some 0 →
    ∀ p, Decided a 0 p (exprList n close)
  listFrom : ∀ {close a}, (Token.Kind.mark close).depth a = some 0 →
    ∀ p, Decided a 0 p (listFrom n close)

theorem infix_depth {kind : Token.Kind} {op : Operator} (found : kind.infixOperator? = some op) :
    kind.depth a = some a := by
  cases kind with
  | mark mark => cases mark <;> first | rfl | cases found
  | _ => cases found

theorem prefix_depth {kind : Token.Kind} {op : Operator}
    (found : kind.prefixOperator? = some op) : kind.depth a = some a := by
  cases kind with
  | mark mark => cases mark <;> first | rfl | cases found
  | _ => cases found

theorem depth_of_constant {kind : Token.Kind} {value : Constant}
    (found : Parser.constant? kind = some value) : kind.depth a = some a := by
  cases kind with
  | mark mark => cases found
  | endOfInput => cases found
  | _ => rfl

/-- Adding an expression that reaches from one in storage to another and going on from there. -/
theorem Decided.merged {kind : ExprKind} {first last : Nat} {next : Nat → Build Nat}
    (rest : ∀ id p₁, Decided 0 0 p₁ (next id)) :
    Decided 0 0 p (do
      let first ← exprSpan first
      let last ← exprSpan last
      let whole ← addExpr kind (first.merge last)
      next whole) :=
  (quiet_exprSpan first).decided.andThen fun _ _ => (quiet_exprSpan last).decided.andThen fun _ _ =>
    (quiet_addExpr kind _).decided.andThen rest

namespace DecidedExprs

theorem binary_succ (inner : DecidedExprs n) (minimum : Nat) (p : Place) :
    Decided 0 0 p (Build.binary (n + 1) minimum) := by
  rw [Build.binary]
  exact (inner.unary p).andThen fun left p₁ => inner.climb minimum left p₁

theorem climb_succ (inner : DecidedExprs n) (minimum left : Nat) (p : Place) :
    Decided 0 0 p (Build.climb (n + 1) minimum left) := by
  rw [Build.climb]
  refine .kind ?_
  by_cases question : p.cursor.kind = .mark .question
  · rw [if_pos question]
    by_cases loose : ternaryPrecedence < minimum
    · rw [if_pos loose]
      exact (quiet_pure left).decided
    · rw [if_neg loose]
      refine .pass (by rw [question]; rfl) ?_
      refine (inner.binary 0 _).andThen fun thenBranch p₂ => ?_
      refine (decided_expectMarkAs rfl).andThen fun _ p₃ => ?_
      refine (inner.binary ternaryPrecedence p₃).andThen fun elseBranch p₄ => ?_
      exact .merged fun whole p₅ => inner.climb minimum whole p₅
  · rw [if_neg question]
    split
    · exact (quiet_pure left).decided
    · next op found =>
        by_cases loose : op.precedence < minimum
        · rw [if_pos loose]
          exact (quiet_pure left).decided
        · rw [if_neg loose]
          refine .pass (infix_depth found) ?_
          refine (inner.binary op.rightMinimum _).andThen fun right p₁ => ?_
          exact .merged fun whole p₂ => inner.climb minimum whole p₂

theorem unary_succ (inner : DecidedExprs n) (p : Place) :
    Decided 0 0 p (Build.unary (n + 1)) := by
  rw [Build.unary]
  refine .span (.kind ?_)
  split
  · next op found =>
      refine .pass (prefix_depth found) ?_
      refine (inner.unary _).thenQuiet fun operand => ?_
      exact (quiet_exprSpan operand).bind fun last => quiet_addExpr _ _
  · refine .nextKind ?_
    by_cases cast : p.cursor.kind = .mark .leftParen ∧ p.cursor.nextKind.isTypeWord
    · rw [if_pos cast]
      refine .pass (by rw [cast.1]; rfl) ?_
      refine decided_typeExpr.andThen fun type p₁ => ?_
      refine (quiet_spanFrom _).decided.andThen fun literalSpan p₂ => ?_
      refine (decided_mark rfl).andThen fun _ p₃ => ?_
      refine (quiet_addExpr _ literalSpan).decided.andThen fun target p₄ => ?_
      refine (inner.unary p₄).thenQuiet fun operand => ?_
      exact (quiet_exprSpan operand).bind fun last => quiet_addExpr _ _
    · rw [if_neg cast]
      exact inner.postfixed p

theorem postfixed_succ (inner : DecidedExprs n) (p : Place) :
    Decided 0 0 p (Build.postfixed (n + 1)) := by
  rw [Build.postfixed]
  exact (inner.primary p).andThen fun head p₁ => inner.suffixes head p₁

theorem suffixes_succ (inner : DecidedExprs n) (head : Nat) (p : Place) :
    Decided 0 0 p (Build.suffixes (n + 1) head) := by
  rw [Build.suffixes]
  refine .kind ?_
  split
  · next bracket =>
      refine .pass (by rw [bracket]; rfl) ?_
      refine (inner.binary 0 _).andThen fun subscript p₁ => ?_
      refine (decided_mark rfl).andThen fun close p₂ => ?_
      refine (quiet_exprSpan head).decided.andThen fun first p₃ => ?_
      exact (quiet_addExpr _ _).decided.andThen fun whole p₄ => inner.suffixes whole p₄
  · next paren =>
      refine .pass (by rw [paren]; rfl) ?_
      refine (inner.exprList rfl _).andThen fun args p₁ => ?_
      refine (quiet_exprSpan head).decided.andThen fun first p₂ => ?_
      refine (quiet_spanFrom first).decided.andThen fun span p₃ => ?_
      exact (quiet_addExpr _ span).decided.andThen fun whole p₄ => inner.suffixes whole p₄
  · exact (quiet_pure head).decided

theorem primary_succ (inner : DecidedExprs n) (p : Place) :
    Decided 0 0 p (Build.primary (n + 1)) := by
  rw [Build.primary]
  refine .span (.kind ?_)
  split
  · next value found =>
      refine .pass (depth_of_constant found) ?_
      exact (quiet_addExpr _ _).decided
  · split
    · next name found =>
        refine .pass (by rw [found]; rfl) ?_
        exact (quiet_addExpr _ _).decided
    · next paren =>
        refine .pass (by rw [paren]; rfl) ?_
        refine (inner.binary 0 _).andThen fun inside p₁ => ?_
        exact (decided_mark rfl).thenQuiet fun _ => quiet_pure inside
    · next brace =>
        -- The list closes the brace that is passed here.
        refine .pass (by rw [brace]; rfl) ?_
        refine (inner.exprList rfl _).thenQuiet fun items => ?_
        exact (quiet_spanFrom _).bind fun span => quiet_addExpr _ span
    · exact decided_unexpected "expression"

theorem exprList_succ (inner : DecidedExprs n) {close : Mark}
    (closing : (Token.Kind.mark close).depth a = some 0) (p : Place) :
    Decided a 0 p (Build.exprList (n + 1) close) := by
  rw [Build.exprList]
  refine .eat (fun closes => ?_) fun _ => ?_
  · refine (decided_advance (by rw [closes]; exact closing)).thenQuiet
      fun _ => ?_
    exact quiet_alloc (Arena.le_addExprList [])
  · exact (inner.listFrom closing p).thenQuiet fun ids => quiet_alloc (Arena.le_addExprList ids)

theorem listFrom_succ (inner : DecidedExprs n) {close : Mark}
    (closing : (Token.Kind.mark close).depth a = some 0) (p : Place) :
    Decided a 0 p (Build.listFrom (n + 1) close) := by
  rw [Build.listFrom]
  refine (inner.binary 0 p).andThen fun first p₁ => .eat (fun comma => ?_) fun _ => ?_
  · refine .pass (by rw [comma]; rfl) ?_
    rw [Nat.zero_add]
    exact (inner.listFrom closing _).thenQuiet fun rest => quiet_pure (first :: rest)
  · exact (decided_mark closing).thenQuiet fun _ => quiet_pure [first]

end DecidedExprs

/-- Within no bound every rule fails where it stands. -/
theorem decidedExprs_zero : DecidedExprs 0 := by
  constructor <;>
    · intros
      simp only [binary, climb, unary, postfixed, suffixes, primary, exprList, listFrom]
      exact decided_unexpected "expression"

theorem decidedExprs : ∀ n, DecidedExprs n
  | 0 => decidedExprs_zero
  | n + 1 =>
      let inner := decidedExprs n
      { binary := inner.binary_succ
        climb := inner.climb_succ
        unary := inner.unary_succ
        postfixed := inner.postfixed_succ
        suffixes := inner.suffixes_succ
        primary := inner.primary_succ
        exprList := inner.exprList_succ
        listFrom := inner.listFrom_succ }

theorem decided_expression : Decided 0 0 p expression := by
  refine Decided.of_bounds (fun n => (decidedExprs n).binary 0 p) fun p' => ?_
  refine ⟨8 * p'.cursor.remaining + 4, fun m enough => ?_⟩
  refine agree_of_follows (follows_expression rfl)
    ((followsExprs m).binary 0 rfl enough) fun puts puts' => ?_
  exact Prod.mk.inj (puts.symm.trans puts')

end Formulae.Build
