import Formulae.Proofs.Arena.Follows

/-!
# Reading expressions into storage

The steps that read expressions follow the rules that read trees, and what they add is the
storage of the tree.
-/

namespace Formulae.Build

open Formulae.Parser (Parsed Extended State)

variable {α β : Type} {a a' : Arena} {p : Place} {s : State} {n : Nat}

/-- Putting the value into the first storage gives the second, and `given`. -/
def Puts (put : α → StateM Arena β) (first : Arena) (value : α) (given : β) (second : Arena) :
    Prop :=
  put value first = (given, second)

theorem bind_of_eq {γ : Type} {put : StateM Arena α} {next : α → StateM Arena γ} {value : α}
    (first : put a = (value, a')) : (put >>= next) a = next value a' := by
  change (next (put a).1) (put a).2 = _
  rw [first]

theorem bind_of_bind {γ δ : Type} {put : StateM Arena α} {between : α → StateM Arena γ}
    {next : γ → StateM Arena δ} {value : γ} (first : (put >>= between) a = (value, a')) :
    (put >>= fun x => between x >>= next) a = next value a' :=
  (bind_of_eq first : ((put >>= between) >>= next) a = _)

/-- The place of an expression in storage shows its stretch of source. -/
theorem Puts.shows {e : Expr Unit} {id : Nat} (puts : Puts Expr.store a e id a') :
    a'.Shows id e.span := by
  have shows := e.shows_store a
  rw [puts] at shows
  exact shows

theorem Place.state_advance (here : p.state = s) :
    (⟨p.cursor.advance, p.arena⟩ : Place).state = s.advance :=
  here ▸ rfl

theorem Place.state_addExpr (kind : ExprKind) (span : Span) (here : p.state = s) :
    (⟨p.cursor, (Arena.addExpr kind span p.arena).2⟩ : Place).state = s.addExpr := by
  subst here
  simp [Place.state, State.addExpr, Arena.addExpr]

/-- What the steps for expressions follow, within a bound. -/
structure FollowsExprs (n : Nat) : Prop where
  binary : ∀ {p s} minimum, p.state = s → 8 * s.remaining + 4 ≤ n →
    Follows Parsed.result (Puts Expr.store p.arena) p (Parser.binary minimum s) (binary n minimum)
  climb : ∀ {p s a} minimum {left id}, p.state = s → 8 * s.remaining + 1 ≤ n →
    Puts Expr.store a left id p.arena →
      Follows Extended.result (Puts Expr.store a) p (Parser.climb minimum left s)
        (climb n minimum id)
  unary : ∀ {p s}, p.state = s → 8 * s.remaining + 3 ≤ n →
    Follows Parsed.result (Puts Expr.store p.arena) p (Parser.unary s) (unary n)
  postfixed : ∀ {p s}, p.state = s → 8 * s.remaining + 2 ≤ n →
    Follows Parsed.result (Puts Expr.store p.arena) p (Parser.postfixed s) (postfixed n)
  suffixes : ∀ {p s a head id}, p.state = s → 8 * s.remaining + 1 ≤ n →
    Puts Expr.store a head id p.arena →
      Follows Extended.result (Puts Expr.store a) p (Parser.suffixes head s) (suffixes n id)
  primary : ∀ {p s}, p.state = s → 8 * s.remaining + 1 ≤ n →
    Follows Parsed.result (Puts Expr.store p.arena) p (Parser.primary s) (primary n)
  exprList : ∀ {p s} close, p.state = s → 8 * s.remaining + 6 ≤ n →
    Follows Parsed.result (Puts (fun items => Expr.storeAll items >>= Arena.addExprList) p.arena) p
      (Parser.exprList close s) (exprList n close)
  listFrom : ∀ {p s} close, p.state = s → 8 * s.remaining + 5 ≤ n →
    Follows Parsed.result (Puts Expr.storeAll p.arena) p (Parser.listFrom close s)
      (listFrom n close)

/-- An expression that is complete. -/
theorem follows_node {s₀ : State} {e : Expr Unit} {kind : ExprKind} {span : Span}
    (here : p.state = s) (puts : e.store a = Arena.addExpr kind span p.arena)
    (h : s.addExpr.remaining < s₀.remaining) :
    Follows Parsed.result (Puts Expr.store a) p (pure (⟨e, s.addExpr, h⟩ : Parsed (Expr Unit) s₀))
      (addExpr kind span) :=
  .ok rfl rfl (Place.state_addExpr kind span here) (Arena.le_addExpr kind span p.arena) puts

/-- No more operators or suffixes. -/
theorem follows_unchanged {e : Expr Unit} {id : Nat} (here : p.state = s)
    (puts : Puts Expr.store a e id p.arena) :
    Follows Extended.result (Puts Expr.store a) p (.ok (.unchanged e s)) (pure id) :=
  .ok rfl rfl here (Arena.le_refl _) puts

theorem FollowsExprs.binary_succ (inner : FollowsExprs n) (minimum : Nat) (here : p.state = s)
    (enough : 8 * s.remaining + 4 ≤ n + 1) :
    Follows Parsed.result (Puts Expr.store p.arena) p (Parser.binary minimum s)
      (Build.binary (n + 1) minimum) := by
  rw [Parser.binary, Build.binary]
  refine (inner.unary here (by omega)).andThen fun left s₁ h₁ id p₁ here₁ _ puts => ?_
  exact (inner.climb minimum here₁ (by omega) puts).map fun _ => rfl

theorem FollowsExprs.climb_succ (inner : FollowsExprs n) (minimum : Nat) {left : Expr Unit}
    {id : Nat} (here : p.state = s) (enough : 8 * s.remaining + 1 ≤ n + 1)
    (puts : Puts Expr.store a left id p.arena) :
    Follows Extended.result (Puts Expr.store a) p (Parser.climb minimum left s)
      (Build.climb (n + 1) minimum id) := by
  rw [Parser.climb, Build.climb]
  refine .kind here ?_
  by_cases question : s.kind = .mark .question
  · have shorter := State.remaining_advance_lt_of_mark question
    rw [Parser.nextMark?_of_kind question, if_pos question]
    by_cases loose : ternaryPrecedence < minimum
    · simp only [if_pos loose]
      exact follows_unchanged here puts
    · simp only [if_neg loose]
      refine .advance ?_
      refine (inner.binary 0 (Place.state_advance here) (by omega)).within.andThen
        fun thenBranch s₂ h₂ t p₂ here₂ grown₂ then' => ?_
      refine (follows_expectMarkAs .colon _ here₂).within.pass fun _ s₃ h₃ c₃ here₃ => ?_
      refine (inner.binary ternaryPrecedence here₃ (by omega)).within.andThen
        fun elseBranch s₄ h₄ e p₄ here₄ grown₄ else' => ?_
      have grown := Arena.le_trans grown₂ grown₄
      refine .exprSpan (puts.shows.later grown) (.exprSpan else'.shows ?_)
      refine .addExpr ?_
      have whole : Puts Expr.store a (.ternary (s₄.exprNode (left.span.merge elseBranch.span)) left
          thenBranch elseBranch) _ _ :=
        (bind_of_eq puts).trans ((bind_of_eq then').trans (bind_of_eq else'))
      exact (inner.climb minimum (Place.state_addExpr _ _ here₄)
        (by omega : 8 * s₄.remaining + 1 ≤ n) whole).map fun _ => rfl
  · rw [Parser.nextMark?_of_ne question, if_neg question]
    dsimp only
    split
    · next found =>
        rw [found]
        exact follows_unchanged here puts
    · next op found =>
        have shorter := State.remaining_advance_lt_of_infix found
        by_cases loose : op.precedence < minimum
        · simp only [found, if_pos loose]
          exact follows_unchanged here puts
        · simp only [found, if_neg loose]
          refine .advance ?_
          refine (inner.binary op.rightMinimum (Place.state_advance here)
            (by omega)).within.andThen fun right s₁ h₁ r p₁ here₁ grown right' => ?_
          refine .exprSpan (puts.shows.later grown) (.exprSpan right'.shows ?_)
          refine .addExpr ?_
          have isInfix := Parser.ne_typeCast_of_infixOperator? found
          have whole : Puts Expr.store a (.binary (s₁.exprNode (left.span.merge right.span)) op
              left right) _ _ :=
            (congrFun (Expr.store_isInfix _ left right isInfix) a).trans
              ((bind_of_eq puts).trans (bind_of_eq right'))
          exact (inner.climb minimum (Place.state_addExpr _ _ here₁)
            (by omega : 8 * s₁.remaining + 1 ≤ n) whole).map fun _ => rfl

theorem FollowsExprs.unary_succ (inner : FollowsExprs n) (here : p.state = s)
    (enough : 8 * s.remaining + 3 ≤ n + 1) :
    Follows Parsed.result (Puts Expr.store p.arena) p (Parser.unary s) (Build.unary (n + 1)) := by
  rw [Parser.unary, Build.unary]
  refine .span here (.kind here ?_)
  split
  · next op found =>
      have shorter := State.remaining_advance_lt_of_prefix found
      simp only [found]
      refine .advance ?_
      refine (inner.unary (Place.state_advance here) (by omega)).within.andThen
        fun operand s₁ h₁ x p₁ here₁ _ operand' => ?_
      refine .exprSpan operand'.shows ?_
      exact follows_node here₁ (bind_of_eq operand') h₁
  · next found =>
      simp only [found]
      refine .nextKind here ?_
      by_cases cast : s.kind = .mark .leftParen ∧ s.cursor.nextKind.isTypeWord
      · have shorter := State.remaining_advance_lt_of_mark cast.1
        rw [if_pos cast, if_pos cast, Parser.expectMark_of_kind cast.1]
        refine .advance (.okBind ?_)
        refine (follows_type (Place.state_advance here)).within.pass fun target s₂ h₂ c₂ here₂ => ?_
        refine .spanFrom here₂ ?_
        refine (follows_mark .rightParen here₂).within.pass fun _ s₃ h₃ c₃ here₃ => ?_
        refine .addExpr ?_
        refine (inner.unary (Place.state_addExpr _ _ here₃)
          (by omega : 8 * s₃.remaining + 3 ≤ n)).within.andThen
            fun operand s₄ h₄ x p₄ here₄ _ operand' => ?_
        refine .exprSpan operand'.shows ?_
        have whole : (Expr.binary (s₄.exprNode (s.span.merge operand.span)) .typeCast operand
            (.typeLiteral (s₃.exprNode (s₂.spanFrom s.span)) target)).store p.arena = _ :=
          (congrFun (Expr.store_cast _ operand _) p.arena).trans
            ((bind_of_eq rfl).trans (bind_of_eq operand'))
        exact follows_node here₄ whole h₄
      · rw [if_neg cast, if_neg cast]
        exact inner.postfixed here (by omega)

theorem FollowsExprs.postfixed_succ (inner : FollowsExprs n) (here : p.state = s)
    (enough : 8 * s.remaining + 2 ≤ n + 1) :
    Follows Parsed.result (Puts Expr.store p.arena) p (Parser.postfixed s)
      (Build.postfixed (n + 1)) := by
  rw [Parser.postfixed, Build.postfixed]
  refine (inner.primary here (by omega)).andThen fun head s₁ h₁ id p₁ here₁ _ puts => ?_
  exact (inner.suffixes here₁ (by omega) puts).map fun _ => rfl

theorem FollowsExprs.suffixes_succ (inner : FollowsExprs n) {head : Expr Unit} {id : Nat}
    (here : p.state = s) (enough : 8 * s.remaining + 1 ≤ n + 1)
    (puts : Puts Expr.store a head id p.arena) :
    Follows Extended.result (Puts Expr.store a) p (Parser.suffixes head s)
      (Build.suffixes (n + 1) id) := by
  rw [Parser.suffixes, Build.suffixes]
  refine .kind here ?_
  split
  · next bracket =>
      have shorter := State.remaining_advance_lt_of_mark bracket
      simp only [bracket]
      refine .advance ?_
      refine (inner.binary 0 (Place.state_advance here) (by omega)).within.andThen
        fun subscript s₁ h₁ x p₁ here₁ grown subscript' => ?_
      refine (follows_mark .rightBracket here₁).within.pass fun close s₂ h₂ c₂ here₂ => ?_
      refine .exprSpan (puts.shows.later grown) (.addExpr ?_)
      have whole : Puts Expr.store a (.index (s₂.exprNode (head.span.merge close)) head subscript)
          _ _ :=
        (bind_of_eq puts).trans (bind_of_eq subscript')
      exact (inner.suffixes (Place.state_addExpr _ _ here₂)
        (by omega : 8 * s₂.remaining + 1 ≤ n) whole).map fun _ => rfl
  · next paren =>
      have shorter := State.remaining_advance_lt_of_mark paren
      simp only [paren]
      refine .advance ?_
      refine (inner.exprList .rightParen (Place.state_advance here) (by omega)).within.andThen
        fun args s₁ h₁ xs p₁ here₁ grown args' => ?_
      refine .exprSpan (puts.shows.later grown) (.spanFrom here₁ (.addExpr ?_))
      have whole : Puts Expr.store a (.call (s₁.exprNode (s₁.spanFrom head.span)) head args)
          _ _ :=
        (bind_of_eq puts).trans (bind_of_bind args')
      exact (inner.suffixes (Place.state_addExpr _ _ here₁)
        (by omega : 8 * s₁.remaining + 1 ≤ n) whole).map fun _ => rfl
  · next noBracket noParen =>
      split
      · next bracket => exact absurd bracket noBracket
      · next paren => exact absurd paren noParen
      · exact follows_unchanged here puts

theorem FollowsExprs.primary_succ (inner : FollowsExprs n) (here : p.state = s)
    (enough : 8 * s.remaining + 1 ≤ n + 1) :
    Follows Parsed.result (Puts Expr.store p.arena) p (Parser.primary s)
      (Build.primary (n + 1)) := by
  rw [Parser.primary, Build.primary]
  refine .span here (.kind here ?_)
  split
  · next value found =>
      simp only [found]
      refine .advance ?_
      exact follows_node (Place.state_advance here) rfl _
  · next found =>
      simp only [found]
      split
      · next name ident =>
          simp only [ident]
          refine .advance ?_
          exact follows_node (Place.state_advance here) rfl _
      · next paren =>
          have shorter := State.remaining_advance_lt_of_mark paren
          simp only [paren]
          refine .advance ?_
          refine (inner.binary 0 (Place.state_advance here) (by omega)).within.andThen
            fun e s₁ h₁ x p₁ here₁ grown puts => ?_
          refine (follows_mark .rightParen here₁).within.pass fun _ s₂ h₂ c₂ here₂ => ?_
          exact .ok rfl rfl here₂ (Arena.le_refl _) puts
      · next brace =>
          have shorter := State.remaining_advance_lt_of_mark brace
          simp only [brace]
          refine .advance ?_
          refine (inner.exprList .rightBrace (Place.state_advance here) (by omega)).within.andThen
            fun items s₁ h₁ xs p₁ here₁ grown items' => ?_
          refine .spanFrom here₁ ?_
          have whole : (Expr.array (s₁.exprNode (s₁.spanFrom s.span)) items).store p.arena = _ :=
            bind_of_bind items'
          exact follows_node here₁ whole h₁
      · next noName noParen noBrace =>
          have fails : Follows Parsed.result (Puts Expr.store p.arena) p
              (.error (s.unexpected "expression") : Parser.Outcome (Expr Unit) s)
              (unexpected "expression") :=
            .error rfl (here ▸ rfl) (Arena.le_refl _)
          split
          · next name ident => exact absurd ident (noName name)
          · next paren => exact absurd paren noParen
          · next brace => exact absurd brace noBrace
          · exact fails

theorem FollowsExprs.exprList_succ (inner : FollowsExprs n) (close : Mark) (here : p.state = s)
    (enough : 8 * s.remaining + 6 ≤ n + 1) :
    Follows Parsed.result (Puts (fun items => Expr.storeAll items >>= Arena.addExprList) p.arena) p
      (Parser.exprList close s) (Build.exprList (n + 1) close) := by
  rw [Parser.exprList, Build.exprList]
  by_cases closes : s.kind = .mark close
  · rw [Parser.nextMark?_of_kind closes]
    refine .eaten here closes ?_
    exact .ok rfl rfl (Place.state_advance here) (Arena.le_addExprList [] p.arena) rfl
  · rw [Parser.nextMark?_of_ne closes]
    refine .notEaten here closes ?_
    cases inner.listFrom close here (by omega) with
    | ok gives ran state grown puts =>
        exact .ok gives (bind_of_ok ran) state (Arena.le_trans grown (Arena.le_addExprList _ _))
          (bind_of_eq puts)
    | error fails ran grown => exact .error fails (bind_of_error ran) grown

theorem FollowsExprs.listFrom_succ (inner : FollowsExprs n) (close : Mark) (here : p.state = s)
    (enough : 8 * s.remaining + 5 ≤ n + 1) :
    Follows Parsed.result (Puts Expr.storeAll p.arena) p (Parser.listFrom close s)
      (Build.listFrom (n + 1) close) := by
  rw [Parser.listFrom, Build.listFrom]
  refine (inner.binary 0 here (by omega)).andThen fun first s₁ h₁ x p₁ here₁ grown first' => ?_
  by_cases comma : s₁.kind = .mark .comma
  · have shorter := State.remaining_advance_lt_of_mark comma
    simp only [Parser.nextMark?_of_kind comma]
    refine .eaten here₁ comma ?_
    refine (inner.listFrom close (Place.state_advance here₁) (by omega)).within.within.andThen
      fun rest s₂ h₂ xs p₂ here₂ _ rest' => ?_
    have whole : Puts Expr.storeAll p.arena (first :: rest) _ _ :=
      (bind_of_eq first').trans (bind_of_eq rest')
    exact .ok rfl rfl here₂ (Arena.le_refl _) whole
  · simp only [Parser.nextMark?_of_ne comma]
    refine .notEaten here₁ comma ?_
    refine (follows_mark close here₁).within.pass fun _ s₂ h₂ c₂ here₂ => ?_
    have whole : Puts Expr.storeAll p.arena [first] _ _ :=
      (bind_of_eq first').trans rfl
    exact .ok rfl rfl here₂ (Arena.le_refl _) whole

theorem followsExprs : ∀ n, FollowsExprs n
  | 0 =>
      { binary := by omega
        climb := by omega
        unary := by omega
        postfixed := by omega
        suffixes := by omega
        primary := by omega
        exprList := by omega
        listFrom := by omega }
  | n + 1 =>
      let inner := followsExprs n
      { binary := inner.binary_succ
        climb := inner.climb_succ
        unary := inner.unary_succ
        postfixed := inner.postfixed_succ
        suffixes := inner.suffixes_succ
        primary := inner.primary_succ
        exprList := inner.exprList_succ
        listFrom := inner.listFrom_succ }

/-- Reading an expression into storage adds the storage of the tree that is read. -/
theorem follows_expression (here : p.state = s) :
    Follows Parsed.result (Puts Expr.store p.arena) p (Parser.expression s) expression := by
  have bound : p.cursor.remaining = s.remaining := here ▸ rfl
  exact ((followsExprs (8 * p.cursor.remaining + 4)).binary 0 here (by omega)).of_eq rfl

end Formulae.Build
