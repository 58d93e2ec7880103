import Formulae.Proofs.Parser.Gives

/-!
# The laws of types and expressions

One law for each rule and each form that the rule tells apart.
-/

namespace Formulae.Parser

variable {s s' : State}

/-! ## Types -/

theorem arraySuffix_of_brackets (element : TypeExpr) (opening : s.kind = .mark .leftBracket)
    (closing : s.advance.kind = .mark .rightBracket) :
    (arraySuffix element s).value = (arraySuffix (.array element) s.advance.advance).value ∧
      (arraySuffix element s).state = (arraySuffix (.array element) s.advance.advance).state := by
  rw [arraySuffix, nextMark?_of_kind opening]
  simp only [nextMark?_of_kind closing]
  exact ⟨rfl, rfl⟩

theorem arraySuffix_of_stop (element : TypeExpr)
    (stop : s.kind = .mark .leftBracket → s.advance.kind ≠ .mark .rightBracket) :
    arraySuffix element s = .unchanged element s := by
  rw [arraySuffix]
  by_cases opening : s.kind = .mark .leftBracket
  · rw [nextMark?_of_kind opening]
    simp only [nextMark?_of_ne (stop opening)]
  · rw [nextMark?_of_ne opening]

theorem gives_typeExpr_basic {word : BasicType} (h : s.kind = .basicType word)
    {type : TypeExpr} : Gives (typeExpr s) type s' ↔
      (arraySuffix (.basic word) s.advance).value = type ∧
        (arraySuffix (.basic word) s.advance).state = s' := by
  rw [typeExpr]
  split <;> simp_all [simpleType, Extended.within, eq_comm]

theorem gives_typeExpr_named {name : String} (h : s.kind = .ident name)
    {type : TypeExpr} : Gives (typeExpr s) type s' ↔
      (arraySuffix (.named name) s.advance).value = type ∧
        (arraySuffix (.named name) s.advance).state = s' := by
  rw [typeExpr]
  split <;> simp_all [simpleType, Extended.within, eq_comm]

theorem gives_typeExpr_function (h : s.kind = .keyword .functionWord) {type : TypeExpr} :
    Gives (typeExpr s) type s' ↔ s.advance.kind = .mark .leftParen ∧
      ∃ params s₁, s₁.kind = .mark .arrow ∧ Gives (typeList s.advance.advance) params s₁ ∧
        ∃ ret, type = .function params ret ∧ Gives (typeExpr s₁.advance) ret s' := by
  rw [typeExpr]
  split
  case h_3 =>
    simp only [gives_bind, gives_within, gives_expectMark, gives_pure]
    simp [and_assoc]
  all_goals simp_all

theorem fails_typeExpr (word : s.kind.isTypeWord = false) (name : ∀ name, s.kind ≠ .ident name) :
    Fails (typeExpr s) := by
  intro type state gives
  rw [typeExpr] at gives
  split at gives <;> simp_all [Token.Kind.isTypeWord]

theorem gives_typeList_nil (h : s.kind = .mark .rightParen) {types : List TypeExpr} :
    Gives (typeList s) types s' ↔ types = [] ∧ s' = s.advance := by
  rw [typeList, nextMark?_of_kind h]
  simp

theorem gives_typeList_cons (h : s.kind ≠ .mark .rightParen) {types : List TypeExpr} :
    Gives (typeList s) types s' ↔ Gives (typesFrom s) types s' := by
  rw [typeList, nextMark?_of_ne h]

theorem gives_typesFrom {types : List TypeExpr} :
    Gives (typesFrom s) types s' ↔ ∃ first s₁, Gives (typeExpr s) first s₁ ∧
      (s₁.kind = .mark .comma ∧
          (∃ rest, types = first :: rest ∧ Gives (typesFrom s₁.advance) rest s') ∨
        types = [first] ∧ s₁.kind = .mark .rightParen ∧ s' = s₁.advance) := by
  rw [typesFrom]
  simp only [gives_bind]
  refine exists_congr fun first => exists_congr fun s₁ => ?_
  rw [← exists_prop]
  refine exists_congr fun _ => ?_
  by_cases comma : s₁.kind = .mark .comma
  · simp [-bind_pure_comp, nextMark?_of_kind comma, comma, gives_bind]
  · simp [-bind_pure_comp, nextMark?_of_ne comma, comma, gives_bind, and_assoc]

/-! ## Infix operators -/

/-- A cast is written with a type in front, not with a token between operands. -/
theorem ne_typeCast_of_infixOperator? {kind : Token.Kind} {op : Operator}
    (found : kind.infixOperator? = some op) : op ≠ .typeCast := by
  rintro rfl
  cases kind with
  | mark mark => cases mark <;> cases found
  | _ => cases found

theorem gives_binary {minimum : Nat} {e : Expr Unit} : Gives (binary minimum s) e s' ↔
    ∃ left s₁, Gives (unary s) left s₁ ∧ Reaches (climb minimum left s₁) e s' := by
  rw [binary]
  simp [-bind_pure_comp, gives_bind]

/-- An operand ends before this token when operators have to bind at least as
tightly as `minimum`. -/
def EndsOperand (minimum : Nat) (kind : Token.Kind) : Prop :=
  (kind = .mark .question → ternaryPrecedence < minimum) ∧
    ∀ op, kind.infixOperator? = some op → op.precedence < minimum

theorem reaches_climb_of_ends {minimum : Nat} {left e : Expr Unit}
    (ends : EndsOperand minimum s.kind) :
    Reaches (climb minimum left s) e s' ↔ e = left ∧ s' = s := by
  rw [climb]
  by_cases question : s.kind = .mark .question
  · simp [nextMark?_of_kind question, ends.1 question]
  · rw [nextMark?_of_ne question]
    dsimp only
    split
    · simp
    · next op found => simp [ends.2 op found]

theorem reaches_climb_of_question {minimum : Nat} {left e : Expr Unit}
    (question : s.kind = .mark .question) (binds : minimum ≤ ternaryPrecedence) :
    Reaches (climb minimum left s) e s' ↔
      ∃ thenBranch s₁, s₁.kind = .mark .colon ∧ Gives (binary 0 s.advance) thenBranch s₁ ∧
        ∃ elseBranch s₂, Gives (binary ternaryPrecedence s₁.advance) elseBranch s₂ ∧
          Reaches (climb minimum (.ternary (s₂.exprNode (left.span.merge elseBranch.span)) left
            thenBranch elseBranch) s₂.addExpr) e s' := by
  rw [climb, nextMark?_of_kind question]
  simp [-bind_pure_comp, Nat.not_lt.mpr binds, reaches_bind, and_assoc]

theorem reaches_climb_of_operator {minimum : Nat} {left e : Expr Unit} {op : Operator}
    (found : s.kind.infixOperator? = some op) (binds : minimum ≤ op.precedence) :
    Reaches (climb minimum left s) e s' ↔
      ∃ right s₁, Gives (binary op.rightMinimum s.advance) right s₁ ∧
        Reaches (climb minimum (.binary (s₁.exprNode (left.span.merge right.span)) op left right)
          s₁.addExpr) e s' := by
  have noQuestion : s.kind ≠ .mark .question := by
    intro question
    rw [question] at found
    cases found
  rw [climb, nextMark?_of_ne noQuestion]
  dsimp only
  split
  · simp_all
  · next other isOther =>
      cases found.symm.trans isOther
      simp [-bind_pure_comp, Nat.not_lt.mpr binds, reaches_bind]

/-! ## Prefix operators and casts -/

theorem gives_unary_of_operator {op : Operator} (found : s.kind.prefixOperator? = some op)
    {e : Expr Unit} : Gives (unary s) e s' ↔
      ∃ operand s₁, e = .unary (s₁.exprNode (s.span.merge operand.span)) op operand ∧
        Gives (unary s.advance) operand s₁ ∧ s' = s₁.addExpr := by
  rw [unary]
  split
  · next other isOther =>
      cases found.symm.trans isOther
      simp [-bind_pure_comp, gives_bind]
  · simp_all

/-- A parenthesis and a word that starts a type open a cast. -/
def OpensCast (s : State) : Prop :=
  s.kind = .mark .leftParen ∧ s.cursor.nextKind.isTypeWord

theorem kind_advance_of_mark {mark : Mark} (h : s.kind = .mark mark) :
    s.advance.kind = s.cursor.nextKind := by
  unfold State.kind Cursor.kind Cursor.current at *
  unfold State.advance Cursor.advance Cursor.nextKind
  cases ahead : s.cursor.ahead with
  | nil => simp [ahead] at h
  | cons token rest => cases rest <;> simp

theorem gives_unary_of_cast (cast : OpensCast s) {e : Expr Unit} : Gives (unary s) e s' ↔
    ∃ target s₁, s₁.kind = .mark .rightParen ∧ Gives (typeExpr s.advance) target s₁ ∧
      ∃ operand s₂,
        e = .binary (s₂.exprNode (s.span.merge operand.span)) .typeCast operand
            (.typeLiteral (s₁.advance.exprNode (s₁.spanFrom s.span)) target) ∧
          Gives (unary s₁.advance.addExpr) operand s₂ ∧ s' = s₂.addExpr := by
  have noPrefix : s.kind.prefixOperator? = none := by rw [cast.1]; rfl
  rw [unary]
  split
  · simp_all
  · unfold OpensCast at cast
    simp [-bind_pure_comp, gives_bind, cast, and_assoc]

theorem unary_of_postfixed (noPrefix : s.kind.prefixOperator? = none) (noCast : ¬OpensCast s) :
    unary s = postfixed s := by
  rw [unary]
  split
  · simp_all
  · exact if_neg noCast

/-! ## Indices and calls -/

theorem gives_postfixed {e : Expr Unit} : Gives (postfixed s) e s' ↔
    ∃ head s₁, Gives (primary s) head s₁ ∧ Reaches (suffixes head s₁) e s' := by
  rw [postfixed]
  simp [-bind_pure_comp, gives_bind]

theorem reaches_suffixes_of_bracket (bracket : s.kind = .mark .leftBracket) {head e : Expr Unit} :
    Reaches (suffixes head s) e s' ↔
      ∃ subscript s₁, s₁.kind = .mark .rightBracket ∧ Gives (binary 0 s.advance) subscript s₁ ∧
        Reaches (suffixes (.index (s₁.advance.exprNode (head.span.merge s₁.span)) head subscript)
          s₁.advance.addExpr) e s' := by
  rw [suffixes]
  split
  · simp [-bind_pure_comp, reaches_bind, and_assoc]
  · simp_all
  · simp_all

theorem reaches_suffixes_of_paren (paren : s.kind = .mark .leftParen) {head e : Expr Unit} :
    Reaches (suffixes head s) e s' ↔
      ∃ args s₁, Gives (exprList .rightParen s.advance) args s₁ ∧
        Reaches (suffixes (.call (s₁.exprNode (s₁.spanFrom head.span)) head args) s₁.addExpr)
          e s' := by
  rw [suffixes]
  split
  · simp_all
  · simp [-bind_pure_comp, reaches_bind]
  · simp_all

theorem reaches_suffixes_of_ne (bracket : s.kind ≠ .mark .leftBracket)
    (paren : s.kind ≠ .mark .leftParen) {head e : Expr Unit} :
    Reaches (suffixes head s) e s' ↔ e = head ∧ s' = s := by
  rw [suffixes]
  split <;> simp_all

/-! ## Primary expressions -/

theorem gives_primary_of_constant {value : Constant} (found : constant? s.kind = some value)
    {e : Expr Unit} : Gives (primary s) e s' ↔
      e = .constant (s.exprNode s.span) value ∧ s' = s.advance.addExpr := by
  rw [primary]
  split
  · next other isOther =>
      cases found.symm.trans isOther
      simp
  · simp_all

theorem gives_primary_of_ident {name : String} (found : s.kind = .ident name) {e : Expr Unit} :
    Gives (primary s) e s' ↔
      e = .ident (s.exprNode s.span) name ∧ s' = s.advance.addExpr := by
  rw [primary]
  split
  · next isConstant => rw [found] at isConstant; cases isConstant
  · split <;> simp_all

theorem gives_primary_of_paren (found : s.kind = .mark .leftParen) {e : Expr Unit} :
    Gives (primary s) e s' ↔
      ∃ s₁, s₁.kind = .mark .rightParen ∧ Gives (binary 0 s.advance) e s₁ ∧ s' = s₁.advance := by
  rw [primary]
  split
  · next isConstant => rw [found] at isConstant; cases isConstant
  · split
    · simp_all
    · simp only [gives_bind, gives_within, gives_expectMark, gives_pure]
      simp
    · simp_all
    · simp_all

theorem gives_primary_of_brace (found : s.kind = .mark .leftBrace) {e : Expr Unit} :
    Gives (primary s) e s' ↔ ∃ items s₁,
      e = .array (s₁.exprNode (s₁.spanFrom s.span)) items ∧
        Gives (exprList .rightBrace s.advance) items s₁ ∧ s' = s₁.addExpr := by
  rw [primary]
  split
  · next isConstant => rw [found] at isConstant; cases isConstant
  · split
    · simp_all
    · simp_all
    · simp [-bind_pure_comp, gives_bind]
    · simp_all

theorem fails_primary (noConstant : constant? s.kind = none)
    (noIdent : ∀ name, s.kind ≠ .ident name) (noParen : s.kind ≠ .mark .leftParen)
    (noBrace : s.kind ≠ .mark .leftBrace) : Fails (primary s) := by
  intro e s' gives
  rw [primary] at gives
  split at gives
  · simp_all
  · split at gives <;> simp_all

theorem primary_cases {e : Expr Unit} (gives : Gives (primary s) e s') :
    (∃ value, constant? s.kind = some value ∧ e = .constant (s.exprNode s.span) value ∧
        s' = s.advance.addExpr) ∨
      (∃ name, s.kind = .ident name ∧ e = .ident (s.exprNode s.span) name ∧
        s' = s.advance.addExpr) ∨
      (s.kind = .mark .leftParen ∧ ∃ s₁, s₁.kind = .mark .rightParen ∧
        Gives (binary 0 s.advance) e s₁ ∧ s' = s₁.advance) ∨
      (s.kind = .mark .leftBrace ∧ ∃ items s₁,
        e = .array (s₁.exprNode (s₁.spanFrom s.span)) items ∧
          Gives (exprList .rightBrace s.advance) items s₁ ∧ s' = s₁.addExpr) := by
  cases constant : constant? s.kind with
  | some value => exact .inl ⟨value, rfl, (gives_primary_of_constant constant).mp gives⟩
  | none =>
      by_cases paren : s.kind = .mark .leftParen
      · exact .inr (.inr (.inl ⟨paren, (gives_primary_of_paren paren).mp gives⟩))
      · by_cases brace : s.kind = .mark .leftBrace
        · exact .inr (.inr (.inr ⟨brace, (gives_primary_of_brace brace).mp gives⟩))
        · by_cases ident : ∃ name, s.kind = .ident name
          · rcases ident with ⟨name, ident⟩
            exact .inr (.inl ⟨name, ident, (gives_primary_of_ident ident).mp gives⟩)
          · exact absurd gives
              (fails_primary constant (fun name h => ident ⟨name, h⟩) paren brace _ _)

/-! ## Lists -/

theorem gives_exprList_of_close {close : Mark} (found : s.kind = .mark close)
    {items : List (Expr Unit)} :
    Gives (exprList close s) items s' ↔ items = [] ∧ s' = s.advance := by
  rw [exprList, nextMark?_of_kind found]
  simp

theorem exprList_of_ne {close : Mark} (found : s.kind ≠ .mark close) :
    exprList close s = listFrom close s := by
  rw [exprList, nextMark?_of_ne found]

theorem gives_listFrom {close : Mark} {items : List (Expr Unit)} :
    Gives (listFrom close s) items s' ↔ ∃ first s₁, Gives (binary 0 s) first s₁ ∧
      (s₁.kind = .mark .comma ∧
          (∃ rest, items = first :: rest ∧ Gives (listFrom close s₁.advance) rest s') ∨
        s₁.kind ≠ .mark .comma ∧ items = [first] ∧ s₁.kind = .mark close ∧ s' = s₁.advance) := by
  rw [listFrom]
  simp only [gives_bind]
  refine exists_congr fun first => exists_congr fun s₁ => ?_
  rw [← exists_prop]
  refine exists_congr fun _ => ?_
  by_cases comma : s₁.kind = .mark .comma
  · simp [-bind_pure_comp, nextMark?_of_kind comma, comma, gives_bind]
  · simp [-bind_pure_comp, nextMark?_of_ne comma, comma, gives_bind, and_assoc]

end Formulae.Parser
