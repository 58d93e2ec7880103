import Formulae.Parser.Type

/-!
# Reading expressions

Infix operators are read by climbing: after an operand, operators that bind at
least as tightly as asked are taken one after the other, each with a right
operand that binds tightly enough.  The conditional `? :` takes part in this
with a precedence of its own.  Prefix operators and casts stand below, and
indices and calls bind tightest.
-/

namespace Formulae.Parser

/-- The constant that a single token is. -/
def constant? : Token.Kind → Option Constant
  | .int value => some (.int value)
  | .float value => some (.float value)
  | .string text => some (.string text)
  | .keyword .trueWord => some (.bool true)
  | .keyword .falseWord => some (.bool false)
  | .keyword .nullWord => some .null
  | _ => none

theorem ne_endOfInput_of_constant? {kind : Token.Kind} {value : Constant}
    (h : constant? kind = some value) : kind ≠ .endOfInput := by
  rintro rfl
  cases h

theorem State.remaining_advance_lt_of_constant? {s : State} {value : Constant}
    (h : constant? s.kind = some value) : s.advance.remaining < s.remaining :=
  State.remaining_advance_lt rfl (ne_endOfInput_of_constant? h)

mutual

/-- An expression whose infix operators bind at least as tightly as
`minimum`. -/
def binary (minimum : Nat) (s : State) : Outcome (Expr Unit) s := do
  let ⟨left, s₁, h₁⟩ ← unary s
  return (← climb minimum left s₁).within h₁
termination_by (s.remaining, 3)

/-- Take the operators that follow an operand, as long as they bind at least
as tightly as `minimum`. -/
def climb (minimum : Nat) (left : Expr Unit) (s : State) :
    Except ParseError (Extended (Expr Unit) s) :=
  match nextMark? .question s with
  | some ⟨_, s₁, h₁⟩ =>
      if ternaryPrecedence < minimum then
        .ok (.unchanged left s)
      else do
        let ⟨thenBranch, s₂, h₂⟩ ← (binary 0 s₁).within h₁
        let ⟨_, s₃, h₃⟩ ← (expectMarkAs .colon "\":\" (Ternary)" s₂).within h₂
        let ⟨elseBranch, s₄, h₄⟩ ← (binary ternaryPrecedence s₃).within h₃
        let node := s₄.exprNode (left.span.merge elseBranch.span)
        have h₅ : s₄.addExpr.remaining < s.remaining := h₄
        let whole ← climb minimum (.ternary node left thenBranch elseBranch) s₄.addExpr
        return .ofParsed (whole.within h₅)
  | none =>
      match found : s.kind.infixOperator? with
      | none => .ok (.unchanged left s)
      | some op =>
          if op.precedence < minimum then
            .ok (.unchanged left s)
          else do
            have h₀ : s.advance.remaining < s.remaining :=
              State.remaining_advance_lt_of_infix found
            let ⟨right, s₁, h₁⟩ ← (binary op.rightMinimum s.advance).within h₀
            let node := s₁.exprNode (left.span.merge right.span)
            have h₂ : s₁.addExpr.remaining < s.remaining := h₁
            let whole ← climb minimum (.binary node op left right) s₁.addExpr
            return .ofParsed (whole.within h₂)
termination_by (s.remaining, 4)

/-- An operand with its prefix operators and casts. -/
def unary (s : State) : Outcome (Expr Unit) s :=
  match found : s.kind.prefixOperator? with
  | some op => do
      have h₀ : s.advance.remaining < s.remaining :=
        State.remaining_advance_lt_of_prefix found
      let ⟨operand, s₁, h₁⟩ ← (unary s.advance).within h₀
      let node := s₁.exprNode (s.span.merge operand.span)
      return ⟨.unary node op operand, s₁.addExpr, h₁⟩
  | none =>
      if s.kind = .mark .leftParen ∧ s.cursor.nextKind.isTypeWord then do
        let ⟨_, s₁, h₁⟩ ← expectMark .leftParen s
        let ⟨target, s₂, h₂⟩ ← (typeExpr s₁).within h₁
        let literalSpan := s₂.spanFrom s.span
        let ⟨_, s₃, h₃⟩ ← (expectMark .rightParen s₂).within h₂
        let literal := .typeLiteral (s₃.exprNode literalSpan) target
        have h₄ : s₃.addExpr.remaining < s.remaining := h₃
        let ⟨operand, s₄, h₅⟩ ← (unary s₃.addExpr).within h₄
        let node := s₄.exprNode (s.span.merge operand.span)
        return ⟨.binary node .typeCast operand literal, s₄.addExpr, h₅⟩
      else
        postfixed s
termination_by (s.remaining, 2)

/-- A primary expression with its indices and calls. -/
def postfixed (s : State) : Outcome (Expr Unit) s := do
  let ⟨head, s₁, h₁⟩ ← primary s
  return (← suffixes head s₁).within h₁
termination_by (s.remaining, 1)

/-- Any number of indices and argument lists after an expression. -/
def suffixes (head : Expr Unit) (s : State) : Except ParseError (Extended (Expr Unit) s) :=
  match h : s.kind with
  | .mark .leftBracket => do
      have h₀ : s.advance.remaining < s.remaining := State.remaining_advance_lt_of_mark h
      let ⟨subscript, s₁, h₁⟩ ← (binary 0 s.advance).within h₀
      let ⟨close, s₂, h₂⟩ ← (expectMark .rightBracket s₁).within h₁
      let node := s₂.exprNode (head.span.merge close)
      have h₃ : s₂.addExpr.remaining < s.remaining := h₂
      let whole ← suffixes (.index node head subscript) s₂.addExpr
      return .ofParsed (whole.within h₃)
  | .mark .leftParen => do
      have h₀ : s.advance.remaining < s.remaining := State.remaining_advance_lt_of_mark h
      let ⟨args, s₁, h₁⟩ ← (exprList .rightParen s.advance).within h₀
      let node := s₁.exprNode (s₁.spanFrom head.span)
      have h₂ : s₁.addExpr.remaining < s.remaining := h₁
      let whole ← suffixes (.call node head args) s₁.addExpr
      return .ofParsed (whole.within h₂)
  | _ => .ok (.unchanged head s)
termination_by (s.remaining, 0)

/-- A constant, a name, an array literal, or an expression in parentheses,
which leave no trace in the tree. -/
def primary (s : State) : Outcome (Expr Unit) s :=
  match found : constant? s.kind with
  | some value =>
      .ok ⟨.constant (s.exprNode s.span) value, s.advance.addExpr,
        State.remaining_advance_lt_of_constant? found⟩
  | none =>
      match h : s.kind with
      | .ident name =>
          .ok ⟨.ident (s.exprNode s.span) name, s.advance.addExpr,
            State.remaining_advance_lt_of_ident h⟩
      | .mark .leftParen => do
          have h₀ : s.advance.remaining < s.remaining := State.remaining_advance_lt_of_mark h
          let ⟨inner, s₁, h₁⟩ ← (binary 0 s.advance).within h₀
          let ⟨_, s₂, h₂⟩ ← (expectMark .rightParen s₁).within h₁
          return ⟨inner, s₂, h₂⟩
      | .mark .leftBrace => do
          have h₀ : s.advance.remaining < s.remaining := State.remaining_advance_lt_of_mark h
          let ⟨items, s₁, h₁⟩ ← (exprList .rightBrace s.advance).within h₀
          let node := s₁.exprNode (s₁.spanFrom s.span)
          return ⟨.array node items, s₁.addExpr, h₁⟩
      | _ => .error (s.unexpected "expression")
termination_by (s.remaining, 0)

/-- Expressions separated by commas, up to and with the mark that closes
them. -/
def exprList (close : Mark) (s : State) : Outcome (List (Expr Unit)) s :=
  match nextMark? close s with
  | some ⟨_, s₁, h₁⟩ => .ok ⟨[], s₁, h₁⟩
  | none => listFrom close s
termination_by (s.remaining, 5)

/-- At least one expression, then as `exprList`. -/
def listFrom (close : Mark) (s : State) : Outcome (List (Expr Unit)) s := do
  let ⟨first, s₁, h₁⟩ ← binary 0 s
  if let some ⟨_, s₂, h₂⟩ := nextMark? .comma s₁ then
    let ⟨rest, s₃, h₃⟩ ← ((listFrom close s₂).within h₂).within h₁
    return ⟨first :: rest, s₃, h₃⟩
  else
    let ⟨_, s₂, h₂⟩ ← (expectMark close s₁).within h₁
    return ⟨[first], s₂, h₂⟩
termination_by (s.remaining, 4)

end

/-- A full expression, assignments included. -/
def expression (s : State) : Outcome (Expr Unit) s :=
  binary 0 s

end Formulae.Parser
