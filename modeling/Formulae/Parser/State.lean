import Formulae.Parser.Cursor
import Formulae.Tree.Basic

/-!
# The state of a parse

A state is a place among the tokens and the number of nodes built so far.
Nothing is ever undone: an attempt that fails is forgotten together with the
state it led to, and the next one starts from the old state.

Results say how far they got.  `Parsed` holds a state with fewer tokens ahead
than before, `Extended` one with no more.  Recursion on what is ahead therefore
ends, and it needs no other argument.
-/

namespace Formulae.Parser

/-- A place among the tokens, and how many nodes are complete. -/
structure State where
  cursor : Cursor
  exprs : Nat
  stmts : Nat

namespace State

/-- Before all tokens, with no node built. -/
def ofTokens (tokens : TokenList) : State :=
  ⟨Cursor.ofTokens tokens, 0, 0⟩

/-- The number of tokens ahead. -/
def remaining (s : State) : Nat :=
  s.cursor.remaining

/-- The kind of the next token. -/
def kind (s : State) : Token.Kind :=
  s.cursor.kind

/-- The span of the next token. -/
def span (s : State) : Span :=
  s.cursor.span

/-- The state after the next token. -/
def advance (s : State) : State :=
  { s with cursor := s.cursor.advance }

/-- The state after one more expression is complete. -/
def addExpr (s : State) : State :=
  { s with exprs := s.exprs + 1 }

/-- The state after one more statement is complete. -/
def addStmt (s : State) : State :=
  { s with stmts := s.stmts + 1 }

/-- What the next expression carries. -/
def exprNode (s : State) (span : Span) : Node Unit :=
  ⟨s.exprs, span, ()⟩

/-- From `start` to the end of the last token passed. -/
def spanFrom (s : State) (start : Span) : Span :=
  start.merge s.cursor.previousSpan

/-- What the next statement carries; it reaches to the last token passed. -/
def stmtNode (s : State) (start : Span) : StmtNode :=
  ⟨s.stmts, s.spanFrom start⟩

/-- The next token is not what was wanted. -/
def unexpected (s : State) (expected : String) : ParseError :=
  s.cursor.unexpected expected

@[simp]
theorem remaining_addExpr (s : State) : s.addExpr.remaining = s.remaining :=
  rfl

@[simp]
theorem remaining_addStmt (s : State) : s.addStmt.remaining = s.remaining :=
  rfl

theorem remaining_advance_lt {s : State} {kind : Token.Kind} (h : s.kind = kind)
    (real : kind ≠ .endOfInput) : s.advance.remaining < s.remaining :=
  Cursor.remaining_advance_lt_of_kind h real

theorem remaining_advance_lt_of_mark {s : State} {mark : Mark} (h : s.kind = .mark mark) :
    s.advance.remaining < s.remaining :=
  remaining_advance_lt h nofun

theorem remaining_advance_lt_of_keyword {s : State} {word : Keyword}
    (h : s.kind = .keyword word) : s.advance.remaining < s.remaining :=
  remaining_advance_lt h nofun

theorem remaining_advance_lt_of_basicType {s : State} {type : BasicType}
    (h : s.kind = .basicType type) : s.advance.remaining < s.remaining :=
  remaining_advance_lt h nofun

theorem remaining_advance_lt_of_ident {s : State} {name : String} (h : s.kind = .ident name) :
    s.advance.remaining < s.remaining :=
  remaining_advance_lt h nofun

theorem remaining_advance_lt_of_infix {s : State} {op : Operator}
    (h : s.kind.infixOperator? = some op) : s.advance.remaining < s.remaining :=
  remaining_advance_lt rfl (Token.Kind.ne_endOfInput_of_infixOperator? h)

theorem remaining_advance_lt_of_prefix {s : State} {op : Operator}
    (h : s.kind.prefixOperator? = some op) : s.advance.remaining < s.remaining :=
  remaining_advance_lt rfl (Token.Kind.ne_endOfInput_of_prefixOperator? h)

end State

/-- A result with the state after it, which has fewer tokens ahead. -/
structure Parsed (α : Type) (before : State) where
  value : α
  state : State
  shorter : state.remaining < before.remaining

/-- A result with the state after it, which has no more tokens ahead. -/
structure Extended (α : Type) (before : State) where
  value : α
  state : State
  shorter : state.remaining ≤ before.remaining

/-- What a rule of the grammar gives from a state. -/
abbrev Outcome (α : Type) (before : State) :=
  Except ParseError (Parsed α before)

/-! ## Steps in a row

Each rule is a row of steps, and every step but the first starts where the one
before it ended.  Seen from the state before the whole row, a later step has
fewer tokens ahead at its end if it has so at its start. -/

/-- A result from a later state, seen from an earlier one. -/
def Parsed.within {α : Type} {s s₁ : State} (h : s₁.remaining < s.remaining)
    (parsed : Parsed α s₁) : Parsed α s :=
  ⟨parsed.value, parsed.state, Nat.lt_trans parsed.shorter h⟩

/-- A result from a state with no more tokens ahead, seen from the one before. -/
def Parsed.weaken {α : Type} {s s₁ : State} (h : s₁.remaining ≤ s.remaining)
    (parsed : Parsed α s₁) : Parsed α s :=
  ⟨parsed.value, parsed.state, Nat.lt_of_lt_of_le parsed.shorter h⟩

/-- What a rule gives from a later state, seen from an earlier one. -/
def Outcome.within {α : Type} {s s₁ : State} (h : s₁.remaining < s.remaining)
    (outcome : Outcome α s₁) : Outcome α s :=
  outcome.map (Parsed.within h)

theorem Outcome.within_eq_ok_iff {α : Type} {s s₁ : State} {h : s₁.remaining < s.remaining}
    {outcome : Outcome α s₁} {parsed : Parsed α s} :
    outcome.within h = .ok parsed ↔
      ∃ found, outcome = .ok found ∧ found.value = parsed.value ∧ found.state = parsed.state := by
  obtain ⟨value, state, shorter⟩ := parsed
  cases outcome <;> simp [Outcome.within, Except.map, Parsed.within]

theorem Outcome.within_eq_error_iff {α : Type} {s s₁ : State}
    {h : s₁.remaining < s.remaining} {outcome : Outcome α s₁} {error : ParseError} :
    outcome.within h = .error error ↔ outcome = .error error := by
  cases outcome <;> simp [Outcome.within, Except.map]

namespace Extended

/-- The result of reading nothing. -/
def unchanged {α : Type} (value : α) (s : State) : Extended α s :=
  ⟨value, s, Nat.le_refl _⟩

/-- A result from a later state, seen from an earlier one. -/
def within {α : Type} {s s₁ : State} (h : s₁.remaining < s.remaining)
    (extended : Extended α s₁) : Parsed α s :=
  ⟨extended.value, extended.state, Nat.lt_of_le_of_lt extended.shorter h⟩

/-- A result with fewer tokens ahead has no more of them. -/
def ofParsed {α : Type} {s : State} (parsed : Parsed α s) : Extended α s :=
  ⟨parsed.value, parsed.state, Nat.le_of_lt parsed.shorter⟩

end Extended

/-! ## Single tokens -/

/-- Pass a mark if it comes next. -/
def nextMark? (mark : Mark) (s : State) : Option (Parsed Span s) :=
  if h : s.kind = .mark mark then
    some ⟨s.span, s.advance, State.remaining_advance_lt_of_mark h⟩
  else
    none

/-- Pass a reserved word if it comes next. -/
def nextKeyword? (word : Keyword) (s : State) : Option (Parsed Span s) :=
  if h : s.kind = .keyword word then
    some ⟨s.span, s.advance, State.remaining_advance_lt_of_keyword h⟩
  else
    none

/-- Pass a mark, or report that `expected` was wanted. -/
def expectMarkAs (mark : Mark) (expected : String) (s : State) : Outcome Span s :=
  match nextMark? mark s with
  | some parsed => .ok parsed
  | none => .error (s.unexpected expected)

/-- Pass a mark. -/
def expectMark (mark : Mark) (s : State) : Outcome Span s :=
  expectMarkAs mark (Token.Kind.mark mark).displayName s

/-- Pass a reserved word. -/
def expectKeyword (word : Keyword) (s : State) : Outcome Span s :=
  match nextKeyword? word s with
  | some parsed => .ok parsed
  | none => .error (s.unexpected word.word)

/-- Pass an identifier. -/
def expectIdent (s : State) : Outcome String s :=
  match h : s.kind with
  | .ident name => .ok ⟨name, s.advance, State.remaining_advance_lt_of_ident h⟩
  | _ => .error (s.unexpected "identifier")

/-- Pass a reserved word if it comes next, and say whether it did. -/
def eatKeyword (word : Keyword) (s : State) : Extended Bool s :=
  match nextKeyword? word s with
  | some parsed => .ofParsed ⟨true, parsed.state, parsed.shorter⟩
  | none => .unchanged false s

/-! ## Choice -/

/-- The first result if there is one, else the second; if both fail, the error
that lies further on. -/
def orFurther {α : Type} (first : Except ParseError α) (second : Unit → Except ParseError α) :
    Except ParseError α :=
  match first with
  | .ok result => .ok result
  | .error error =>
      match second () with
      | .ok result => .ok result
      | .error other => .error (error.further other)

end Formulae.Parser
