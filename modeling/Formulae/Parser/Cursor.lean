import Formulae.Operator
import Formulae.Token

/-!
# A place among the tokens

A cursor splits a token list into the tokens already passed and those ahead.
The end of the input is no token of the list: it is what the cursor shows when
nothing is ahead, and no step leads past it.  `remaining_advance_lt` is the fact
on which every loop of the parser ends.
-/

namespace Formulae

/-- The token that was found and what was wanted instead. -/
structure ParseError where
  expected : String
  found : Token
deriving DecidableEq

namespace ParseError

/-- Where the unwanted token starts. -/
def position (error : ParseError) : Nat :=
  error.found.span.start

/-- The tokens ended before the construct did. -/
def isEndOfInput (error : ParseError) : Bool :=
  error.found.kind = .endOfInput

/-- The text shown to the user. -/
def message (error : ParseError) : String :=
  let complaint :=
    if error.isEndOfInput then
      "Unexpected end of input, expected " ++ error.expected
    else
      "Expected " ++ error.expected ++ ", found " ++ error.found.kind.displayName
  complaint ++ " at position " ++ toString error.position

/-- Of two errors the one that lies further on, the first of equals. -/
def further (one other : ParseError) : ParseError :=
  if one.position < other.position then other else one

end ParseError

/-- A place among tokens: those passed, the last one first, those ahead, and the
offset of the end of the input. -/
structure Cursor where
  passed : List Token
  ahead : List Token
  stop : Nat

namespace Cursor

/-- The place before all tokens. -/
def ofTokens (tokens : TokenList) : Cursor :=
  ⟨[], tokens.items, tokens.stop⟩

/-- The number of tokens passed. -/
def position (c : Cursor) : Nat :=
  c.passed.length

/-- The number of tokens ahead. -/
def remaining (c : Cursor) : Nat :=
  c.ahead.length

/-- The next token. -/
def current (c : Cursor) : Token :=
  c.ahead.head?.getD ⟨.endOfInput, Span.point c.stop⟩

/-- The kind of the next token. -/
def kind (c : Cursor) : Token.Kind :=
  c.current.kind

/-- The span of the next token. -/
def span (c : Cursor) : Span :=
  c.current.span

/-- The span of the token passed last, empty at the start. -/
def previousSpan (c : Cursor) : Span :=
  (c.passed.head?.map Token.span).getD ⟨0, 0⟩

/-- The kind of the token after the next one. -/
def nextKind (c : Cursor) : Token.Kind :=
  (c.ahead[1]?.map Token.kind).getD .endOfInput

/-- Nothing is ahead. -/
def isAtEnd (c : Cursor) : Bool :=
  c.kind = .endOfInput

/-- The place after the next token; the end of the input stays. -/
def advance (c : Cursor) : Cursor :=
  match c.ahead with
  | [] => c
  | token :: rest => { c with passed := token :: c.passed, ahead := rest }

/-- The place with `position` tokens passed, or the end. -/
def seek (c : Cursor) (position : Nat) : Cursor :=
  let tokens := c.passed.reverse ++ c.ahead
  { c with passed := (tokens.take position).reverse, ahead := tokens.drop position }

/-- The next token is of this kind. -/
def check (c : Cursor) (kind : Token.Kind) : Bool :=
  c.kind = kind

/-- Pass the next token if it is of this kind, and say whether it was. -/
def eat (c : Cursor) (kind : Token.Kind) : Bool × Cursor :=
  if c.check kind then (true, c.advance) else (false, c)

/-- The next token is not what was wanted. -/
def unexpected (c : Cursor) (expected : String) : ParseError :=
  ⟨expected, c.current⟩

/-- Pass a token of this kind, or report that something else was wanted. -/
def expect (c : Cursor) (kind : Token.Kind) (expected : String) :
    Except ParseError (Span × Cursor) :=
  if c.check kind then .ok (c.span, c.advance) else .error (c.unexpected expected)

/-- Pass an identifier. -/
def expectIdent (c : Cursor) : Except ParseError (String × Cursor) :=
  match c.kind with
  | .ident name => .ok (name, c.advance)
  | _ => .error (c.unexpected "identifier")

/-! ## Progress -/

/-- Passing any token but the end of the input leaves fewer ahead. -/
theorem remaining_advance_lt {c : Cursor} (h : c.kind ≠ .endOfInput) :
    c.advance.remaining < c.remaining := by
  unfold kind current at h
  unfold advance remaining
  cases ahead : c.ahead with
  | nil => simp [ahead] at h
  | cons => simp

theorem remaining_advance_lt_of_kind {c : Cursor} {kind : Token.Kind} (h : c.kind = kind)
    (real : kind ≠ .endOfInput) : c.advance.remaining < c.remaining :=
  remaining_advance_lt (h ▸ real)

end Cursor

/-! ## What tokens mean to the grammar -/

namespace Token.Kind

/-- The operator that the token is between two operands. -/
def infixOperator? (kind : Token.Kind) : Option Operator :=
  kind.operatorSymbol?.bind fun symbol => (Operator.resolve symbol .infixOp).toOption

/-- The operator that the token is before an operand. -/
def prefixOperator? (kind : Token.Kind) : Option Operator :=
  kind.operatorSymbol?.bind fun symbol => (Operator.resolve symbol .prefixOp).toOption

/-- The token can only start a type, not a name. -/
def isTypeWord : Token.Kind → Bool
  | .basicType _ => true
  | .keyword .functionWord => true
  | _ => false

theorem ne_endOfInput_of_infixOperator? {kind : Token.Kind} {op : Operator}
    (h : kind.infixOperator? = some op) : kind ≠ .endOfInput := by
  rintro rfl
  cases h

theorem ne_endOfInput_of_prefixOperator? {kind : Token.Kind} {op : Operator}
    (h : kind.prefixOperator? = some op) : kind ≠ .endOfInput := by
  rintro rfl
  cases h

end Token.Kind

end Formulae
