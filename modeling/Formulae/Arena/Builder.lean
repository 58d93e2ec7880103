import Formulae.Arena.Basic
import Formulae.Parser.Stmt

/-!
# Reading into storage

A reader stands at a place among the tokens and adds nodes to storage as it goes.  A step that
fails leaves the reader where it failed, with the nodes added so far; `attempt` takes it back.
-/

namespace Formulae

/-- A place among the tokens, and the nodes added so far. -/
structure Place where
  cursor : Cursor
  arena : Arena

/-- The place as a state of reading trees, which counts the nodes. -/
def Place.state (p : Place) : Parser.State :=
  ⟨p.cursor, p.arena.exprs.length, p.arena.stmts.length⟩

/-- Before all tokens, with no node added. -/
def Place.ofTokens (tokens : TokenList) : Place :=
  ⟨Cursor.ofTokens tokens, .empty⟩

/-- A step of reading. -/
abbrev Build := EStateM ParseError Place

namespace Build

variable {α : Type}

/-! ## Tokens -/

/-- The kind of the next token. -/
def kind : Build Token.Kind :=
  fun p => .ok p.cursor.kind p

/-- The kind of the token after the next one. -/
def nextKind : Build Token.Kind :=
  fun p => .ok p.cursor.nextKind p

/-- The span of the next token. -/
def span : Build Span :=
  fun p => .ok p.cursor.span p

/-- From `start` to the end of the last token passed. -/
def spanFrom (start : Span) : Build Span :=
  fun p => .ok (start.merge p.cursor.previousSpan) p

/-- Pass the next token. -/
def advance : Build Unit :=
  fun p => .ok () { p with cursor := p.cursor.advance }

/-- The next token is not what was wanted. -/
def unexpected (expected : String) : Build α :=
  fun p => .error (p.cursor.unexpected expected) p

/-- Pass the next token if it is of this kind, and say whether it was. -/
def eat (kind : Token.Kind) : Build Bool :=
  fun p => .ok (p.cursor.eat kind).1 { p with cursor := (p.cursor.eat kind).2 }

/-- A rule that adds no node. -/
def read (rule : (s : Parser.State) → Parser.Outcome α s) : Build α :=
  fun p =>
    match rule p.state with
    | .ok parsed => .ok parsed.value { p with cursor := parsed.state.cursor }
    | .error error => .error error p

/-- Pass a mark. -/
def mark (mark : Mark) : Build Span :=
  read (Parser.expectMark mark)

/-- Pass a reserved word. -/
def keyword (word : Keyword) : Build Span :=
  read (Parser.expectKeyword word)

/-! ## Storage -/

/-- Add to storage. -/
def alloc (add : StateM Arena α) : Build α :=
  fun p => .ok (add p.arena).1 { p with arena := (add p.arena).2 }

/-- The stretch of source of an expression in storage. -/
def exprSpan (id : Nat) : Build Span :=
  fun p => .ok (p.arena.exprSpan id) p

/-- Add an expression. -/
def addExpr (kind : ExprKind) (span : Span) : Build Nat :=
  alloc (Arena.addExpr kind span)

/-- Add a statement that reaches to the last token passed. -/
def addStmt (kind : StmtKind) (start : Span) : Build Nat := do
  let span ← spanFrom start
  alloc (Arena.addStmt kind span)

/-! ## Choice -/

/-- Run a step, and go back to where it began if it fails: no token is passed, and the nodes that
were added are given up. -/
def attempt (step : Build α) : Build α :=
  fun p =>
    match step p with
    | .ok value p' => .ok value p'
    | .error error p' => .error error ⟨p.cursor, p'.arena.rollback p.arena.checkpoint⟩

/-- Attempt the steps in order up to the first that succeeds.  If none does, report the error
that lies furthest on, `best` included. -/
def firstOf : Option ParseError → List (Build α) → Build α
  | best, [] => fun p => .error (best.getD (p.cursor.unexpected "statement")) p
  | best, step :: rest => fun p =>
      match attempt step p with
      | .ok value p' => .ok value p'
      | .error error p' =>
          firstOf (some ((best.map fun best => best.further error).getD error)) rest p'

/-- Run a step and go on with what it gives.  If the step itself fails, attempt another from where
it ended. -/
def orAttempt {β : Type} (step : Build β) (next : β → Build α) (other : Build α) : Build α :=
  fun p =>
    match step p with
    | .ok value p' => next value p'
    | .error error p' =>
        match attempt other p' with
        | .ok value p'' => .ok value p''
        | .error error' p'' => .error (error.further error') p''

end Build

end Formulae
