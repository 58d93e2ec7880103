import Formulae.Parser.Expr

/-!
# Reading statements and programs

A statement is read by trying each form in a fixed order from the same state;
the first form that fits is taken.  If none fits, the error that lies furthest
on is reported.  A program is a list of statements; where no further statement
can be read, what is left has to be one expression, whose value is the result.
-/

namespace Formulae.Parser

/-- `mut T name` or `mut var name`, with or without `mut`. -/
def binder (s : State) : Outcome Binder s := do
  let ⟨mutable, s₁, h₁⟩ := eatKeyword .mutWord s
  if let some ⟨_, s₂, h₂⟩ := nextKeyword? .varWord s₁ then
    let ⟨name, s₃, h₃⟩ ← (expectIdent s₂).within h₂
    return .weaken h₁ ⟨⟨mutable, none, name⟩, s₃, h₃⟩
  else
    let ⟨written, s₂, h₂⟩ ← typeExpr s₁
    let ⟨name, s₃, h₃⟩ ← (expectIdent s₂).within h₂
    return .weaken h₁ ⟨⟨mutable, some written, name⟩, s₃, h₃⟩

/-- `mut T name`, with or without `mut`. -/
def param (s : State) : Outcome Param s := do
  let ⟨mutable, s₁, h₁⟩ := eatKeyword .mutWord s
  let ⟨written, s₂, h₂⟩ ← typeExpr s₁
  let ⟨name, s₃, h₃⟩ ← (expectIdent s₂).within h₂
  return .weaken h₁ ⟨⟨mutable, written, name, s₃.spanFrom s.span⟩, s₃, h₃⟩

/-- At least one parameter, separated by commas, up to and with the closing
parenthesis. -/
def paramsFrom (s : State) : Outcome (List Param) s := do
  let ⟨first, s₁, h₁⟩ ← param s
  if let some ⟨_, s₂, h₂⟩ := nextMark? .comma s₁ then
    let ⟨rest, s₃, h₃⟩ ← ((paramsFrom s₂).within h₂).within h₁
    return ⟨first :: rest, s₃, h₃⟩
  else
    let ⟨_, s₂, h₂⟩ ← (expectMark .rightParen s₁).within h₁
    return ⟨[first], s₂, h₂⟩
termination_by s.remaining

/-- The parameters of a declared function, up to and with the closing
parenthesis. -/
def params (s : State) : Outcome (List Param) s :=
  match nextMark? .rightParen s with
  | some ⟨_, s₁, h₁⟩ => .ok ⟨[], s₁, h₁⟩
  | none => paramsFrom s

/-- A condition in parentheses. -/
def condition (s : State) : Outcome (Expr Unit) s := do
  let ⟨_, s₁, h₁⟩ ← expectMark .leftParen s
  let ⟨cond, s₂, h₂⟩ ← (expression s₁).within h₁
  let ⟨_, s₃, h₃⟩ ← (expectMark .rightParen s₂).within h₂
  return ⟨cond, s₃, h₃⟩

/-- An expression that may be missing, with the mark after it. -/
def optionalBefore (mark : Mark) (s : State) : Outcome (Option (Expr Unit)) s :=
  match nextMark? mark s with
  | some ⟨_, s₁, h₁⟩ => .ok ⟨none, s₁, h₁⟩
  | none => do
      let ⟨e, s₁, h₁⟩ ← expression s
      let ⟨_, s₂, h₂⟩ ← (expectMark mark s₁).within h₁
      return ⟨some e, s₂, h₂⟩

/-- A statement that is complete at `s'`. -/
def complete {s : State} (s' : State) (start : Span) (build : StmtNode → Stmt Unit)
    (shorter : s'.remaining < s.remaining) : Parsed (Stmt Unit) s :=
  ⟨build (s'.stmtNode start), s'.addStmt, shorter⟩

/-! ## Forms without statements inside -/

/-- `T name = init;` -/
def varDecl (s : State) : Outcome (Stmt Unit) s := do
  let ⟨bound, s₁, h₁⟩ ← binder s
  let ⟨_, s₂, h₂⟩ ← (expectMark .equal s₁).within h₁
  let ⟨init, s₃, h₃⟩ ← (expression s₂).within h₂
  let ⟨_, s₄, h₄⟩ ← (expectMark .semicolon s₃).within h₃
  return complete s₄ s.span (.varDecl · bound init) h₄

/-- `return;` or `return value;` -/
def returnStmt (s : State) : Outcome (Stmt Unit) s := do
  let ⟨_, s₁, h₁⟩ ← expectKeyword .returnWord s
  let ⟨value, s₂, h₂⟩ ← (optionalBefore .semicolon s₁).within h₁
  return complete s₂ s.span (.ret · value) h₂

/-- `break;` -/
def breakStmt (s : State) : Outcome (Stmt Unit) s := do
  let ⟨_, s₁, h₁⟩ ← expectKeyword .breakWord s
  let ⟨_, s₂, h₂⟩ ← (expectMark .semicolon s₁).within h₁
  return complete s₂ s.span .brk h₂

/-- `continue;` -/
def continueStmt (s : State) : Outcome (Stmt Unit) s := do
  let ⟨_, s₁, h₁⟩ ← expectKeyword .continueWord s
  let ⟨_, s₂, h₂⟩ ← (expectMark .semicolon s₁).within h₁
  return complete s₂ s.span .cont h₂

/-- An expression followed by a semicolon. -/
def exprStmt (s : State) : Outcome (Stmt Unit) s := do
  let ⟨e, s₁, h₁⟩ ← expression s
  let ⟨_, s₂, h₂⟩ ← (expectMark .semicolon s₁).within h₁
  return complete s₂ s.span (.expr · e) h₂

/-- What may stand before the first semicolon of a loop header, with the
semicolon: nothing, a declaration or an expression. -/
def forInit (s : State) : Outcome (Option (Stmt Unit)) s :=
  match nextMark? .semicolon s with
  | some ⟨_, s₁, h₁⟩ => .ok ⟨none, s₁, h₁⟩
  | none => do
      let ⟨init, s₁, h₁⟩ ← orFurther (varDecl s) fun _ => exprStmt s
      return ⟨some init, s₁, h₁⟩

/-! ## Forms with statements inside -/

mutual

/-- The first form that fits, in this order. -/
def statement (s : State) : Outcome (Stmt Unit) s :=
  orFurther (block s) fun _ =>
  orFurther (functionDecl s) fun _ =>
  orFurther (varDecl s) fun _ =>
  orFurther (returnStmt s) fun _ =>
  orFurther (whileStmt s) fun _ =>
  orFurther (ifStmt s) fun _ =>
  orFurther (breakStmt s) fun _ =>
  orFurther (continueStmt s) fun _ =>
  orFurther (doWhileStmt s) fun _ =>
  orFurther (forEachStmt s) fun _ =>
  orFurther (forStmt s) fun _ =>
  exprStmt s
termination_by (s.remaining, 1)

/-- Statements up to and with the closing brace. -/
def blockBody (s : State) : Outcome (List (Stmt Unit)) s :=
  match nextMark? .rightBrace s with
  | some ⟨_, s₁, h₁⟩ => .ok ⟨[], s₁, h₁⟩
  | none =>
      if s.kind = .endOfInput then
        .error (s.unexpected (Token.Kind.mark .rightBrace).displayName)
      else do
        let ⟨first, s₁, h₁⟩ ← statement s
        let ⟨rest, s₂, h₂⟩ ← (blockBody s₁).within h₁
        return ⟨first :: rest, s₂, h₂⟩
termination_by (s.remaining, 2)

/-- Statements in braces. -/
def block (s : State) : Outcome (Stmt Unit) s := do
  let ⟨_, s₁, h₁⟩ ← expectMark .leftBrace s
  let ⟨stmts, s₂, h₂⟩ ← (blockBody s₁).within h₁
  return complete s₂ s.span (.block · stmts) h₂
termination_by (s.remaining, 0)

/-- `R name(T a, mut U b)` and a block. -/
def functionDecl (s : State) : Outcome (Stmt Unit) s := do
  let ⟨ret, s₁, h₁⟩ ← typeExpr s
  let ⟨name, s₂, h₂⟩ ← (expectIdent s₁).within h₁
  let ⟨_, s₃, h₃⟩ ← (expectMark .leftParen s₂).within h₂
  let ⟨bound, s₄, h₄⟩ ← (params s₃).within h₃
  let ⟨_, s₅, h₅⟩ ← (expectMark .leftBrace s₄).within h₄
  let ⟨body, s₆, h₆⟩ ← (blockBody s₅).within h₅
  return complete s₆ s.span (.function · ret name bound body) h₆
termination_by (s.remaining, 0)

/-- `while (cond) body` -/
def whileStmt (s : State) : Outcome (Stmt Unit) s := do
  let ⟨_, s₁, h₁⟩ ← expectKeyword .whileWord s
  let ⟨cond, s₂, h₂⟩ ← (condition s₁).within h₁
  let ⟨body, s₃, h₃⟩ ← (statement s₂).within h₂
  return complete s₃ s.span (.whileLoop · cond body) h₃
termination_by (s.remaining, 0)

/-- `if (cond) body`, perhaps with `else body`. -/
def ifStmt (s : State) : Outcome (Stmt Unit) s := do
  let ⟨_, s₁, h₁⟩ ← expectKeyword .ifWord s
  let ⟨cond, s₂, h₂⟩ ← (condition s₁).within h₁
  let ⟨thenBranch, s₃, h₃⟩ ← (statement s₂).within h₂
  if let some ⟨_, s₄, h₄⟩ := nextKeyword? .elseWord s₃ then
    let ⟨elseBranch, s₅, h₅⟩ ← ((statement s₄).within h₄).within h₃
    return complete s₅ s.span (.ifElse · cond thenBranch (some elseBranch)) h₅
  else
    return complete s₃ s.span (.ifElse · cond thenBranch none) h₃
termination_by (s.remaining, 0)

/-- `do body while (cond);` -/
def doWhileStmt (s : State) : Outcome (Stmt Unit) s := do
  let ⟨_, s₁, h₁⟩ ← expectKeyword .doWord s
  let ⟨body, s₂, h₂⟩ ← (statement s₁).within h₁
  let ⟨_, s₃, h₃⟩ ← (expectKeyword .whileWord s₂).within h₂
  let ⟨cond, s₄, h₄⟩ ← (condition s₃).within h₃
  let ⟨_, s₅, h₅⟩ ← (expectMark .semicolon s₄).within h₄
  return complete s₅ s.span (.doWhile · body cond) h₅
termination_by (s.remaining, 0)

/-- `for (T name : iterable) body` -/
def forEachStmt (s : State) : Outcome (Stmt Unit) s := do
  let ⟨_, s₁, h₁⟩ ← expectKeyword .forWord s
  let ⟨_, s₂, h₂⟩ ← (expectMark .leftParen s₁).within h₁
  let ⟨bound, s₃, h₃⟩ ← (binder s₂).within h₂
  let ⟨_, s₄, h₄⟩ ← (expectMark .colon s₃).within h₃
  let ⟨iterable, s₅, h₅⟩ ← (expression s₄).within h₄
  let ⟨_, s₆, h₆⟩ ← (expectMark .rightParen s₅).within h₅
  let ⟨body, s₇, h₇⟩ ← (statement s₆).within h₆
  return complete s₇ s.span (.forEach · bound iterable body) h₇
termination_by (s.remaining, 0)

/-- `for (init; cond; step) body`, every part of the header optional. -/
def forStmt (s : State) : Outcome (Stmt Unit) s := do
  let ⟨_, s₁, h₁⟩ ← expectKeyword .forWord s
  let ⟨_, s₂, h₂⟩ ← (expectMark .leftParen s₁).within h₁
  let ⟨init, s₃, h₃⟩ ← (forInit s₂).within h₂
  let ⟨cond, s₄, h₄⟩ ← (optionalBefore .semicolon s₃).within h₃
  let ⟨step, s₅, h₅⟩ ← (optionalBefore .rightParen s₄).within h₄
  let ⟨body, s₆, h₆⟩ ← (statement s₅).within h₅
  return complete s₆ s.span (.forLoop · init cond step body) h₆
termination_by (s.remaining, 0)

end

/-! ## Programs -/

/-- A parsed program and how many nodes were built for it. -/
structure Output where
  program : Program Unit
  exprs : Nat
  stmts : Nat

/-- One expression and nothing after it. -/
def wholeExpression (s : State) : Except ParseError (Expr Unit × State) := do
  let ⟨e, s₁, _⟩ ← expression s
  if s₁.kind = .endOfInput then
    return (e, s₁)
  else
    throw (s₁.unexpected "end of input")

/-- Statements up to the end of the input or up to a last expression. -/
def programBody (s : State) :
    Except ParseError (List (Stmt Unit) × Option (Expr Unit) × State) :=
  if s.kind = .endOfInput then
    .ok ([], none, s)
  else
    match statement s with
    | .ok ⟨first, s₁, _⟩ => do
        let (rest, tail, last) ← programBody s₁
        return (first :: rest, tail, last)
    | .error error => do
        let (tail, last) ← orFurther (.error error) fun _ => wholeExpression s
        return ([], some tail, last)
termination_by s.remaining

/-- Read a program: statements, perhaps with a last expression. -/
def parse (tokens : TokenList) : Except ParseError Output := do
  let s := State.ofTokens tokens
  let (body, tail, last) ← programBody s
  return ⟨⟨body, tail, last.spanFrom s.span⟩, last.exprs, last.stmts⟩

/-- Read a single expression that takes up all tokens. -/
def parseExpression (tokens : TokenList) : Except ParseError Output := do
  let s := State.ofTokens tokens
  let (tail, last) ← wholeExpression s
  return ⟨⟨[], some tail, last.spanFrom s.span⟩, last.exprs, last.stmts⟩

end Formulae.Parser
