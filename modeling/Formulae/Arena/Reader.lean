import Formulae.Arena.Builder

/-!
# Reading expressions, statements and programs into storage

The rules of the grammar once more, as steps that add nodes.  The numbers `n` bound the depth of
nesting; the rules for a whole expression and a whole statement take a bound that is never met.
-/

namespace Formulae.Build

open Formulae.Parser (constant?)

/-! ## Expressions -/

mutual

/-- An expression whose infix operators bind at least as tightly as `minimum`. -/
def binary : Nat → Nat → Build Nat
  | 0, _ => unexpected "expression"
  | n + 1, minimum => do
      let left ← unary n
      climb n minimum left

/-- Take the operators that follow an operand, as long as they bind at least as tightly as
`minimum`. -/
def climb : Nat → Nat → Nat → Build Nat
  | 0, _, _ => unexpected "expression"
  | n + 1, minimum, left => do
      let next ← kind
      if next = .mark .question then
        if ternaryPrecedence < minimum then
          return left
        else
          advance
          let thenBranch ← binary n 0
          let _ ← read (Parser.expectMarkAs .colon "\":\" (Ternary)")
          let elseBranch ← binary n ternaryPrecedence
          let first ← exprSpan left
          let last ← exprSpan elseBranch
          let whole ← addExpr (.ternary left thenBranch elseBranch) (first.merge last)
          climb n minimum whole
      else
        match next.infixOperator? with
        | none => return left
        | some op =>
            if op.precedence < minimum then
              return left
            else
              advance
              let right ← binary n op.rightMinimum
              let first ← exprSpan left
              let last ← exprSpan right
              let whole ← addExpr (.binary op left right) (first.merge last)
              climb n minimum whole

/-- An operand with its prefix operators and casts. -/
def unary : Nat → Build Nat
  | 0 => unexpected "expression"
  | n + 1 => do
      let start ← span
      let next ← kind
      match next.prefixOperator? with
      | some op =>
          advance
          let operand ← unary n
          let last ← exprSpan operand
          addExpr (.unary op operand) (start.merge last)
      | none =>
          let second ← nextKind
          if next = .mark .leftParen ∧ second.isTypeWord then
            advance
            let type ← read Parser.typeExpr
            let literalSpan ← spanFrom start
            let _ ← mark .rightParen
            let target ← addExpr (.typeLiteral type) literalSpan
            let operand ← unary n
            let last ← exprSpan operand
            addExpr (.binary .typeCast operand target) (start.merge last)
          else
            postfixed n

/-- A primary expression with its indices and calls. -/
def postfixed : Nat → Build Nat
  | 0 => unexpected "expression"
  | n + 1 => do
      let head ← primary n
      suffixes n head

/-- Any number of indices and argument lists after an expression. -/
def suffixes : Nat → Nat → Build Nat
  | 0, _ => unexpected "expression"
  | n + 1, head => do
      match ← kind with
      | .mark .leftBracket =>
          advance
          let subscript ← binary n 0
          let close ← mark .rightBracket
          let first ← exprSpan head
          let whole ← addExpr (.index head subscript) (first.merge close)
          suffixes n whole
      | .mark .leftParen =>
          advance
          let args ← exprList n .rightParen
          let first ← exprSpan head
          let whole ← addExpr (.call head args) (← spanFrom first)
          suffixes n whole
      | _ => return head

/-- A constant, a name, an array literal, or an expression in parentheses, for which no node is
added. -/
def primary : Nat → Build Nat
  | 0 => unexpected "expression"
  | n + 1 => do
      let start ← span
      let next ← kind
      match constant? next with
      | some value =>
          advance
          addExpr (.constant value) start
      | none =>
          match next with
          | .ident name =>
              advance
              addExpr (.ident name) start
          | .mark .leftParen =>
              advance
              let inner ← binary n 0
              let _ ← mark .rightParen
              return inner
          | .mark .leftBrace =>
              advance
              let items ← exprList n .rightBrace
              addExpr (.array items) (← spanFrom start)
          | _ => unexpected "expression"

/-- Expressions separated by commas, up to and with the mark that closes them.  Their list is
added behind the lists inside of them. -/
def exprList : Nat → Mark → Build Window
  | 0, _ => unexpected "expression"
  | n + 1, close => do
      if ← eat (.mark close) then
        alloc (Arena.addExprList [])
      else
        let ids ← listFrom n close
        alloc (Arena.addExprList ids)

/-- At least one expression, then as `exprList`. -/
def listFrom : Nat → Mark → Build (List Nat)
  | 0, _ => unexpected "expression"
  | n + 1, close => do
      let first ← binary n 0
      if ← eat (.mark .comma) then
        let rest ← listFrom n close
        return first :: rest
      else
        let _ ← mark close
        return [first]

end

/-- A full expression, assignments included. -/
def expression : Build Nat :=
  fun p => binary (8 * p.cursor.remaining + 4) 0 p

/-- A condition in parentheses. -/
def condition : Build Nat := do
  let _ ← mark .leftParen
  let cond ← expression
  let _ ← mark .rightParen
  return cond

/-- An expression that may be missing, with the mark after it. -/
def optionalBefore (close : Mark) : Build (Option Nat) := do
  let next ← kind
  if next = .mark close then
    let _ ← mark close
    return none
  else
    let e ← expression
    let _ ← mark close
    return some e

/-! ## Statements without statements inside -/

/-- `T name = init;` -/
def varDecl : Build Nat := do
  let start ← span
  let binder ← read Parser.binder
  let _ ← mark .equal
  let init ← expression
  let _ ← mark .semicolon
  addStmt (.varDecl binder init) start

/-- `return;` or `return value;` -/
def returnStmt : Build Nat := do
  let start ← span
  let _ ← keyword .returnWord
  let value ← optionalBefore .semicolon
  addStmt (.ret value) start

/-- `break;` -/
def breakStmt : Build Nat := do
  let start ← span
  let _ ← keyword .breakWord
  let _ ← mark .semicolon
  addStmt .brk start

/-- `continue;` -/
def continueStmt : Build Nat := do
  let start ← span
  let _ ← keyword .continueWord
  let _ ← mark .semicolon
  addStmt .cont start

/-- An expression followed by a semicolon. -/
def exprStmt : Build Nat := do
  let start ← span
  let e ← expression
  let _ ← mark .semicolon
  addStmt (.expr e) start

/-- What may stand before the first semicolon of a loop header, with the semicolon. -/
def forInit : Build (Option Nat) := do
  if ← eat (.mark .semicolon) then
    return none
  else
    let init ← orAttempt (attempt varDecl) pure exprStmt
    return some init

/-! ## Statements with statements inside -/

mutual

/-- The first form that fits. -/
def statement : Nat → Build Nat
  | 0 => unexpected "statement"
  | n + 1 => firstOf none [block n, functionDecl n, varDecl, returnStmt, whileStmt n, ifStmt n,
      breakStmt, continueStmt, doWhileStmt n, forEachStmt n, forStmt n, exprStmt]

/-- Statements up to and with the closing brace. -/
def statements : Nat → Build (List Nat)
  | 0 => unexpected "statement"
  | n + 1 => do
      if ← eat (.mark .rightBrace) then
        return []
      else if (← kind) = .endOfInput then
        unexpected (Token.Kind.mark .rightBrace).displayName
      else
        let first ← statement n
        let rest ← statements n
        return first :: rest

/-- Statements in braces. -/
def block : Nat → Build Nat
  | 0 => unexpected "statement"
  | n + 1 => do
      let start ← span
      let _ ← mark .leftBrace
      let stmts ← statements n
      let body ← alloc (Arena.addStmtList stmts)
      addStmt (.block body) start

/-- `R name(T a, mut U b)` and a block. -/
def functionDecl : Nat → Build Nat
  | 0 => unexpected "statement"
  | n + 1 => do
      let start ← span
      let ret ← read Parser.typeExpr
      let name ← read Parser.expectIdent
      let _ ← mark .leftParen
      let list ← read Parser.params
      let _ ← mark .leftBrace
      let stmts ← statements n
      let body ← alloc (Arena.addStmtList stmts)
      let params ← alloc (Arena.addParams list)
      addStmt (.function ret name params body) start

/-- `while (cond) body` -/
def whileStmt : Nat → Build Nat
  | 0 => unexpected "statement"
  | n + 1 => do
      let start ← span
      let _ ← keyword .whileWord
      let cond ← condition
      let body ← statement n
      addStmt (.whileLoop cond body) start

/-- `if (cond) thenBranch else elseBranch` -/
def ifStmt : Nat → Build Nat
  | 0 => unexpected "statement"
  | n + 1 => do
      let start ← span
      let _ ← keyword .ifWord
      let cond ← condition
      let thenBranch ← statement n
      if ← eat (.keyword .elseWord) then
        let elseBranch ← statement n
        addStmt (.ifElse cond thenBranch (some elseBranch)) start
      else
        addStmt (.ifElse cond thenBranch none) start

/-- `do body while (cond);` -/
def doWhileStmt : Nat → Build Nat
  | 0 => unexpected "statement"
  | n + 1 => do
      let start ← span
      let _ ← keyword .doWord
      let body ← statement n
      let _ ← keyword .whileWord
      let cond ← condition
      let _ ← mark .semicolon
      addStmt (.doWhile body cond) start

/-- `for (T name : iterable) body` -/
def forEachStmt : Nat → Build Nat
  | 0 => unexpected "statement"
  | n + 1 => do
      let start ← span
      let _ ← keyword .forWord
      let _ ← mark .leftParen
      let binder ← read Parser.binder
      let _ ← mark .colon
      let iterable ← expression
      let _ ← mark .rightParen
      let body ← statement n
      addStmt (.forEach binder iterable body) start

/-- `for (init; cond; step) body` -/
def forStmt : Nat → Build Nat
  | 0 => unexpected "statement"
  | n + 1 => do
      let start ← span
      let _ ← keyword .forWord
      let _ ← mark .leftParen
      let init ← forInit
      let cond ← optionalBefore .semicolon
      let step ← optionalBefore .rightParen
      let body ← statement n
      addStmt (.forLoop init cond step body) start

end

/-! ## Programs -/

/-- A full statement. -/
def fullStatement : Build Nat :=
  fun p => statement (4 * p.cursor.remaining + 2) p

/-- One expression and nothing after it. -/
def wholeExpression : Build Nat := do
  let e ← expression
  if (← kind) = .endOfInput then
    return e
  else
    unexpected "end of input"

/-- Statements up to the end of the input or up to a last expression. -/
def programBody : Nat → Build (List Nat × Option Nat)
  | 0 => unexpected "statement"
  | n + 1 => do
      if (← kind) = .endOfInput then
        return ([], none)
      else
        orAttempt fullStatement
          (fun first => do
            let (rest, tail) ← programBody n
            return (first :: rest, tail))
          (do
            let e ← wholeExpression
            return ([], some e))

/-- A program: statements, perhaps with a last expression. -/
def program : Build Root := do
  let start ← span
  let (ids, tail) ← fun p => programBody (p.cursor.remaining + 1) p
  let body ← alloc (Arena.addStmtList ids)
  return ⟨body, tail, ← spanFrom start⟩

/-- A single expression that takes up all tokens. -/
def loneExpression : Build Root := do
  let start ← span
  let e ← wholeExpression
  return ⟨⟨0, 0⟩, some e, ← spanFrom start⟩

/-- What a step leaves in storage that was empty before. -/
def store (step : Build Root) (tokens : TokenList) : Except ParseError Stored :=
  match step (.ofTokens tokens) with
  | .ok root p => .ok ⟨p.arena, root⟩
  | .error error _ => .error error

end Formulae.Build
