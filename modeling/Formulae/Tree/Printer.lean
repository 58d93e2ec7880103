import Formulae.Token.Piece
import Formulae.Tree.Basic

/-!
# Writing trees

A tree is written with parentheses only where precedence asks for them, one
statement on a line, and the statements of a block indented.
-/

namespace Formulae

/-- The choices of layout. -/
structure PrintConfig where
  indentSize : Nat := 4
  spaced : Bool := true
deriving DecidableEq, Repr

namespace PrintConfig

/-- No spaces around operators. -/
def compact : PrintConfig :=
  { spaced := false }

/-- The same choices with another width of indentation. -/
def withIndentSize (config : PrintConfig) (indentSize : Nat) : PrintConfig :=
  { config with indentSize }

/-- An infix symbol, with spaces around it or without. -/
def around (config : PrintConfig) (symbol : Piece) : List Piece :=
  if config.spaced then [.space, symbol, .space] else [symbol]

/-- A line break before a line `depth` levels deep. -/
def newline (config : PrintConfig) (depth : Nat) : Piece :=
  .newline (depth * config.indentSize)

end PrintConfig

namespace Constant

/-- A number with a sign has to be read as a negation. -/
def isSigned : Constant → Bool
  | .int value => value < 0
  | .float value => (Number.Binary.ofFloat value).isNegative
  | .negativeNan => true
  | _ => false

/-- The constant in source form.  Numbers that no single token stands for are
written all the same. -/
def piece : Constant → Piece
  | .int value => if value < 0 then .raw (toString value.toInt) else .token (.int value)
  | .float value =>
      match Number.Binary.ofFloat value with
      | .finite false _ _ => .token (.float value)
      | _ => .raw (Number.floatLiteral value)
  | .negativeNan => .raw (Number.floatLiteral (0.0 / 0.0))
  | .bool true => .keyword .trueWord
  | .bool false => .keyword .falseWord
  | .null => .keyword .nullWord
  | .string text | .date text | .duration text => .token (.string text)

end Constant

namespace Expr

variable {α : Type}

/-- How tightly the root of an expression binds. -/
def precedence : Expr α → Nat
  | .ident _ _ | .array _ _ | .typeLiteral _ _ => primaryPrecedence
  | .constant _ value => if value.isSigned then prefixPrecedence else primaryPrecedence
  | .unary _ _ _ => prefixPrecedence
  | .binary _ op _ _ => op.precedence
  | .ternary _ _ _ _ => ternaryPrecedence
  | .call _ _ _ | .index _ _ _ => postfixPrecedence

/-- The first token of the expression is the brace of an array literal. -/
def startsWithArray : Expr α → Bool
  | .array _ _ => true
  | .binary _ .typeCast _ _ => false
  | .binary _ _ left _ => left.startsWithArray
  | .ternary _ cond _ _ => cond.startsWithArray
  | .call _ callee _ => callee.startsWithArray
  | .index _ receiver _ => receiver.startsWithArray
  | _ => false

/-- Parentheses around the pieces if they are needed. -/
def enclosed (needed : Bool) (inner : List Piece) : List Piece :=
  if needed then [.mark .leftParen] ++ inner ++ [.mark .rightParen] else inner

mutual

/-- The expression in source form. -/
def pieces (config : PrintConfig) : Expr α → List Piece
  | .ident _ name => [.ident name]
  | .constant _ value => [value.piece]
  | .unary _ op operand =>
      op.piece :: enclosed (operand.precedence < prefixPrecedence) (operand.pieces config)
  | .binary _ .typeCast left right =>
      [.mark .leftParen] ++ right.pieces config ++ [.mark .rightParen, .space]
        ++ enclosed (left.precedence < prefixPrecedence) (left.pieces config)
  | .binary _ op left right =>
      enclosed (left.precedence < op.leftMinimum) (left.pieces config)
        ++ config.around op.piece
        ++ enclosed (right.precedence < op.rightMinimum) (right.pieces config)
  | .ternary _ cond thenBranch elseBranch =>
      enclosed (cond.precedence < ternaryPrecedence + 1) (cond.pieces config)
        ++ config.around (.mark .question) ++ thenBranch.pieces config
        ++ config.around (.mark .colon)
        ++ enclosed (elseBranch.precedence < ternaryPrecedence) (elseBranch.pieces config)
  | .call _ callee args =>
      enclosed (callee.precedence < postfixPrecedence) (callee.pieces config)
        ++ [.mark .leftParen] ++ Piece.separated Piece.comma (piecesAll config args)
        ++ [.mark .rightParen]
  | .array _ items =>
      [.mark .leftBrace] ++ Piece.separated Piece.comma (piecesAll config items)
        ++ [.mark .rightBrace]
  | .index _ receiver subscript =>
      enclosed (receiver.precedence < postfixPrecedence) (receiver.pieces config)
        ++ [.mark .leftBracket] ++ subscript.pieces config ++ [.mark .rightBracket]
  | .typeLiteral _ type => type.pieces

/-- Several expressions in source form. -/
def piecesAll (config : PrintConfig) : List (Expr α) → List (List Piece)
  | [] => []
  | e :: rest => e.pieces config :: piecesAll config rest

end

/-- The expression in the place of a statement, where a brace would open a
block. -/
def statementPieces (config : PrintConfig) (e : Expr α) : List Piece :=
  enclosed e.startsWithArray (e.pieces config)

/-- The text of an expression. -/
def print (config : PrintConfig) (e : Expr α) : String :=
  Piece.render (e.pieces config)

end Expr

namespace Binder

/-- A declaration without its value in source form. -/
def pieces (binder : Binder) : List Piece :=
  (if binder.mutable then [.keyword .mutWord, .space] else [])
    ++ (match binder.type with
        | some type => type.pieces
        | none => [.keyword .varWord])
    ++ [.space, .ident binder.name]

end Binder

namespace Param

/-- A parameter in source form. -/
def pieces (param : Param) : List Piece :=
  (if param.mutable then [.keyword .mutWord, .space] else [])
    ++ param.type.pieces ++ [.space, .ident param.name]

end Param

namespace Stmt

variable {α : Type}

/-- Lines in braces, one level deeper than the braces themselves. -/
def braced (config : PrintConfig) (depth : Nat) (lines : List (List Piece)) : List Piece :=
  if lines.isEmpty then [.mark .leftBrace, .mark .rightBrace]
  else
    [.mark .leftBrace] ++ (lines.map (config.newline (depth + 1) :: ·)).flatten
      ++ [config.newline depth, .mark .rightBrace]

/-- An expression that may be missing, after a space. -/
def spacedOption (config : PrintConfig) : Option (Expr α) → List Piece
  | some e => .space :: e.pieces config
  | none => []

mutual

/-- The statement in source form, `depth` levels deep. -/
def pieces (config : PrintConfig) (depth : Nat) : Stmt α → List Piece
  | .expr _ e => e.statementPieces config ++ [.mark .semicolon]
  | .varDecl _ binder init =>
      binder.pieces ++ config.around (.mark .equal) ++ init.pieces config ++ [.mark .semicolon]
  | .ret _ value =>
      [.keyword .returnWord] ++ spacedOption config value ++ [.mark .semicolon]
  | .ifElse _ cond thenBranch elseBranch =>
      [.keyword .ifWord, .space, .mark .leftParen] ++ cond.pieces config
        ++ [.mark .rightParen, .space] ++ thenBranch.pieces config depth
        ++ elsePieces config depth elseBranch
  | .whileLoop _ cond body =>
      [.keyword .whileWord, .space, .mark .leftParen] ++ cond.pieces config
        ++ [.mark .rightParen, .space] ++ body.pieces config depth
  | .doWhile _ body cond =>
      [.keyword .doWord, .space] ++ body.pieces config depth
        ++ [.space, .keyword .whileWord, .space, .mark .leftParen] ++ cond.pieces config
        ++ [.mark .rightParen, .mark .semicolon]
  | .forLoop _ init cond step body =>
      [.keyword .forWord, .space, .mark .leftParen] ++ initPieces config depth init
        ++ spacedOption config cond ++ [.mark .semicolon] ++ spacedOption config step
        ++ [.mark .rightParen, .space] ++ body.pieces config depth
  | .forEach _ binder iterable body =>
      [.keyword .forWord, .space, .mark .leftParen] ++ binder.pieces
        ++ [.space, .mark .colon, .space] ++ iterable.pieces config
        ++ [.mark .rightParen, .space] ++ body.pieces config depth
  | .brk _ => [.keyword .breakWord, .mark .semicolon]
  | .cont _ => [.keyword .continueWord, .mark .semicolon]
  | .block _ stmts => braced config depth (piecesAll config (depth + 1) stmts)
  | .function _ result name params body =>
      result.pieces ++ [.space, .ident name, .mark .leftParen]
        ++ Piece.separated Piece.comma (params.map Param.pieces)
        ++ [.mark .rightParen, .space]
        ++ braced config depth (piecesAll config (depth + 1) body)

/-- The other branch of a conditional, after a space. -/
def elsePieces (config : PrintConfig) (depth : Nat) : Option (Stmt α) → List Piece
  | some s => [.space, .keyword .elseWord, .space] ++ s.pieces config depth
  | none => []

/-- The first part of a loop header, with its semicolon. -/
def initPieces (config : PrintConfig) (depth : Nat) : Option (Stmt α) → List Piece
  | some s => s.pieces config depth
  | none => [.mark .semicolon]

/-- Several statements in source form. -/
def piecesAll (config : PrintConfig) (depth : Nat) : List (Stmt α) → List (List Piece)
  | [] => []
  | s :: rest => s.pieces config depth :: piecesAll config depth rest

end

end Stmt

namespace Program

variable {α : Type}

/-- The lines of a program in source form. -/
def lines (config : PrintConfig) (p : Program α) : List (List Piece) :=
  Stmt.piecesAll config 0 p.body ++ (p.tail.map (Expr.statementPieces config)).toList

/-- The program in source form. -/
def pieces (config : PrintConfig) (p : Program α) : List Piece :=
  Piece.separated [.newline 0] (p.lines config)

/-- The text of a program. -/
def print (config : PrintConfig) (p : Program α) : String :=
  Piece.render (p.pieces config)

end Program

end Formulae
