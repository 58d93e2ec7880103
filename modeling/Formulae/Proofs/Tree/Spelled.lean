import Formulae.Parser.Expr
import Formulae.Tree.Printer

/-!
# The tokens that a tree is spelled by

A formula is made of phrases: expressions, statements, and lists of them.  `Phrase.SpelledBy` says
which tokens spell a phrase, with one rule for each form, and which stretch of source each node
has to carry.  Any expression may stand in parentheses, so the rules do not say how operators are
grouped; they say what every reading of the tokens has in common.
-/

namespace Formulae

/-- From the start of the first token to the end of the last one. -/
def Token.stretch (tokens : List Token) : Span :=
  ((tokens.head?.map Token.span).getD ⟨0, 0⟩).merge ((tokens.getLast?.map Token.span).getD ⟨0, 0⟩)

/-- A part of a formula that tokens spell. -/
inductive Phrase
  | expr (e : Expr Unit)
  | exprs (list : List (Expr Unit))
  | optional (e : Option (Expr Unit))
  | param (param : Param)
  | params (list : List Param)
  | stmt (s : Stmt Unit)
  | stmts (list : List (Stmt Unit))
  | init (s : Option (Stmt Unit))
  | otherwise (s : Option (Stmt Unit))

namespace Phrase

open Parser (constant?)

/-- The tokens spell the phrase, and the nodes in it carry the stretches of source of their
tokens.  Types, names and what stands before them in declarations are no nodes; they are spelled
by the tokens that are written for them. -/
inductive SpelledBy : Phrase → List Token → Prop
  | constant {node : Node Unit} {value : Constant} {token : Token}
      (reads : constant? token.kind = some value) (spans : node.span = token.span) :
      SpelledBy (.expr (.constant node value)) [token]
  | ident {node : Node Unit} {name : String} {token : Token}
      (reads : token.kind = .ident name) (spans : node.span = token.span) :
      SpelledBy (.expr (.ident node name)) [token]
  | parens {e : Expr Unit} {opening closing : Token} {inner : List Token}
      (opens : opening.kind = .mark .leftParen) (e' : SpelledBy (.expr e) inner)
      (closes : closing.kind = .mark .rightParen) :
      SpelledBy (.expr e) (opening :: (inner ++ [closing]))
  | unary {node : Node Unit} {op : Operator} {operand : Expr Unit} {token : Token}
      {after : List Token} (reads : token.kind.prefixOperator? = some op)
      (operand' : SpelledBy (.expr operand) after)
      (spans : node.span = token.span.merge operand.span) :
      SpelledBy (.expr (.unary node op operand)) (token :: after)
  | cast {node literal : Node Unit} {operand : Expr Unit} {type : TypeExpr}
      {opening closing : Token} {written after : List Token}
      (opens : opening.kind = .mark .leftParen)
      (type' : written.map Token.kind = Piece.tokens type.pieces)
      (closes : closing.kind = .mark .rightParen) (operand' : SpelledBy (.expr operand) after)
      (literalSpans : literal.span = Token.stretch (opening :: written))
      (spans : node.span = opening.span.merge operand.span) :
      SpelledBy (.expr (.binary node .typeCast operand (.typeLiteral literal type)))
        (opening :: (written ++ closing :: after))
  | binary {node : Node Unit} {op : Operator} {left right : Expr Unit} {token : Token}
      {before after : List Token} (left' : SpelledBy (.expr left) before)
      (reads : token.kind.infixOperator? = some op) (right' : SpelledBy (.expr right) after)
      (spans : node.span = left.span.merge right.span) :
      SpelledBy (.expr (.binary node op left right)) (before ++ token :: after)
  | ternary {node : Node Unit} {cond thenBranch elseBranch : Expr Unit} {question colon : Token}
      {before between after : List Token} (cond' : SpelledBy (.expr cond) before)
      (asks : question.kind = .mark .question) (then' : SpelledBy (.expr thenBranch) between)
      (parts : colon.kind = .mark .colon) (else' : SpelledBy (.expr elseBranch) after)
      (spans : node.span = cond.span.merge elseBranch.span) :
      SpelledBy (.expr (.ternary node cond thenBranch elseBranch))
        (before ++ question :: (between ++ colon :: after))
  | call {node : Node Unit} {callee : Expr Unit} {args : List (Expr Unit)}
      {opening closing : Token} {before inner : List Token}
      (callee' : SpelledBy (.expr callee) before) (opens : opening.kind = .mark .leftParen)
      (args' : SpelledBy (.exprs args) inner) (closes : closing.kind = .mark .rightParen)
      (spans : node.span = callee.span.merge closing.span) :
      SpelledBy (.expr (.call node callee args)) (before ++ opening :: (inner ++ [closing]))
  | array {node : Node Unit} {items : List (Expr Unit)} {opening closing : Token}
      {inner : List Token} (opens : opening.kind = .mark .leftBrace)
      (items' : SpelledBy (.exprs items) inner) (closes : closing.kind = .mark .rightBrace)
      (spans : node.span = opening.span.merge closing.span) :
      SpelledBy (.expr (.array node items)) (opening :: (inner ++ [closing]))
  | index {node : Node Unit} {receiver subscript : Expr Unit} {opening closing : Token}
      {before inner : List Token} (receiver' : SpelledBy (.expr receiver) before)
      (opens : opening.kind = .mark .leftBracket)
      (subscript' : SpelledBy (.expr subscript) inner)
      (closes : closing.kind = .mark .rightBracket)
      (spans : node.span = receiver.span.merge closing.span) :
      SpelledBy (.expr (.index node receiver subscript))
        (before ++ opening :: (inner ++ [closing]))
  | noExprs : SpelledBy (.exprs []) []
  | oneExpr {e : Expr Unit} {tokens : List Token} (e' : SpelledBy (.expr e) tokens) :
      SpelledBy (.exprs [e]) tokens
  | moreExprs {e next : Expr Unit} {rest : List (Expr Unit)} {comma : Token}
      {before after : List Token} (e' : SpelledBy (.expr e) before)
      (parts : comma.kind = .mark .comma) (rest' : SpelledBy (.exprs (next :: rest)) after) :
      SpelledBy (.exprs (e :: next :: rest)) (before ++ comma :: after)
  | absent : SpelledBy (.optional none) []
  | present {e : Expr Unit} {tokens : List Token} (e' : SpelledBy (.expr e) tokens) :
      SpelledBy (.optional (some e)) tokens
  | param {bound : Param} {tokens : List Token}
      (spells : tokens.map Token.kind = Piece.tokens bound.pieces)
      (spans : bound.span = Token.stretch tokens) : SpelledBy (.param bound) tokens
  | noParams : SpelledBy (.params []) []
  | oneParam {bound : Param} {tokens : List Token} (bound' : SpelledBy (.param bound) tokens) :
      SpelledBy (.params [bound]) tokens
  | moreParams {bound next : Param} {rest : List Param} {comma : Token}
      {before after : List Token} (bound' : SpelledBy (.param bound) before)
      (parts : comma.kind = .mark .comma) (rest' : SpelledBy (.params (next :: rest)) after) :
      SpelledBy (.params (bound :: next :: rest)) (before ++ comma :: after)
  | exprStmt {node : StmtNode} {e : Expr Unit} {semicolon : Token} {tokens : List Token}
      (e' : SpelledBy (.expr e) tokens) (ends : semicolon.kind = .mark .semicolon)
      (spans : node.span = Token.stretch (tokens ++ [semicolon])) :
      SpelledBy (.stmt (.expr node e)) (tokens ++ [semicolon])
  | varDecl {node : StmtNode} {bound : Binder} {init : Expr Unit} {equal semicolon : Token}
      {written after : List Token} (bound' : written.map Token.kind = Piece.tokens bound.pieces)
      (parts : equal.kind = .mark .equal) (init' : SpelledBy (.expr init) after)
      (ends : semicolon.kind = .mark .semicolon)
      (spans : node.span = Token.stretch (written ++ equal :: (after ++ [semicolon]))) :
      SpelledBy (.stmt (.varDecl node bound init)) (written ++ equal :: (after ++ [semicolon]))
  | ret {node : StmtNode} {value : Option (Expr Unit)} {word semicolon : Token}
      {tokens : List Token} (starts : word.kind = .keyword .returnWord)
      (value' : SpelledBy (.optional value) tokens) (ends : semicolon.kind = .mark .semicolon)
      (spans : node.span = Token.stretch (word :: (tokens ++ [semicolon]))) :
      SpelledBy (.stmt (.ret node value)) (word :: (tokens ++ [semicolon]))
  | brk {node : StmtNode} {word semicolon : Token} (starts : word.kind = .keyword .breakWord)
      (ends : semicolon.kind = .mark .semicolon)
      (spans : node.span = Token.stretch [word, semicolon]) :
      SpelledBy (.stmt (.brk node)) [word, semicolon]
  | cont {node : StmtNode} {word semicolon : Token}
      (starts : word.kind = .keyword .continueWord) (ends : semicolon.kind = .mark .semicolon)
      (spans : node.span = Token.stretch [word, semicolon]) :
      SpelledBy (.stmt (.cont node)) [word, semicolon]
  | ifElse {node : StmtNode} {cond : Expr Unit} {thenBranch : Stmt Unit}
      {elseBranch : Option (Stmt Unit)} {word opening closing : Token}
      {test body other : List Token} (starts : word.kind = .keyword .ifWord)
      (opens : opening.kind = .mark .leftParen) (cond' : SpelledBy (.expr cond) test)
      (closes : closing.kind = .mark .rightParen) (then' : SpelledBy (.stmt thenBranch) body)
      (else' : SpelledBy (.otherwise elseBranch) other)
      (spans : node.span =
        Token.stretch (word :: opening :: (test ++ closing :: (body ++ other)))) :
      SpelledBy (.stmt (.ifElse node cond thenBranch elseBranch))
        (word :: opening :: (test ++ closing :: (body ++ other)))
  | whileLoop {node : StmtNode} {cond : Expr Unit} {body : Stmt Unit}
      {word opening closing : Token} {test inner : List Token}
      (starts : word.kind = .keyword .whileWord) (opens : opening.kind = .mark .leftParen)
      (cond' : SpelledBy (.expr cond) test) (closes : closing.kind = .mark .rightParen)
      (body' : SpelledBy (.stmt body) inner)
      (spans : node.span = Token.stretch (word :: opening :: (test ++ closing :: inner))) :
      SpelledBy (.stmt (.whileLoop node cond body))
        (word :: opening :: (test ++ closing :: inner))
  | doWhile {node : StmtNode} {body : Stmt Unit} {cond : Expr Unit}
      {word again opening closing semicolon : Token} {inner test : List Token}
      (starts : word.kind = .keyword .doWord) (body' : SpelledBy (.stmt body) inner)
      (repeats : again.kind = .keyword .whileWord) (opens : opening.kind = .mark .leftParen)
      (cond' : SpelledBy (.expr cond) test) (closes : closing.kind = .mark .rightParen)
      (ends : semicolon.kind = .mark .semicolon)
      (spans : node.span = Token.stretch
        (word :: (inner ++ again :: opening :: (test ++ [closing, semicolon])))) :
      SpelledBy (.stmt (.doWhile node body cond))
        (word :: (inner ++ again :: opening :: (test ++ [closing, semicolon])))
  | forLoop {node : StmtNode} {init : Option (Stmt Unit)} {cond step : Option (Expr Unit)}
      {body : Stmt Unit} {word opening semicolon closing : Token}
      {first test last inner : List Token} (starts : word.kind = .keyword .forWord)
      (opens : opening.kind = .mark .leftParen) (init' : SpelledBy (.init init) first)
      (cond' : SpelledBy (.optional cond) test) (parts : semicolon.kind = .mark .semicolon)
      (step' : SpelledBy (.optional step) last) (closes : closing.kind = .mark .rightParen)
      (body' : SpelledBy (.stmt body) inner)
      (spans : node.span = Token.stretch
        (word :: opening :: (first ++ (test ++ semicolon :: (last ++ closing :: inner))))) :
      SpelledBy (.stmt (.forLoop node init cond step body))
        (word :: opening :: (first ++ (test ++ semicolon :: (last ++ closing :: inner))))
  | forEach {node : StmtNode} {bound : Binder} {iterable : Expr Unit} {body : Stmt Unit}
      {word opening colon closing : Token} {written source inner : List Token}
      (starts : word.kind = .keyword .forWord) (opens : opening.kind = .mark .leftParen)
      (bound' : written.map Token.kind = Piece.tokens bound.pieces)
      (parts : colon.kind = .mark .colon) (iterable' : SpelledBy (.expr iterable) source)
      (closes : closing.kind = .mark .rightParen) (body' : SpelledBy (.stmt body) inner)
      (spans : node.span = Token.stretch
        (word :: opening :: (written ++ colon :: (source ++ closing :: inner)))) :
      SpelledBy (.stmt (.forEach node bound iterable body))
        (word :: opening :: (written ++ colon :: (source ++ closing :: inner)))
  | block {node : StmtNode} {list : List (Stmt Unit)} {opening closing : Token}
      {inner : List Token} (opens : opening.kind = .mark .leftBrace)
      (list' : SpelledBy (.stmts list) inner) (closes : closing.kind = .mark .rightBrace)
      (spans : node.span = Token.stretch (opening :: (inner ++ [closing]))) :
      SpelledBy (.stmt (.block node list)) (opening :: (inner ++ [closing]))
  | function {node : StmtNode} {ret : TypeExpr} {name : String} {params : List Param}
      {body : List (Stmt Unit)} {named opening closing brace unbrace : Token}
      {written header inner : List Token}
      (ret' : written.map Token.kind = Piece.tokens ret.pieces)
      (names : named.kind = .ident name) (opens : opening.kind = .mark .leftParen)
      (params' : SpelledBy (.params params) header) (closes : closing.kind = .mark .rightParen)
      (begins : brace.kind = .mark .leftBrace) (body' : SpelledBy (.stmts body) inner)
      (ends : unbrace.kind = .mark .rightBrace)
      (spans : node.span = Token.stretch
        (written ++ named :: opening :: (header ++ closing :: brace :: (inner ++ [unbrace])))) :
      SpelledBy (.stmt (.function node ret name params body))
        (written ++ named :: opening :: (header ++ closing :: brace :: (inner ++ [unbrace])))
  | noStmts : SpelledBy (.stmts []) []
  | moreStmts {s : Stmt Unit} {rest : List (Stmt Unit)} {before after : List Token}
      (s' : SpelledBy (.stmt s) before) (rest' : SpelledBy (.stmts rest) after) :
      SpelledBy (.stmts (s :: rest)) (before ++ after)
  | noInit {semicolon : Token} (ends : semicolon.kind = .mark .semicolon) :
      SpelledBy (.init none) [semicolon]
  | init {s : Stmt Unit} {tokens : List Token} (s' : SpelledBy (.stmt s) tokens) :
      SpelledBy (.init (some s)) tokens
  | noElse : SpelledBy (.otherwise none) []
  | otherwise {s : Stmt Unit} {word : Token} {tokens : List Token}
      (starts : word.kind = .keyword .elseWord) (s' : SpelledBy (.stmt s) tokens) :
      SpelledBy (.otherwise (some s)) (word :: tokens)

end Phrase

/-- The tokens spell the statements of the program and behind them its last expression, and the
program reaches over all of them. -/
structure Program.SpelledBy (p : Program Unit) (tokens : List Token) : Prop where
  parts : ∃ front back, tokens = front ++ back ∧ (Phrase.stmts p.body).SpelledBy front ∧
    (Phrase.optional p.tail).SpelledBy back
  span : tokens ≠ [] → p.span = Token.stretch tokens

end Formulae
