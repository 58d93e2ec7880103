import Formulae.Text.Span
import Formulae.TypeExpr

/-!
# Tokens

The words and marks of the language.  Reserved words and marks are listed in
tables, so that reading and writing them cannot drift apart.
-/

namespace Formulae

/-- Reserved words that are no types. -/
inductive Keyword
  | trueWord | falseWord | nullWord
  | ifWord | elseWord | whileWord | doWord | forWord | returnWord | breakWord | continueWord
  | mutWord | varWord | functionWord
deriving DecidableEq, Repr

namespace Keyword

/-- Every reserved word. -/
def all : List Keyword :=
  [.trueWord, .falseWord, .nullWord, .ifWord, .elseWord, .whileWord, .doWord, .forWord,
   .returnWord, .breakWord, .continueWord, .mutWord, .varWord, .functionWord]

/-- The word as written. -/
def word : Keyword → String
  | .trueWord => "true"
  | .falseWord => "false"
  | .nullWord => "null"
  | .ifWord => "if"
  | .elseWord => "else"
  | .whileWord => "while"
  | .doWord => "do"
  | .forWord => "for"
  | .returnWord => "return"
  | .breakWord => "break"
  | .continueWord => "continue"
  | .mutWord => "mut"
  | .varWord => "var"
  | .functionWord => "function"

/-- The reserved word with this spelling. -/
def ofWord? (word : String) : Option Keyword :=
  all.find? fun keyword => keyword.word == word

theorem ofWord?_word (keyword : Keyword) : ofWord? keyword.word = some keyword := by
  cases keyword <;> rfl

end Keyword

namespace BasicType

/-- The basic type with this spelling. -/
def ofWord? (word : String) : Option BasicType :=
  all.find? fun type => type.word == word

theorem ofWord?_word (type : BasicType) : ofWord? type.word = some type := by
  cases type <;> rfl

end BasicType

/-- Operators and punctuation. -/
inductive Mark
  | plus | minus | star | slash | percent | caret | andAnd | orOr | bang
  | equalEqual | bangEqual | less | greater | lessEqual | greaterEqual
  | equal | plusEqual | minusEqual | starEqual | slashEqual
  | leftParen | rightParen | leftBracket | rightBracket | leftBrace | rightBrace
  | comma | question | colon | semicolon | arrow
deriving DecidableEq, Repr

namespace Mark

/-- Every mark. -/
def all : List Mark :=
  [.plus, .minus, .star, .slash, .percent, .caret, .andAnd, .orOr, .bang,
   .equalEqual, .bangEqual, .less, .greater, .lessEqual, .greaterEqual,
   .equal, .plusEqual, .minusEqual, .starEqual, .slashEqual,
   .leftParen, .rightParen, .leftBracket, .rightBracket, .leftBrace, .rightBrace,
   .comma, .question, .colon, .semicolon, .arrow]

theorem mem_all (mark : Mark) : mark ∈ all := by
  cases mark <;> decide

/-- The characters of a mark. -/
def chars : Mark → List Char
  | .plus => ['+']
  | .minus => ['-']
  | .star => ['*']
  | .slash => ['/']
  | .percent => ['%']
  | .caret => ['^']
  | .andAnd => ['&', '&']
  | .orOr => ['|', '|']
  | .bang => ['!']
  | .equalEqual => ['=', '=']
  | .bangEqual => ['!', '=']
  | .less => ['<']
  | .greater => ['>']
  | .lessEqual => ['<', '=']
  | .greaterEqual => ['>', '=']
  | .equal => ['=']
  | .plusEqual => ['+', '=']
  | .minusEqual => ['-', '=']
  | .starEqual => ['*', '=']
  | .slashEqual => ['/', '=']
  | .leftParen => ['(']
  | .rightParen => [')']
  | .leftBracket => ['[']
  | .rightBracket => [']']
  | .leftBrace => ['{']
  | .rightBrace => ['}']
  | .comma => [',']
  | .question => ['?']
  | .colon => [':']
  | .semicolon => [';']
  | .arrow => ['-', '>']

/-- The mark as written. -/
def text (mark : Mark) : String :=
  String.ofList mark.chars

/-- The mark spells an operator rather than punctuation. -/
def isOperator : Mark → Bool
  | .leftParen | .rightParen | .leftBracket | .rightBracket | .leftBrace | .rightBrace
  | .comma | .question | .colon | .semicolon | .arrow => false
  | _ => true

end Mark

namespace Token

/-- What a token is, apart from where it stands. -/
inductive Kind
  | int (value : Int64)
  | float (value : Float)
  | string (text : String)
  | ident (name : String)
  | keyword (word : Keyword)
  | basicType (type : BasicType)
  | mark (symbol : Mark)
  | endOfInput
deriving DecidableEq

namespace Kind

/-- The name under which errors speak of a token. -/
def displayName : Kind → String
  | .int _ => "integer"
  | .float _ => "float literal"
  | .string _ => "string literal"
  | .ident _ => "identifier"
  | .keyword word => word.word
  | .basicType type => type.word
  | .mark symbol => "\"" ++ symbol.text ++ "\""
  | .endOfInput => "end of input"

/-- The symbol of a token that spells an operator. -/
def operatorSymbol? : Kind → Option String
  | .mark symbol => if symbol.isOperator then some symbol.text else none
  | _ => none

/-- The text that a token brings into the table of names. -/
def text? : Kind → Option String
  | .string text => some text
  | .ident name => some name
  | _ => none

end Kind

end Token

/-- A token and the stretch of source it was read from. -/
structure Token where
  kind : Token.Kind
  span : Span
deriving DecidableEq

/-- The tokens of a source and the offset at which it ends. -/
structure TokenList where
  items : List Token
  stop : Nat
deriving DecidableEq

namespace TokenList

/-- The token that stands for the end of the input. -/
def finalToken (tokens : TokenList) : Token :=
  ⟨.endOfInput, Span.point tokens.stop⟩

/-- All tokens, the end of the input last. -/
def toList (tokens : TokenList) : List Token :=
  tokens.items ++ [tokens.finalToken]

/-- The texts of names and strings in source order. -/
def texts (tokens : TokenList) : List String :=
  tokens.items.filterMap fun token => token.kind.text?

end TokenList

end Formulae
