import Formulae.Number.Shortest
import Formulae.Operator
import Formulae.Text.Quoted
import Formulae.Token

/-!
# Written source

Printers produce pieces: tokens and the layout between them.  Only the last
step turns pieces into text, so what is written can be compared with what is
read token by token.
-/

namespace Formulae

namespace Number

/-- How a double is written in source.  Whole numbers are written out exactly
and keep one place after the point, so that they read as floats again. -/
def floatLiteral (x : Float) : String :=
  match (Binary.ofFloat x).integer? with
  | some magnitude =>
      (if (Binary.ofFloat x).isNegative then "-" else "") ++ toString magnitude ++ ".0"
  | none => renderFloat x

end Number

namespace Token.Kind

/-- The token as written. -/
def text : Token.Kind → String
  | .int value => toString value.toInt
  | .float value => Number.floatLiteral value
  | .string contents => Text.Quoted.literal contents
  | .ident name => name
  | .keyword word => word.word
  | .basicType type => type.word
  | .mark symbol => symbol.text
  | .endOfInput => ""

end Token.Kind

/-- A piece of written source. -/
inductive Piece
  | token (kind : Token.Kind)
  | raw (text : String)
  | space
  | newline (columns : Nat)
deriving DecidableEq

namespace Piece

/-- A mark by itself. -/
def mark (symbol : Mark) : Piece :=
  .token (.mark symbol)

/-- A reserved word by itself. -/
def keyword (word : Keyword) : Piece :=
  .token (.keyword word)

/-- An identifier by itself. -/
def ident (name : String) : Piece :=
  .token (.ident name)

/-- The text of a piece. -/
def text : Piece → String
  | .token kind => kind.text
  | .raw text => text
  | .space => " "
  | .newline columns => "\n" ++ String.ofList (List.replicate columns ' ')

/-- The text of several pieces. -/
def render (pieces : List Piece) : String :=
  String.join (pieces.map text)

/-- The tokens among the pieces. -/
def tokens (pieces : List Piece) : List Token.Kind :=
  pieces.filterMap fun piece =>
    match piece with
    | .token kind => some kind
    | _ => none

/-- Put a separator between lists of pieces. -/
def separated (separator : List Piece) : List (List Piece) → List Piece
  | [] => []
  | [only] => only
  | first :: next :: rest => first ++ separator ++ separated separator (next :: rest)

/-- A comma and a space. -/
def comma : List Piece :=
  [mark .comma, .space]

end Piece

namespace Operator

/-- The mark that an operator is written with, if it is a single mark. -/
def mark? : Operator → Option Mark
  | .add => some .plus
  | .sub | .neg => some .minus
  | .mul => some .star
  | .div => some .slash
  | .mod => some .percent
  | .xor => some .caret
  | .and => some .andAnd
  | .or => some .orOr
  | .not => some .bang
  | .eq => some .equalEqual
  | .notEq => some .bangEqual
  | .lt => some .less
  | .gt => some .greater
  | .ltEq => some .lessEqual
  | .gtEq => some .greaterEqual
  | .assign => some .equal
  | .addAssign => some .plusEqual
  | .subAssign => some .minusEqual
  | .mulAssign => some .starEqual
  | .divAssign => some .slashEqual
  | .typeCast | .index | .call => none

theorem text_of_mark? {op : Operator} {symbol : Mark} (h : op.mark? = some symbol) :
    symbol.text = op.symbol := by
  cases op <;> cases h <;> rfl

/-- The operator as a piece of source. -/
def piece (op : Operator) : Piece :=
  match op.mark? with
  | some symbol => .mark symbol
  | none => .raw op.symbol

end Operator

namespace TypeExpr

mutual

/-- The type in source form. -/
def pieces : TypeExpr → List Piece
  | .basic type => [.token (.basicType type)]
  | .array element => element.pieces ++ [.mark .leftBracket, .mark .rightBracket]
  | .function params ret =>
      [.keyword .functionWord, .mark .leftParen] ++ Piece.separated Piece.comma (piecesAll params)
        ++ [.mark .rightParen, .space, .mark .arrow, .space] ++ ret.pieces
  | .named name => [.ident name]

/-- Several types in source form. -/
def piecesAll : List TypeExpr → List (List Piece)
  | [] => []
  | type :: rest => type.pieces :: piecesAll rest

end

/-- The text of a type. -/
def render (type : TypeExpr) : String :=
  Piece.render type.pieces

end TypeExpr

end Formulae
