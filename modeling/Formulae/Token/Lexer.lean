import Formulae.Number.Integer
import Formulae.Text.CodeRange
import Formulae.Text.Quoted
import Formulae.Token

/-!
# From source text to tokens

At each place the longest stretch that some pattern accepts becomes a token
or, for blanks and comments, is skipped.  `Pattern.longest` says how far one
pattern reaches, `longestMatch` chooses among all of them, and `tokenize`
repeats the choice to the end of the source.
-/

namespace Formulae

/-- The forms of tokens and of what may stand between them. -/
inductive Pattern
  | blanks
  | comment
  | word
  | digits
  | decimal
  | quoted
  | mark (symbol : Mark)
deriving DecidableEq, Repr

/-- No pattern fits, or a number is too large, at `position`. -/
structure LexError where
  position : Nat
  excerpt : String
deriving DecidableEq, Repr

namespace LexError

/-- Excerpts are at most this many characters long. -/
def maxExcerpt : Nat := 16

/-- The error for source that cannot be read from here on.  The excerpt ends
before the first blank. -/
def ofRest (position : Nat) (rest : List Char) : LexError :=
  ⟨position, String.ofList ((rest.takeWhile fun c => !Text.isBlank c).take maxExcerpt)⟩

/-- The text shown to the user. -/
def message (error : LexError) : String :=
  "Unrecognized input \"" ++ error.excerpt ++ "\" at position " ++ toString error.position

end LexError

namespace Lexer

/-! ## Character classes -/

/-- The four characters that may separate tokens. -/
def isSeparator (c : Char) : Bool :=
  c = ' ' || c = '\t' || c = '\r' || c = '\n'

/-- Words start with a Latin letter or an underscore. -/
def startsWord (c : Char) : Bool :=
  c.isAlpha || c = '_'

/-- Words go on with letters, underscores and digits. -/
def continuesWord (c : Char) : Bool :=
  c.isAlphanum || c = '_'

end Lexer

namespace Pattern

open Lexer

/-- The patterns, in no particular order: no two of them accept the same
text. -/
def all : List Pattern :=
  [.blanks, .comment, .word, .digits, .decimal, .quoted] ++ Mark.all.map .mark

/-- The number of characters up to and with the quote that closes a literal,
counted from behind the opening one.  A backslash takes the next character
with it, unless that is a line feed. -/
def closingQuote : List Char → Option Nat
  | [] => none
  | '"' :: _ => some 1
  | ['\\'] => none
  | '\\' :: escaped :: rest =>
      if escaped = '\n' then none else (closingQuote rest).map (· + 2)
  | _ :: rest => (closingQuote rest).map (· + 1)

/-- How many characters from here on the pattern accepts at most; `none` if
it accepts no beginning of the rest. -/
def longest : Pattern → List Char → Option Nat
  | .blanks, source =>
      let count := (source.takeWhile isSeparator).length
      if count = 0 then none else some count
  | .comment, '/' :: '/' :: source => some (2 + (source.takeWhile (· ≠ '\n')).length)
  | .comment, _ => none
  | .word, first :: source =>
      if startsWord first then some (1 + (source.takeWhile continuesWord).length) else none
  | .word, [] => none
  | .digits, source =>
      let count := (source.takeWhile Char.isDigit).length
      if count = 0 then none else some count
  | .decimal, source =>
      let whole := (source.takeWhile Char.isDigit).length
      match source.drop whole with
      | '.' :: rest =>
          let fraction := (rest.takeWhile Char.isDigit).length
          if whole = 0 ∨ fraction = 0 then none else some (whole + 1 + fraction)
      | _ => none
  | .quoted, '"' :: source => (closingQuote source).map (· + 1)
  | .quoted, _ => none
  | .mark symbol, source =>
      if symbol.chars.isPrefixOf source then some symbol.chars.length else none

end Pattern

namespace Lexer

/-- A pattern and the number of characters it accepts. -/
structure Match where
  pattern : Pattern
  length : Nat
deriving DecidableEq, Repr

/-- The longer of two matches, the first of equals. -/
def Match.longer (one other : Match) : Match :=
  if one.length < other.length then other else one

/-- The longest match of some pattern. -/
def longestMatch (source : List Char) : Option Match :=
  Pattern.all.foldl (fun best pattern =>
    match pattern.longest source, best with
    | none, best => best
    | some length, none => some ⟨pattern, length⟩
    | some length, some found => some (found.longer ⟨pattern, length⟩)) none

/-! ## What a stretch of source stands for -/

/-- The double nearest to a number written with a decimal point. -/
def decimalValue (text : List Char) : Float :=
  let whole := text.takeWhile Char.isDigit
  let fraction := text.drop (whole.length + 1)
  Number.nearest (Number.digitsValue (whole ++ fraction)) (-(fraction.length : Int))

/-- A word is a reserved word, a basic type or else a name. -/
def wordKind (word : String) : Token.Kind :=
  match Keyword.ofWord? word with
  | some keyword => .keyword keyword
  | none =>
      match BasicType.ofWord? word with
      | some type => .basicType type
      | none => .ident word

/-- What matched text stands for. -/
inductive Meaning
  | skipped
  | token (kind : Token.Kind)
  | invalid

/-- The meaning of text that a pattern accepts.  An integer must fit in 64
bits. -/
def meaning : Pattern → List Char → Meaning
  | .blanks, _ => .skipped
  | .comment, _ => .skipped
  | .word, text => .token (wordKind (String.ofList text))
  | .digits, text =>
      let value := Number.digitsValue text
      if value < 0x8000000000000000 then .token (.int (Int64.ofNat value)) else .invalid
  | .decimal, text => .token (.float (decimalValue text))
  | .quoted, text =>
      .token (.string (String.ofList (Text.Quoted.decode (text.drop 1).dropLast)))
  | .mark symbol, _ => .token (.mark symbol)

/-! ## The whole source -/

/-- The number of bytes of a text. -/
def byteCount (text : List Char) : Nat :=
  text.foldl (fun bytes char => bytes + char.utf8Size) 0

/-- The tokens from `position` on, where `source` is the rest, with the
tokens before, last first. -/
def tokenizeFrom (position : Nat) (source : List Char) (before : List Token) :
    Except LexError TokenList :=
  match source with
  | [] => .ok ⟨before.reverse, position⟩
  | first :: rest =>
      match longestMatch (first :: rest) with
      | none => .error (LexError.ofRest position (first :: rest))
      | some found =>
          let text := (first :: rest).take found.length
          let next := position + byteCount text
          let remaining := rest.drop (found.length - 1)
          match meaning found.pattern text with
          | .skipped => tokenizeFrom next remaining before
          | .token kind => tokenizeFrom next remaining (⟨kind, position, next⟩ :: before)
          | .invalid => .error (LexError.ofRest position (first :: rest))
termination_by source.length
decreasing_by all_goals simp only [List.length_drop, List.length_cons]; omega

/-- The tokens of a source. -/
def tokenize (source : String) : Except LexError TokenList :=
  tokenizeFrom 0 source.toList []

end Lexer

end Formulae
