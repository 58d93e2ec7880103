import Formulae.Text.Attached
import Formulae.Text.Invisible

/-!
# Visible text

A text between quotes in which everything is visible: quotes, backslashes, line
ends, invisible characters and those that go with the character before them are
written as escapes, all other characters as they are.
-/

namespace Formulae.Text

/-- How one character is written. -/
def escapedChar (c : Char) : List Char :=
  match c with
  | '"' => ['\\', '"']
  | '\\' => ['\\', '\\']
  | '\n' => ['\\', 'n']
  | '\r' => ['\\', 'r']
  | '\t' => ['\\', 't']
  | '\x00' => ['\\', '0']
  | c =>
      if isAttached c || isInvisible c then
        ['\\', 'u', '\x7b'] ++ Nat.toDigits 16 c.toNat ++ ['\x7d']
      else [c]

/-- The text between quotes with everything visible. -/
def escaped (text : String) : String :=
  String.ofList ('"' :: text.toList.flatMap escapedChar ++ ['"'])

end Formulae.Text
