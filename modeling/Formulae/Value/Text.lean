import Formulae.Number.Integer
import Formulae.Text.Escape
import Formulae.Text.Quoted
import Formulae.Value.Basic

/-!
# Values in text

A value has three texts: the one that programs and users see, in which only the
spelling of enumeration variants is open (`Value.renderWith`); the one with
quotes around a string (`Value.literal`); and the one that tells kinds apart
(`Value.debug`).  `Value.ofText` reads what a user types for a value.
-/

namespace Formulae.Value

open Number Text

/-! ## Writing -/

mutual

/-- The text of a value, with enumeration variants spelled by `spell`. -/
def renderWith (spell : String → String → String) : Value → String
  | .int n => toString n.toInt
  | .float x => renderFloat x
  | .bool b => if b then "true" else "false"
  | .string text => text
  | .date d => d.render
  | .duration d => d.render
  | .array items => "\x7b" ++ ", ".intercalate (renderAll spell items) ++ "\x7d"
  | .function f => f.text
  | .enumeration type variant => spell type variant
  | .null => "null"
  | .void => "void"

/-- The texts of several values. -/
def renderAll (spell : String → String → String) : List Value → List String
  | [] => []
  | v :: rest => v.renderWith spell :: renderAll spell rest

end

/-- The text of a value, with the names of enumeration variants. -/
def render (v : Value) : String :=
  v.renderWith fun type variant => type ++ "." ++ variant

/-- The text of a value, without the names of enumeration variants. -/
def display (v : Value) : String :=
  v.renderWith fun _ _ => "enum"

/-- The text of a value, with quotes around a string.  Nothing in the string is
escaped. -/
def literal : Value → String
  | .string text => "\"" ++ text ++ "\""
  | v => v.display

mutual

/-- The text of a value with its kind.  The names of enumerations are shown by
their numbers. -/
def debug (names : Interner) : Value → String
  | .int n => "Int(" ++ toString n.toInt ++ ")"
  | .float x => "Float(" ++ renderFloat x ++ ")"
  | .bool b => if b then "Bool(true)" else "Bool(false)"
  | .string text => "Str(" ++ escaped text ++ ")"
  | .date d => "Date(" ++ d.render ++ ")"
  | .duration d => "Duration(" ++ d.render ++ ")"
  | .array items => "[" ++ ", ".intercalate (debugAll names items) ++ "]"
  | .function f => f.text
  | .enumeration type variant =>
      "Enum(" ++ (names.number type).debug ++ ", " ++ (names.number variant).debug ++ ")"
  | .null => "Null"
  | .void => "Void"

/-- The texts of several values with their kinds. -/
def debugAll (names : Interner) : List Value → List String
  | [] => []
  | v :: rest => v.debug names :: debugAll names rest

end

/-! ## Reading -/

/-- The text between quotes at both ends; a text without them as it is. -/
def unquoted (text : List Char) : List Char :=
  match text with
  | '"' :: rest => if rest.getLast? = some '"' then rest.dropLast else text
  | _ => text

/-- The value a user means by a text: a number, a word of the language, a date or
a duration, quoted or not, or else a string. -/
def ofText (text : String) : Value :=
  let chars := text.toList
  match integer? chars, float? chars with
  | some n, _ => .int n
  | none, some x => .float x
  | none, none =>
      match text with
      | "true" => .bool true
      | "false" => .bool false
      | "null" => .null
      | _ =>
          let inner := unquoted chars
          match Date.parse? inner, Duration.parse? inner with
          | some d, _ => .date d
          | none, some d => .duration d
          | none, none => .string (String.ofList inner)

end Formulae.Value
