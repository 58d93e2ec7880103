/-!
# Quoted text

String literals stand between double quotes.  A backslash starts an escape;
an escape that has no meaning stands for itself, backslash included.  Reading
what was written gives the text back (`decode_encode`).
-/

namespace Formulae.Text.Quoted

/-- The contents of a literal with its escapes resolved. -/
def decode : List Char → List Char
  | [] => []
  | '\\' :: 'n' :: rest => '\n' :: decode rest
  | '\\' :: 'r' :: rest => '\r' :: decode rest
  | '\\' :: 't' :: rest => '\t' :: decode rest
  | '\\' :: '\\' :: rest => '\\' :: decode rest
  | '\\' :: '"' :: rest => '"' :: decode rest
  | c :: rest => c :: decode rest

/-- How one character is written inside a literal. -/
def encodeChar : Char → List Char
  | '\\' => ['\\', '\\']
  | '"' => ['\\', '"']
  | '\n' => ['\\', 'n']
  | '\t' => ['\\', 't']
  | '\r' => ['\\', 'r']
  | c => [c]

/-- The contents of a literal for this text. -/
def encode (text : List Char) : List Char :=
  text.flatMap encodeChar

/-- The literal for a text, quotes included. -/
def literal (text : String) : String :=
  String.ofList ('"' :: encode text.toList ++ ['"'])

theorem decode_encodeChar_append (c : Char) (rest : List Char) :
    decode (encodeChar c ++ rest) = c :: decode rest := by
  unfold encodeChar
  split <;> simp_all [decode]

theorem decode_encode (text : List Char) : decode (encode text) = text := by
  induction text with
  | nil => rfl
  | cons c rest inductionHypothesis =>
      rw [encode, List.flatMap_cons, decode_encodeChar_append]
      exact congrArg (c :: ·) inductionHypothesis

end Formulae.Text.Quoted
