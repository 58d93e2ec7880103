import Formulae.Formula
import Formulae.Text.CodeRange

/-!
# The command

The command takes a formula and bindings, and prints the value of the formula.
-/

namespace Formulae

/-- What the command leaves behind: its exit code and what it wrote. -/
structure CommandOutcome where
  code : UInt32
  stdout : String
  stderr : String
deriving DecidableEq, Repr

namespace Command

/-- How to use the command. -/
def usage : String :=
  "Usage: formula \"<expr>\" [name=value ...]\n"
    ++ "\n"
    ++ "Values are integers, floats, true, false, null, dates (2020-01-15),\n"
    ++ "durations (P1M) or strings.\n"
    ++ "\n"
    ++ "Set RUST_LOG (e.g. RUST_LOG=fml_eval=trace) for pipeline tracing.\n"

/-- The command succeeded and wrote one line. -/
def printed (line : String) : CommandOutcome :=
  ⟨0, line ++ "\n", ""⟩

/-- The command failed with a reason. -/
def refused (reason : String) : CommandOutcome :=
  ⟨1, "", "error: " ++ reason ++ "\n"⟩

/-- The name and the value of a binding, on the two sides of its first equals
sign. -/
def binding? (text : String) : Option (String × Value) :=
  let chars := text.toList
  let name := chars.takeWhile (· ≠ '=')
  match chars.drop name.length with
  | [] => none
  | _ :: value =>
      let trimmed (part : List Char) := String.ofList (Text.trimBlanks part)
      some (trimmed name, Value.ofText (trimmed value))

/-- The formula with the bindings given as arguments, or the first argument that
is no binding. -/
def bindAll (f : Formula) : List String → Except String Formula
  | [] => .ok f
  | arg :: rest =>
      match binding? arg with
      | some (name, value) => bindAll (f.setVariable name value) rest
      | none => .error arg

/-- No function is supplied to the command from outside. -/
def noHosts : Hosts :=
  fun _ _ => .error ""

/-- Calculate a formula with bindings. -/
def calculate (source : String) (args : List String) : CommandOutcome :=
  match Formula.ofSource source with
  | .error e => refused e.message
  | .ok f =>
      match bindAll f args with
      | .error arg => refused ("expected name=value, got \"" ++ arg ++ "\"")
      | .ok f =>
          match (f.calculate noHosts Machine.ample).1 with
          | .ok value => printed value.render
          | .error e => refused e.message

/-- Run the command with its arguments. -/
def run : List String → CommandOutcome
  | [] => ⟨1, "", usage⟩
  | source :: args =>
      if source = "-h" ∨ source = "--help" then ⟨0, "", usage⟩ else calculate source args

end Command

end Formulae
