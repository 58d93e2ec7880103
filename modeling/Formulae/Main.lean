import Formulae.Command

/-!
# The program

Runs the command on the arguments of the program.
-/

/-- Write what the command wrote, and end with its exit code. -/
def main (args : List String) : IO UInt32 := do
  let outcome := Formulae.Command.run args
  (← IO.getStdout).putStr outcome.stdout
  (← IO.getStderr).putStr outcome.stderr
  return outcome.code
