import Formulae.Value.Fault
import Formulae.Value.Order

/-!
# Calls of built-in functions

The values that built-in functions give.  Checked calls arrive with arguments of
the right number and types; other calls are refused here.
-/

namespace Formulae.Builtin

/-- The arguments are refused. -/
def refused (function : Builtin) (args : List Value) : Except EvalFault α :=
  .error (.invalidArgument function args)

/-- The argument as a float. -/
def floatArg (function : Builtin) (arg : Value) : Except EvalFault Float :=
  match arg.asFloat? with
  | some x => .ok x
  | none => refused function [arg]

/-- The values that `min` and `max` choose from: the elements of a single array,
or else the arguments. -/
def candidates : List Value → List Value
  | [.array items] => items
  | args => args

/-- Of two numbers, the one further in the direction looked for; the first one
unless the second one is strictly further. -/
def further (direction : Ordering) (best candidate : Value) : Value :=
  if candidate.compare? best = some direction then candidate else best

/-- The number furthest in a direction.  It is given as a float if any candidate
is one. -/
def extremum (function : Builtin) (direction : Ordering) (args : List Value) :
    Except EvalFault Value :=
  match candidates args with
  | [] => refused function args
  | first :: rest =>
      if (first :: rest).all Value.isNumeric then
        let best := rest.foldl (further direction) first
        if (first :: rest).any Value.isFloat then
          (floatArg function best).map .float
        else .ok best
      else refused function args

/-- A function of one float. -/
def floatFunction (function : Builtin) (f : Float → Float) (args : List Value) :
    Except EvalFault Value :=
  match args with
  | [arg] => (floatArg function arg).map fun x => .float (f x)
  | _ => .error (.argumentCount function.name 1 args.length)

/-- The absolute value of a number. -/
def absolute (args : List Value) : Except EvalFault Value :=
  match args with
  | [.int n] =>
      match Number.abs? n with
      | some magnitude => .ok (.int magnitude)
      | none => .error (.overflow .absolute)
  | [.float x] => .ok (.float x.abs)
  | _ => refused .abs args

/-- A power of floats. -/
def power (args : List Value) : Except EvalFault Value :=
  match args with
  | [base, exponent] => do
      let x ← floatArg .pow base
      let y ← floatArg .pow exponent
      return .float (x.pow y)
  | _ => .error (.argumentCount Builtin.pow.name 2 args.length)

/-- An array of the arguments.  Numbers become floats if one of them is one and
there are only numbers. -/
def vector (args : List Value) : Value :=
  if args.all Value.isNumeric && args.any Value.isFloat then
    .array (args.filterMap fun arg => arg.asFloat?.map .float)
  else .array args

/-- The number of elements of an array. -/
def size (args : List Value) : Except EvalFault Value :=
  match args with
  | [.array items] => .ok (.int (Int64.ofNat items.length))
  | _ => refused .sizeof args

/-- The value of a call. -/
def call (function : Builtin) (args : List Value) : Except EvalFault Value :=
  match function with
  | .min => extremum .min .lt args
  | .max => extremum .max .gt args
  | .abs => absolute args
  | .pow => power args
  | .sqrt => floatFunction .sqrt Float.sqrt args
  | .floor => floatFunction .floor Float.floor args
  | .ceil => floatFunction .ceil Float.ceil args
  | .round => floatFunction .round Float.round args
  | .sin => floatFunction .sin Float.sin args
  | .cos => floatFunction .cos Float.cos args
  | .tan => floatFunction .tan Float.tan args
  | .asVector => .ok (vector args)
  | .sizeof => size args

end Formulae.Builtin
