import Formulae.Parser.Stmt
import Formulae.Run.Eval
import Formulae.Token.Lexer
import Formulae.Tree.Printer
import Formulae.Tree.Rename
import Formulae.Typing.Program

/-!
# Formulas with bindings

A formula is read once and may then be calculated many times, with variables and
methods bound from outside.  What checking found is kept and used again as long as
the types of the bindings and the formula itself stay the same.
-/

namespace Formulae

/-- Why a formula has no value or no type. -/
inductive FormulaError
  | lex (error : LexError)
  | parse (error : ParseError)
  | type (error : TypeError)
  | eval (error : EvalError)
  /-- The bound on the number of steps was met. -/
  | unfinished

namespace FormulaError

/-- The text shown to the user. -/
def message : FormulaError → String
  | .lex error => error.message
  | .parse error => error.message
  | .type error => error.message
  | .eval error => "Can't calculate. " ++ error.message
  | .unfinished => "Can't calculate. Too many steps"

/-- The reason why a run stopped, as an error of the formula. -/
def ofStop : Stop → FormulaError
  | .failed error => .eval error
  | .exhausted => .unfinished

end FormulaError

/-- A checked formula and the types of the bindings it was checked against. -/
structure Validated where
  bindings : List (String × Ty)
  program : TypedProgram

/-- A formula with its bindings: `inputs` are the variables bound from outside, and
`methods` the functions.  `store` holds what functions that came out of
earlier calculations can still reach. -/
structure Formula where
  source : String
  names : Interner
  program : Program Unit
  inputs : List (String × Value) := []
  methods : List (String × HostFunction) := []
  validated : Option Validated := none
  cancelled : Bool := false
  store : Store := Store.empty

namespace Formula

/-- Read a formula. -/
def ofSource (source : String) : Except FormulaError Formula := do
  let tokens ← (Lexer.tokenize source).mapError .lex
  let parsed ← (Parser.parse tokens).mapError .parse
  return { source, names := Interner.empty.internAll tokens.texts, program := parsed.program }

/-! ## Texts and names -/

/-- The formula as it reads now. -/
def print (f : Formula) (config : PrintConfig) : String :=
  f.program.print config

/-- The free variables, in the order in which they first occur. -/
def freeVariables (f : Formula) : List String :=
  f.program.freeVariables

/-- The free names that are called, in the order in which they first occur. -/
def freeMethods (f : Formula) : List String :=
  f.program.freeMethods

/-- The quoted texts, in source order. -/
def strings (f : Formula) : List String :=
  f.program.strings

/-! ## Bindings -/

/-- The bindings without the one of a name. -/
def without {β : Type} (bindings : List (String × β)) (name : String) : List (String × β) :=
  bindings.filter (·.1 != name)

/-- Bind a variable, in place of a method of that name. -/
def setVariable (f : Formula) (name : String) (value : Value) : Formula :=
  { f with
    methods := without f.methods name
    inputs := (name, value) :: without f.inputs name }

/-- Remove a variable; its value is given back. -/
def removeVariable (f : Formula) (name : String) : Option Value × Formula :=
  (f.inputs.lookup name, { f with inputs := without f.inputs name })

/-- Bind a method, in place of a variable of that name. -/
def setMethod (f : Formula) (name : String) (method : HostFunction) : Formula :=
  { f with
    inputs := without f.inputs name
    methods := (name, method) :: without f.methods name }

/-- Have calculations given up, or not. -/
def setCancelled (f : Formula) (cancelled : Bool) : Formula :=
  { f with cancelled }

/-- The values that names are bound to, methods included. -/
def values (f : Formula) : List (String × Value) :=
  f.inputs ++ f.methods.map fun (name, method) => (name, .function (.host method))

/-- The types that names are bound to, in the order of the names. -/
def bindingTypes (f : Formula) : List (String × Ty) :=
  (f.values.mergeSort fun one other => one.1 ≤ other.1).map fun (name, value) =>
    (name, value.type)

/-- The name is bound or names a built-in function. -/
def isBound (f : Formula) (name : String) : Bool :=
  (f.values.lookup name).isSome || (Builtin.ofName? name).isSome

/-! ## Renames -/

/-- Take over a changed tree.  What checking found is kept only if nothing was
changed. -/
def changed (f : Formula) (change : Nat × Program Unit) : Nat × Formula :=
  let (count, program) := change
  (count, { f with program, validated := if count = 0 then f.validated else none })

/-- Rename the free uses of a name in one role, and count them. -/
def rename (f : Formula) (r : Renaming) : Nat × Formula :=
  f.changed (f.program.rename r)

/-- Replace a quoted text by another, and count the places. -/
def requote (f : Formula) (old new : String) : Nat × Formula :=
  f.changed (f.program.requote old new)

/-! ## Calculation -/

/-- The bindings have the same names and types. -/
def sameBindings : List (String × Ty) → List (String × Ty) → Bool
  | [], [] => true
  | (x, a) :: rest, (y, b) :: others => x = y && a.same b && sameBindings rest others
  | _, _ => false

/-- The types of names bound from outside. -/
def globals (bindings : List (String × Ty)) : TypeEnv :=
  bindings.foldl (fun env (name, type) => env.bind name type) TypeEnv.empty

/-- Check the formula against types of bindings. -/
def validateAgainst (f : Formula) (bindings : List (String × Ty)) :
    Except FormulaError Validated := do
  let program ← (f.program.check (globals bindings)).mapError .type
  return ⟨bindings, program⟩

/-- What checking finds against the present bindings, or what is kept of it. -/
def validate (f : Formula) : Except FormulaError Validated :=
  let bindings := f.bindingTypes
  match f.validated with
  | some kept => if sameBindings kept.bindings bindings then .ok kept else f.validateAgainst bindings
  | none => f.validateAgainst bindings

/-- The type of the result under the present bindings. -/
def resultType (f : Formula) : Except FormulaError Ty × Formula :=
  match f.validate with
  | .ok kept => (.ok kept.program.resultType, { f with validated := some kept })
  | .error e => (.error e, { f with validated := none })

/-- The fault of a free name that is not bound. -/
def missing (use : Occurrence) : EvalError :=
  match use.role with
  | .variable => ⟨.unboundVariable use.name, use.span⟩
  | .callee => ⟨.unresolvedMethod use.name, use.span⟩

/-- The first free name that is not bound. -/
def unbound? (f : Formula) : Option EvalError :=
  (f.program.free.find? fun use => !f.isBound use.name).map missing

/-- A machine whose global frame holds the bindings. -/
def machine (f : Formula) : Machine :=
  let (global, store) := f.store.push none
  f.values.foldl (fun m (name, value) => m.defineGlobal name value)
    ⟨store, .ofFrame global, [], []⟩

/-- Run the checked formula. -/
def evaluate (f : Formula) (hosts : Hosts) (bound : Nat) (kept : Validated) :
    Except FormulaError Value × Formula :=
  let setting := { kept.program.setting f.names hosts with cancelled := f.cancelled }
  let (result, m) := f.machine.run setting bound kept.program
  (result.mapError .ofStop, { f with store := m.store, validated := some kept })

/-- The value of the formula under the present bindings. -/
def calculate (f : Formula) (hosts : Hosts) (bound : Nat) : Except FormulaError Value × Formula :=
  match f.unbound? with
  | some e => (.error (.eval e), f)
  | none =>
      match f.validate with
      | .ok kept => f.evaluate hosts bound kept
      | .error e => (.error e, { f with validated := none })

end Formula

end Formulae
