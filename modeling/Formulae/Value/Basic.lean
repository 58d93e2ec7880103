import Formulae.Calendar.DateText
import Formulae.Number.Shortest
import Formulae.Text.Interner
import Formulae.Tree.Basic
import Formulae.Ty.Signature

/-!
# Values

What expressions evaluate to.  Arrays are plain lists of values, so that writing
to an element of one array never touches another.
-/

namespace Formulae

/-- A function declared in a formula.  Its body is found in the program under the
number of the declaring statement; free names of the body are looked up in the
frame in which the declaration was executed.  Two executions of one declaration
give two functions, told apart by `identity`. -/
structure Closure where
  identity : Nat
  declaration : Nat
  name : String
  label : Name
  params : List Param
  frame : Nat
deriving Repr, Inhabited

/-- A function supplied from outside, known by a number, with the signature that
calls are checked against. -/
structure HostFunction where
  handle : Nat
  signature : Signature
deriving Repr, Inhabited

/-- What can be called. -/
inductive Callable
  | declared (closure : Closure)
  | builtin (function : Builtin)
  | host (function : HostFunction)
deriving Repr

namespace Callable

/-- The functions are one and the same. -/
def same : Callable → Callable → Bool
  | .declared a, .declared b => a.identity = b.identity
  | .builtin a, .builtin b => a = b
  | .host a, .host b => a.handle = b.handle
  | _, _ => false

/-- A function in words.  Declared ones are shown by the number of their name. -/
def text : Callable → String
  | .declared closure => "function " ++ closure.label.debug
  | .builtin function => "builtin " ++ function.name
  | .host _ => "host function"

end Callable

/-- Values.  `void` is the result of a call that gives no value. -/
inductive Value
  | int (n : Int64)
  | float (x : Float)
  | bool (b : Bool)
  | string (text : String)
  | date (d : Date)
  | duration (d : Duration)
  | array (items : List Value)
  | function (f : Callable)
  | enumeration (type variant : String)
  | null
  | void
deriving Repr, Inhabited

/-- The kinds of values that messages distinguish. -/
inductive ValueKind
  | int | float | boolean | string | date | duration | array | function | enumeration | null
  | void
deriving DecidableEq, Repr

namespace ValueKind

/-- The word for a kind. -/
def word : ValueKind → String
  | .int => "int"
  | .float => "float"
  | .boolean => "boolean"
  | .string => "string"
  | .date => "date"
  | .duration => "duration"
  | .array => "array"
  | .function => "function"
  | .enumeration => "enum"
  | .null => "null"
  | .void => "void"

end ValueKind

namespace Value

/-! ## Views -/

/-- The kind of a value. -/
def kind : Value → ValueKind
  | .int _ => .int
  | .float _ => .float
  | .bool _ => .boolean
  | .string _ => .string
  | .date _ => .date
  | .duration _ => .duration
  | .array _ => .array
  | .function _ => .function
  | .enumeration _ _ => .enumeration
  | .null => .null
  | .void => .void

/-- Whether the value counts as true in conditions and logical operators.  Zero
and what is empty count as false. -/
def isTruthy : Value → Bool
  | .int n => n ≠ 0
  | .float x => x != 0
  | .bool b => b
  | .string text => !text.isEmpty
  | .duration d => !d.isZero
  | .array items => !items.isEmpty
  | .date _ | .function _ | .enumeration _ _ => true
  | .null | .void => false

/-- The integer, if the value is one. -/
def asInt? : Value → Option Int64
  | .int n => some n
  | _ => none

/-- The number as a float, if the value is a number. -/
def asFloat? : Value → Option Float
  | .int n => some (Number.toFloat n)
  | .float x => some x
  | _ => none

/-- The text, if the value is a string. -/
def asString? : Value → Option String
  | .string text => some text
  | _ => none

/-- The elements, if the value is an array. -/
def asArray? : Value → Option (List Value)
  | .array items => some items
  | _ => none

/-- Integers and floats. -/
def isNumeric : Value → Bool
  | .int _ | .float _ => true
  | _ => false

/-- Floats. -/
def isFloat : Value → Bool
  | .float _ => true
  | _ => false

/-! ## Identity -/

mutual

/-- The values are the same.  An integer is never the same as a float; floats are
the same when they are equal as numbers, and dates when they are one instant. -/
def same : Value → Value → Bool
  | .int a, .int b => a = b
  | .float a, .float b => a == b
  | .bool a, .bool b => a = b
  | .string a, .string b => a = b
  | .date a, .date b => a.sameInstant b
  | .duration a, .duration b => a = b
  | .array as, .array bs => sameAll as bs
  | .function a, .function b => a.same b
  | .enumeration a x, .enumeration b y => a = b && x = y
  | .null, .null | .void, .void => true
  | _, _ => false

/-- Values in equal number are the same one by one. -/
def sameAll : List Value → List Value → Bool
  | [], [] => true
  | a :: as, b :: bs => a.same b && sameAll as bs
  | _, _ => false

end

/-! ## Types -/

mutual

/-- The type of a value that is bound from outside.  It leaves the length of
arrays open, so that other arrays of the kind fit too. -/
def type : Value → Ty
  | .int _ => Ty.int
  | .float _ => Ty.float
  | .bool _ => Ty.boolean
  | .string _ => Ty.string
  | .date _ => Ty.date
  | .duration _ => Ty.duration
  | .null => .null true
  | .void => Ty.void
  | .array items => Ty.arrayOf ((Ty.common? (typeAll items)).getD Ty.mixed) none
  | .function (.host f) => f.signature.type
  | .function (.builtin f) => f.signature.type
  | .function (.declared _) => Ty.mixed
  | .enumeration type _ => .enumeration type true

/-- The types of several values. -/
def typeAll : List Value → List Ty
  | [] => []
  | v :: rest => v.type :: typeAll rest

end

end Value

end Formulae
