/-!
# Operators

Every operator of the language, described once: its symbol, how tightly it
binds, to which side it associates, and which of its operands it needs and
reads.  Parsing and printing take precedence from here; typing and evaluation
take the operator's kind.
-/

namespace Formulae

/-- The operators, in the order of their table. -/
inductive Operator
  | add | sub | mul | div | mod
  | xor | and | or
  | not | neg
  | eq | notEq | lt | gt | ltEq | gtEq
  | assign | addAssign | subAssign | mulAssign | divAssign
  | typeCast | index | call
deriving DecidableEq, Repr, Inhabited

/-- Which operand of a chain of equal operators is grouped first. -/
inductive Associativity
  | left | right
deriving DecidableEq, Repr

/-- Where a symbol stands relative to its operands. -/
inductive Fixity
  | prefixOp | infixOp | postfixOp
deriving DecidableEq, Repr

namespace Fixity

/-- The word for a position. -/
def word : Fixity → String
  | .prefixOp => "prefix"
  | .infixOp => "infix"
  | .postfixOp => "postfix"

end Fixity

/-- How tightly assignments bind. -/
def assignPrecedence : Nat := 1

/-- How tightly the conditional `? :` binds. -/
def ternaryPrecedence : Nat := 2

/-- How tightly prefix operators and casts bind. -/
def prefixPrecedence : Nat := 10

/-- How tightly indexing and calls bind. -/
def postfixPrecedence : Nat := 11

/-- How tightly names, literals and anything in parentheses bind. -/
def primaryPrecedence : Nat := 12

namespace Operator

/-- Every operator, in table order. -/
def all : List Operator :=
  [.add, .sub, .mul, .div, .mod, .xor, .and, .or, .not, .neg, .eq, .notEq,
   .lt, .gt, .ltEq, .gtEq, .assign, .addAssign, .subAssign, .mulAssign,
   .divAssign, .typeCast, .index, .call]

theorem mem_all (op : Operator) : op ∈ all := by
  cases op <;> decide

/-- How the operator is written. -/
def symbol : Operator → String
  | .add => "+" | .sub => "-" | .mul => "*" | .div => "/" | .mod => "%"
  | .xor => "^" | .and => "&&" | .or => "||"
  | .not => "!" | .neg => "-"
  | .eq => "==" | .notEq => "!=" | .lt => "<" | .gt => ">" | .ltEq => "<=" | .gtEq => ">="
  | .assign => "=" | .addAssign => "+=" | .subAssign => "-=" | .mulAssign => "*="
  | .divAssign => "/="
  | .typeCast => "(type)" | .index => "[]" | .call => "()"

/-- Writing to the left operand, plainly or after combining. -/
def isAssignment : Operator → Bool
  | .assign | .addAssign | .subAssign | .mulAssign | .divAssign => true
  | _ => false

/-- The operators on truth values. -/
def isLogical : Operator → Bool
  | .and | .or | .xor | .not => true
  | _ => false

/-- The four order comparisons. -/
def isOrdering : Operator → Bool
  | .lt | .gt | .ltEq | .gtEq => true
  | _ => false

/-- The arithmetic operators with two operands. -/
def isArithmetic : Operator → Bool
  | .add | .sub | .mul | .div | .mod => true
  | _ => false

/-- Equality and its negation. -/
def isEquality : Operator → Bool
  | .eq | .notEq => true
  | _ => false

/-- The arithmetic that a compound assignment applies before it writes. -/
def compoundBase : Operator → Option Operator
  | .addAssign => some .add
  | .subAssign => some .sub
  | .mulAssign => some .mul
  | .divAssign => some .div
  | _ => none

/-- How tightly the operator binds; higher binds tighter. -/
def precedence : Operator → Nat
  | .assign | .addAssign | .subAssign | .mulAssign | .divAssign => assignPrecedence
  | .or => 3
  | .xor => 4
  | .and => 5
  | .eq | .notEq => 6
  | .lt | .gt | .ltEq | .gtEq => 7
  | .add | .sub => 8
  | .mul | .div | .mod => 9
  | .not | .neg | .typeCast => prefixPrecedence
  | .index | .call => postfixPrecedence

/-- Assignments, prefix operators and casts group from the right, all others
from the left. -/
def associativity (op : Operator) : Associativity :=
  match op with
  | .not | .neg | .typeCast => .right
  | _ => if op.isAssignment then .right else .left

/-- How tightly the left operand has to bind to go without parentheses. -/
def leftMinimum (op : Operator) : Nat :=
  match op.associativity with
  | .left => op.precedence
  | .right => op.precedence + 1

/-- How tightly the right operand has to bind to go without parentheses. -/
def rightMinimum (op : Operator) : Nat :=
  match op.associativity with
  | .left => op.precedence + 1
  | .right => op.precedence

/-- The operands may be exchanged. -/
def isCommutative : Operator → Bool
  | .add | .mul | .xor | .and | .or | .eq | .notEq => true
  | _ => false

/-- An expression must stand on the left. -/
def needsLeft : Operator → Bool
  | .not | .neg => false
  | _ => true

/-- An expression must stand on the right; no operator goes without. -/
def needsRight : Operator → Bool
  | _ => true

/-- The value of the left operand is read; plain assignment only writes there. -/
def usesLeft : Operator → Bool
  | .not | .neg | .assign => false
  | _ => true

/-- The value of the right operand is read; a cast reads a type instead. -/
def usesRight : Operator → Bool
  | .typeCast => false
  | _ => true

/-- Where the operator stands relative to its operands.  Indexing and calls
follow their first operand. -/
def fixity (op : Operator) : Fixity :=
  if !op.needsLeft then .prefixOp
  else if !op.needsRight || op.precedence = postfixPrecedence then .postfixOp
  else .infixOp

end Operator

/-- No operator has this symbol in this position. -/
structure UnknownOperator where
  symbol : String
  fixity : Fixity
deriving DecidableEq, Repr

namespace UnknownOperator

/-- The text shown to the user. -/
def message (unknown : UnknownOperator) : String :=
  "unknown " ++ unknown.fixity.word ++ " operator \"" ++ unknown.symbol ++ "\""

end UnknownOperator

namespace Operator

/-- The operator with a symbol in a position: `-` negates before an operand
and subtracts between two. -/
def resolve (symbol : String) (fixity : Fixity) : Except UnknownOperator Operator :=
  match all.find? fun op => op.symbol == symbol && op.fixity == fixity with
  | some op => .ok op
  | none => .error ⟨symbol, fixity⟩

/-- Symbol and position identify the operator. -/
theorem resolve_symbol_fixity (op : Operator) : resolve op.symbol op.fixity = .ok op := by
  cases op <;> rfl

end Operator

end Formulae
