import Formulae.Parser.State

/-!
# Reading types

A type is a reserved word or a name, followed by any number of `[]`, or a
function type.  The brackets after a function type belong to its result.
-/

namespace Formulae.Parser

/-- Any number of `[]` after a type. -/
def arraySuffix (element : TypeExpr) (s : State) : Extended TypeExpr s :=
  match nextMark? .leftBracket s with
  | none => .unchanged element s
  | some ⟨_, s₁, h₁⟩ =>
      match nextMark? .rightBracket s₁ with
      | none => .unchanged element s
      | some ⟨_, s₂, h₂⟩ =>
          .ofParsed (((arraySuffix (.array element) s₂).within h₂).within h₁)
termination_by s.remaining

/-- Pass the word or name that a type starts with, then its brackets. -/
def simpleType (type : TypeExpr) (s : State) (h : s.advance.remaining < s.remaining) :
    Parsed TypeExpr s :=
  (arraySuffix type s.advance).within h

mutual

/-- `int`, `T[]`, `function(T, U) -> R`, or the name of an enumeration. -/
def typeExpr (s : State) : Outcome TypeExpr s :=
  match h : s.kind with
  | .basicType word =>
      .ok (simpleType (.basic word) s (State.remaining_advance_lt_of_basicType h))
  | .ident name => .ok (simpleType (.named name) s (State.remaining_advance_lt_of_ident h))
  | .keyword .functionWord => do
      have h₀ : s.advance.remaining < s.remaining := State.remaining_advance_lt_of_keyword h
      let ⟨_, s₁, h₁⟩ ← (expectMark .leftParen s.advance).within h₀
      let ⟨params, s₂, h₂⟩ ← (typeList s₁).within h₁
      let ⟨_, s₃, h₃⟩ ← (expectMark .arrow s₂).within h₂
      let ⟨ret, s₄, h₄⟩ ← (typeExpr s₃).within h₃
      return ⟨.function params ret, s₄, h₄⟩
  | _ => .error (s.unexpected "type")
termination_by (s.remaining, 0)

/-- The types of parameters, up to and with the closing parenthesis. -/
def typeList (s : State) : Outcome (List TypeExpr) s :=
  match nextMark? .rightParen s with
  | some ⟨_, s₁, h₁⟩ => .ok ⟨[], s₁, h₁⟩
  | none => typesFrom s
termination_by (s.remaining, 2)

/-- At least one type, separated by commas, up to and with the parenthesis. -/
def typesFrom (s : State) : Outcome (List TypeExpr) s := do
  let ⟨first, s₁, h₁⟩ ← typeExpr s
  if let some ⟨_, s₂, h₂⟩ := nextMark? .comma s₁ then
    let ⟨rest, s₃, h₃⟩ ← ((typesFrom s₂).within h₂).within h₁
    return ⟨first :: rest, s₃, h₃⟩
  else
    let ⟨_, s₂, h₂⟩ ← (expectMark .rightParen s₁).within h₁
    return ⟨[first], s₂, h₂⟩
termination_by (s.remaining, 1)

end

end Formulae.Parser
