import Formulae.Ty.Basic

/-!
# Written types and what they mean

Every written type means a type that is written so again (`Ty.toExpr?_ofExpr`).  What is written
for a type means that type, but for what cannot be written: which parts are final, the lengths of
arrays and the ways in which results depend on arguments (`Ty.ofExpr_of_toExpr?`).
-/

namespace Formulae.Ty

mutual

/-- What a written type means can be written. -/
theorem toExpr?_ofExpr : ∀ written : TypeExpr, (ofExpr written).toExpr? = some written
  | .basic _ | .named _ => rfl
  | .array element => by rw [ofExpr, toExpr?, toExpr?_ofExpr element, Option.map_some]
  | .function params ret => by
      rw [ofExpr, toExpr?, toExprs?_ofExprs params, toExpr?_ofExpr ret]
      rfl

theorem toExprs?_ofExprs : ∀ written : List TypeExpr, toExprs? (ofExprs written) = some written
  | [] => rfl
  | type :: rest => by
      rw [ofExprs, toExprs?, toExpr?_ofExpr type, toExprs?_ofExprs rest]
      rfl

end

mutual

/-- The type as far as it can be written: final at every level, and without the lengths
of arrays and the ways in which results of functions depend on arguments. -/
def plain : Ty → Ty
  | .basic type _ => .basic type true
  | .null _ => .null true
  | .array element _ _ => .array element.plain none true
  | .function params variadic ret _ _ =>
      .function (plainAll params) (plainOption variadic) ret.plain none true
  | .enumeration name _ => .enumeration name true
  | .typeLiteral inner _ => .typeLiteral inner.plain true

/-- Several types as far as they can be written. -/
def plainAll : List Ty → List Ty
  | [] => []
  | type :: rest => type.plain :: plainAll rest

/-- A type that may be missing as far as it can be written. -/
def plainOption : Option Ty → Option Ty
  | none => none
  | some type => some type.plain

end

mutual

theorem plain_ofExpr : ∀ written : TypeExpr, (ofExpr written).plain = ofExpr written
  | .basic _ | .named _ => rfl
  | .array element => by rw [ofExpr, plain, plain_ofExpr element]
  | .function params ret => by
      rw [ofExpr, plain, plain_ofExprs params, plain_ofExpr ret]
      rfl

theorem plain_ofExprs : ∀ written : List TypeExpr, plainAll (ofExprs written) = ofExprs written
  | [] => rfl
  | type :: rest => by rw [ofExprs, plainAll, plain_ofExpr type, plain_ofExprs rest]

end

mutual

/-- What is written for a type means the type as far as it can be written. -/
theorem ofExpr_of_toExpr? : ∀ {type : Ty} {written : TypeExpr}, type.toExpr? = some written →
    ofExpr written = type.plain
  | .basic _ _, _, h => by cases h; rfl
  | .null _, _, h => nomatch h
  | .array element _ _, _, h => by
      rcases Option.map_eq_some_iff.mp h with ⟨inner, found, rfl⟩
      rw [ofExpr, plain, ofExpr_of_toExpr? found]
  | .function params none ret _ _, _, h => by
      simp only [toExpr?, bind, Option.bind_eq_some_iff] at h
      rcases h with ⟨params', found, ret', found', h⟩
      cases h
      rw [ofExpr, plain, ofExprs_of_toExprs? found, ofExpr_of_toExpr? found']
      rfl
  | .function _ (some _) _ _ _, _, h => nomatch h
  | .enumeration _ _, _, h => by cases h; rfl
  | .typeLiteral _ _, _, h => nomatch h

theorem ofExprs_of_toExprs? : ∀ {types : List Ty} {written : List TypeExpr},
    toExprs? types = some written → ofExprs written = plainAll types
  | [], _, h => by cases h; rfl
  | type :: rest, _, h => by
      simp only [toExprs?, bind, Option.bind_eq_some_iff] at h
      rcases h with ⟨first, found, others, found', h⟩
      cases h
      rw [ofExprs, plainAll, ofExpr_of_toExpr? found, ofExprs_of_toExprs? found']

end

theorem plain_withFinal (type : Ty) (f : Bool) : (type.withFinal f).plain = type.plain := by
  cases type <;> rfl

end Formulae.Ty
