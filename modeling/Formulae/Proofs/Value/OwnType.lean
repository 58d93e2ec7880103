import Formulae.Proofs.Ty.Substitution
import Formulae.Proofs.Value.Exact

/-!
# The own type of a value

A value in which there is no void has exactly the type that is bound for it, unless integers
stand among floats in an array of numbers (`Value.type_has_iff`): the type of such an array is
one of floats, while the integers stay what they are.
-/

namespace Formulae

namespace Value

variable {v : Value}

/-- Integers and floats stand together in an array of numbers, and this shows in the type of the
value: the arrays around it are arrays of one type. -/
inductive Blends : Value → Prop
  | here {items : List Value} (numeric : ∀ item ∈ items, item.isNumeric)
      (someFloat : ∃ item ∈ items, item.isFloat) (someInt : ∃ item ∈ items, ¬ item.isFloat) :
      Blends (.array items)
  | within {items : List Value} {item : Value} (shared : (Ty.common? (typeAll items)).isSome)
      (member : item ∈ items) (blends : item.Blends) : Blends (.array items)

theorem isNumeric_type (v : Value) : v.type.isNumeric = v.isNumeric := by
  cases v with
  | function f => cases f <;> rfl
  | _ => rfl

theorem isFloat_type (v : Value) : v.type.isFloat = v.isFloat := by
  cases v with
  | function f => cases f <;> rfl
  | _ => rfl

theorem not_blends_of_isNumeric (numeric : v.isNumeric) : ¬ v.Blends := by
  rintro (_ | _) <;> cases numeric

theorem float_has_iff : Ty.float.has v ↔ v.isFloat := by
  cases v <;> exact Iff.rfl

theorem int_has_iff (numeric : v.isNumeric) : Ty.int.has v ↔ ¬ v.isFloat := by
  cases v with
  | int | float => simp [Ty.int, Ty.has, isFloat]
  | _ => cases numeric

theorem common?_isSome_of_isNumeric {items : List Value} (nonempty : items ≠ [])
    (numeric : ∀ item ∈ items, item.isNumeric) : (Ty.common? (typeAll items)).isSome := by
  have allNumeric : (typeAll items).all Ty.isNumeric := by
    rw [typeAll_eq_map, List.all_map, List.all_eq_true]
    exact fun item member => (isNumeric_type item).trans (numeric item member)
  cases items with
  | nil => exact absurd rfl nonempty
  | cons first rest =>
      rw [typeAll] at allNumeric ⊢
      rw [Ty.common?]
      split
      · rfl
      · rw [Ty.widestNumeric?_of_isNumeric (List.cons_ne_nil _ _) allNumeric]
        rfl

theorem blends_array_iff {items : List Value} : (array items).Blends ↔
    ((∀ item ∈ items, item.isNumeric) ∧ (∃ item ∈ items, item.isFloat) ∧
      ∃ item ∈ items, ¬ item.isFloat) ∨
    (Ty.common? (typeAll items)).isSome ∧ ∃ item ∈ items, item.Blends := by
  constructor
  · rintro (⟨numeric, someFloat, someInt⟩ | ⟨shared, member, blends⟩)
    · exact .inl ⟨numeric, someFloat, someInt⟩
    · exact .inr ⟨shared, _, member, blends⟩
  · rintro (⟨numeric, someFloat, someInt⟩ | ⟨shared, item, member, blends⟩)
    · exact .here numeric someFloat someInt
    · exact .within shared member blends

section

variable {items : List Value}

/-- An array of values that share no type does not blend. -/
theorem not_blends_of_none (isNone : Ty.common? (typeAll items) = none) :
    ¬ (array items).Blends := by
  rw [blends_array_iff, isNone]
  rintro (⟨numeric, ⟨item, member, -⟩, -⟩ | ⟨shared, -⟩)
  · have shared := common?_isSome_of_isNumeric (List.ne_nil_of_mem member) numeric
    rw [isNone] at shared
    cases shared
  · cases shared

/-- An array of values of one type blends where they do. -/
theorem blends_of_same {type : Ty} (isSome : Ty.common? (typeAll items) = some type)
    (same : ∀ t ∈ typeAll items, t.equals type) :
    (array items).Blends ↔ ∃ item ∈ items, item.Blends := by
  rw [blends_array_iff, isSome]
  constructor
  · rintro (⟨-, ⟨item, member, isFloat⟩, ⟨item', member', isInt⟩⟩ | ⟨-, inside⟩)
    · rw [typeAll_eq_map] at same
      have kinds := (Ty.kinds_of_equals (same _ (List.mem_map_of_mem member))).2.2.1
      have kinds' := (Ty.kinds_of_equals (same _ (List.mem_map_of_mem member'))).2.2.1
      rw [isFloat_type] at kinds kinds'
      exact absurd (kinds'.trans (kinds.symm.trans isFloat)) isInt
    · exact inside
  · exact fun inside => .inr ⟨rfl, inside⟩

/-- An array of numbers blends if some are floats and some are not. -/
theorem blends_of_isNumeric (numeric : ∀ item ∈ items, item.isNumeric) :
    (array items).Blends ↔ (∃ item ∈ items, item.isFloat) ∧ ∃ item ∈ items, ¬ item.isFloat := by
  rw [blends_array_iff]
  constructor
  · rintro (⟨-, both⟩ | ⟨-, item, member, blends⟩)
    · exact both
    · exact absurd blends (not_blends_of_isNumeric (numeric item member))
  · exact fun both => .inl ⟨numeric, both⟩

/-- Numbers are all of the wider type of theirs unless some are floats and some are not. -/
theorem widest_has_iff (numeric : ∀ item ∈ items, item.isNumeric) :
    (∀ item ∈ items, (if (typeAll items).any Ty.isFloat then Ty.float else Ty.int).has item) ↔
      ¬ (array items).Blends := by
  rw [blends_of_isNumeric numeric, typeAll_eq_map, List.any_map]
  by_cases someFloat : ∃ item ∈ items, item.isFloat
  · have isSome : (items.any (Ty.isFloat ∘ type)) = true := by
      rcases someFloat with ⟨item, member, isFloat⟩
      exact List.any_eq_true.mpr ⟨item, member, (isFloat_type item).trans isFloat⟩
    simp only [if_pos isSome, float_has_iff]
    exact ⟨fun floats ⟨_, item, member, isInt⟩ => isInt (floats item member),
      fun noInt item member => Classical.byContradiction fun isInt =>
        noInt ⟨someFloat, item, member, isInt⟩⟩
  · have isNone : ¬ (items.any (Ty.isFloat ∘ type)) = true := by
      rw [List.any_eq_true]
      rintro ⟨item, member, isFloat⟩
      exact someFloat ⟨item, member, (isFloat_type item).symm.trans isFloat⟩
    simp only [if_neg isNone]
    refine ⟨fun _ both => someFloat both.1, fun _ item member => ?_⟩
    exact (int_has_iff (numeric item member)).mpr fun isFloat => someFloat ⟨item, member, isFloat⟩

end

/-- A value has exactly its own type unless integers and floats stand together in it. -/
theorem type_has_iff : ∀ {v : Value}, v.hasNoVoid → (v.type.has v ↔ ¬ v.Blends)
  | .array items, noVoid => by
      have eachNoVoid := hasNoVoid_array.mp noVoid
      have each : ∀ item ∈ items, (item.type.has item ↔ ¬ item.Blends) := fun item member =>
        type_has_iff (eachNoVoid item member)
      have elements (element : Ty) : (Ty.arrayOf element none).has (array items) ↔
          ∀ item ∈ items, element.has item :=
        Ty.has_array_iff.trans ⟨And.right, fun h => ⟨nofun, h⟩⟩
      rw [type, elements]
      rcases Ty.common?_cases (typeAll items) with isNone | ⟨shared, isSome, same⟩ |
        ⟨nonempty, numeric, isWidest⟩
      · rw [isNone]
        exact iff_of_true eachNoVoid (not_blends_of_none isNone)
      · rw [isSome, Option.getD_some, blends_of_same isSome same]
        simp only [not_exists, not_and]
        rw [typeAll_eq_map] at same
        refine forall₂_congr fun item member => ?_
        rw [← Ty.has_of_equals (same _ (List.mem_map_of_mem member))]
        exact each item member
      · rw [isWidest, Ty.widestNumeric?_of_isNumeric nonempty numeric, Option.getD_some]
        rw [typeAll_eq_map, List.all_map, List.all_eq_true] at numeric
        exact widest_has_iff fun item member =>
          (isNumeric_type item).symm.trans (numeric item member)
  | .function f, _ => iff_of_true (by cases f <;> rfl) nofun
  | .enumeration _ _, _ => iff_of_true (by simp [type, Ty.has]) nofun
  | .int _, _ | .float _, _ | .bool _, _ | .string _, _ | .date _, _ | .duration _, _
  | .null, _ | .void, _ => iff_of_true rfl nofun

end Value

end Formulae
