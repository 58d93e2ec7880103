import Formulae.Proofs.Value.Operators

/-!
# Values of exactly a type

Which values have a type without any conversion (`Ty.has`): a float type has floats only, and
an array of a recorded length has just as many elements.  The type admits all that it has
(`Ty.admits_of_has`), and types that mean the same have the same values (`Ty.has_of_equals`).
-/

namespace Formulae

namespace Ty

variable {a b : Ty} {v : Value}

/-! ## Leaves -/

/-- What arrays of the type are made of in the end; the type itself if it is no array type. -/
def leaf : Ty → Ty
  | .array element _ _ => element.leaf
  | type => type

/-- Something definite is known of all parts of a value of the type: they are neither mixed
nor void. -/
def isDefinite (type : Ty) : Bool :=
  !type.leaf.isMixed && !type.leaf.isVoid

theorem not_isMixed_of_isDefinite (definite : a.isDefinite) : a.isMixed = false := by
  cases a with
  | basic type => cases type <;> first | rfl | cases definite
  | _ => rfl

theorem not_isVoid_of_isDefinite (definite : a.isDefinite) : a.isVoid = false := by
  cases a with
  | basic type => cases type <;> first | rfl | cases definite
  | _ => rfl

/-! ## Values -/

/-- The value has exactly the type.  A float type has no integers, a recorded length is the
number of elements, every function has every function type, and the mixed type has the values
in which there is no void. -/
def has : Ty → Value → Bool
  | .basic .mixed _, v => v.hasNoVoid
  | .basic .int _, .int _ | .basic .float _, .float _ | .basic .boolean _, .bool _
  | .basic .string _, .string _ | .basic .date _, .date _ | .basic .duration _, .duration _
  | .basic .void _, .void | .null _, .null | .function _ _ _ _ _, .function _ => true
  | .array element length _, .array items =>
      length.all (· = items.length) && items.all element.has
  | .enumeration name _, .enumeration type _ => type = name
  | _, _ => false

@[simp]
theorem has_withFinal (type : Ty) (f : Bool) : (type.withFinal f).has = type.has := by
  funext v
  cases type with
  | basic type => cases type <;> cases v <;> rfl
  | _ => cases v <;> rfl

theorem has_array_iff {element : Ty} {length : Option Nat} {f : Bool} {items : List Value} :
    (array element length f).has (.array items) ↔
      (∀ n ∈ length, n = items.length) ∧ ∀ item ∈ items, element.has item := by
  rw [has, Bool.and_eq_true, List.all_eq_true]
  cases length <;> simp

theorem array_of_has {element : Ty} {length : Option Nat} {f : Bool}
    (h : (array element length f).has v) :
    ∃ items, v = .array items ∧ (∀ n ∈ length, n = items.length) ∧
      ∀ item ∈ items, element.has item := by
  cases v with
  | array items => exact ⟨items, rfl, has_array_iff.mp h⟩
  | _ => cases h

/-- A type admits the values that it has. -/
theorem admits_of_has : ∀ {type : Ty} {v : Value}, type.has v → type.admits v
  | .array element _ _, v, h => by
      rcases array_of_has h with ⟨items, rfl, -, each⟩
      exact admits_array_of_forall fun item member => admits_of_has (each item member)
  | .basic .mixed f, v, h =>
      admits_withFinal mixed f ▸ mixed_admits (Value.isVoid_of_hasNoVoid h)
  | .basic .int _, v, h | .basic .float _, v, h | .basic .boolean _, v, h
  | .basic .string _, v, h | .basic .date _, v, h | .basic .duration _, v, h
  | .basic .void _, v, h | .null _, v, h | .function _ _ _ _ _, v, h | .typeLiteral _ _, v, h => by
      cases v <;> first | rfl | cases h
  | .enumeration _ _, v, h => by
      cases v <;> exact h

theorem float_of_has {f : Bool} (h : (basic .float f).has v) : ∃ x, v = .float x := by
  cases v <;> first | exact ⟨_, rfl⟩ | cases h

/-- Types that mean the same have the same values. -/
theorem has_of_equals {a b : Ty} (h : a.equals b) : a.has = b.has := by
  cases a with
  | basic _ f =>
      cases b with
      | basic type g =>
          have same := of_decide_eq_true (Bool.and_eq_true .. ▸ h).1
          subst same
          exact has_withFinal (.basic _ g) f
      | _ => cases h
  | array element _ _ =>
      cases b with
      | array other _ _ =>
          simp only [equals, agree, Bool.and_eq_true, decide_eq_true_eq] at h
          funext v
          cases v with
          | array items => rw [has, has, has_of_equals h.1.2, h.1.1]
          | _ => rfl
      | _ => cases h
  | null _ | function _ _ _ _ _ | typeLiteral _ _ =>
      cases b <;> first | (funext v; cases v <;> rfl) | cases h
  | enumeration _ f =>
      cases b with
      | enumeration name g =>
          simp only [equals, agree, Bool.and_eq_true, decide_eq_true_eq] at h
          rw [h.1]
          exact has_withFinal (.enumeration _ g) f
      | _ => cases h

/-- There is void in a value only if there is in its type. -/
theorem hasNoVoid_of_has : ∀ {type : Ty} {v : Value}, type.leaf.isVoid = false → type.has v →
    v.hasNoVoid
  | .array element _ _, v, noVoid, h => by
      rcases array_of_has h with ⟨items, rfl, -, each⟩
      exact Value.hasNoVoid_array.mpr fun item member =>
        @hasNoVoid_of_has element item noVoid (each item member)
  | .basic .mixed _, v, _, h => h
  | .basic .void _, v, noVoid, _ => nomatch noVoid
  | .basic .int _, v, _, h | .basic .float _, v, _, h | .basic .boolean _, v, _, h
  | .basic .string _, v, _, h | .basic .date _, v, _, h | .basic .duration _, v, _, h
  | .null _, v, _, h | .function _ _ _ _ _, v, _, h | .typeLiteral _ _, v, _, h
  | .enumeration _ _, v, _, h => by
      cases v <;> first | rfl | cases h

theorem not_array_of_has (notArray : a.isArray = false) (notMixed : a.isMixed = false)
    (h : a.has v) : v.asArray? = none :=
  not_array_of_admits notArray notMixed (admits_of_has h)

end Ty

end Formulae
