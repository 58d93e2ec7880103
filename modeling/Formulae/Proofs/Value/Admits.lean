import Formulae.Proofs.Ty.Conversions
import Formulae.Proofs.Typing.Derivation
import Formulae.Proofs.Value.Parts

/-!
# Values of a type

Which values a type has (`Ty.admits`).  A value has the type that is bound for it
(`Value.type_admits`), and a place has all values that it accepts (`Ty.admits_of_accepts`).
-/

namespace Formulae

namespace Value

/-- The value is nothing. -/
def isVoid : Value → Bool
  | .void => true
  | _ => false

/-- There is no void in the value. -/
def hasNoVoid (v : Value) : Bool :=
  v.parts.all fun part => !part.isVoid

/-- No function is in the value, and no void. -/
def Concrete (v : Value) : Prop :=
  v.Every fun part => part.kind ≠ .function ∧ part.kind ≠ .void

end Value

namespace Ty

/-- The value is one of the type: the type of floats has the integers too, the length of
an array plays no part, and every value but the void one is mixed. -/
def admits : Ty → Value → Bool
  | .basic .mixed _, v => !v.isVoid
  | .basic .int _, .int _ | .basic .float _, .int _ | .basic .float _, .float _
  | .basic .boolean _, .bool _ | .basic .string _, .string _ | .basic .date _, .date _
  | .basic .duration _, .duration _ | .basic .void _, .void | .null _, .null
  | .function _ _ _ _ _, .function _ => true
  | .array element _ _, .array items => items.all element.admits
  | .enumeration name _, .enumeration type _ => type = name
  | _, _ => false

/-- Values in equal number are of the types, one by one. -/
def admitsAll : List Ty → List Value → Bool
  | [], [] => true
  | type :: types, v :: vs => type.admits v && admitsAll types vs
  | _, _ => false

mutual

/-- The mixed type stands somewhere in the type. -/
def mentionsMixed : Ty → Bool
  | .basic type _ => type = .mixed
  | .array element _ _ => element.mentionsMixed
  | .function params variadic ret _ _ =>
      mentionsMixedAny params || mentionsMixedOption variadic || ret.mentionsMixed
  | .typeLiteral inner _ => inner.mentionsMixed
  | .null _ | .enumeration _ _ => false

/-- The mixed type stands somewhere in the types. -/
def mentionsMixedAny : List Ty → Bool
  | [] => false
  | type :: rest => type.mentionsMixed || mentionsMixedAny rest

/-- The mixed type stands somewhere in the type, if there is one. -/
def mentionsMixedOption : Option Ty → Bool
  | none => false
  | some type => type.mentionsMixed

end

variable {a b : Ty} {v : Value}

theorem mentionsMixed_of_isMixed (h : a.isMixed) : a.mentionsMixed := by
  cases a with
  | basic type => cases type <;> first | rfl | cases h
  | _ => cases h

/-! ## What plays no part -/

@[simp]
theorem admits_withFinal (type : Ty) (f : Bool) : (type.withFinal f).admits = type.admits := by
  funext v
  cases type with
  | basic type => cases type <;> cases v <;> rfl
  | _ => cases v <;> rfl

theorem admits_array (element : Ty) (length : Option Nat) (f : Bool) (items : List Value) :
    (Ty.array element length f).admits (.array items) = items.all element.admits := by
  rw [admits]

theorem array_of_admits {element : Ty} {length : Option Nat} {f : Bool}
    (h : (Ty.array element length f).admits v) :
    ∃ items, v = .array items ∧ ∀ item ∈ items, element.admits item := by
  cases v with
  | array items => exact ⟨items, rfl, List.all_eq_true.mp (admits_array .. ▸ h)⟩
  | _ => cases h

theorem admits_array_of_forall {element : Ty} {length : Option Nat} {f : Bool}
    {items : List Value} (h : ∀ item ∈ items, element.admits item) :
    (Ty.array element length f).admits (.array items) := by
  rw [admits_array, List.all_eq_true]
  exact h

/-- A value is of a type or not, as far as the type can be written. -/
theorem admits_plain : ∀ (type : Ty) (v : Value), type.plain.admits v = type.admits v
  | .basic type f, v => congrFun (admits_withFinal (.basic type f) true) v
  | .null _, v | .function _ _ _ _ _, v | .enumeration _ _, v | .typeLiteral _ _, v => by
      cases v <;> rfl
  | .array element _ _, v => by
      cases v with
      | array items =>
          rw [plain, admits_array, admits_array]
          exact congrArg items.all (funext (admits_plain element))
      | _ => rfl

/-- Types that mean the same have the same values. -/
theorem admits_of_equals {a b : Ty} (h : a.equals b) : a.admits = b.admits := by
  cases a with
  | basic _ f =>
      cases b with
      | basic type g =>
          have same := of_decide_eq_true (Bool.and_eq_true .. ▸ h).1
          subst same
          exact (admits_withFinal (.basic _ g) f)
      | _ => cases h
  | array element _ _ =>
      cases b with
      | array other _ _ =>
          simp only [equals, agree, Bool.and_eq_true] at h
          funext v
          cases v with
          | array items => rw [admits_array, admits_array, admits_of_equals h.1.2]
          | _ => rfl
      | _ => cases h
  | null _ | function _ _ _ _ _ | typeLiteral _ _ =>
      cases b <;> first | (funext v; cases v <;> rfl) | cases h
  | enumeration _ f =>
      cases b with
      | enumeration name g =>
          simp only [equals, agree, Bool.and_eq_true, decide_eq_true_eq] at h
          rw [h.1]
          exact (admits_withFinal (.enumeration _ g) f)
      | _ => cases h

/-! ## Acceptance -/

theorem not_isVoid_of_admits (value : a.isVoid = false) (h : a.admits v) : v.isVoid = false := by
  cases v with
  | void =>
      cases a with
      | basic type => cases type <;> simp_all [admits, isVoid, Value.isVoid]
      | _ => cases h
  | _ => rfl

theorem admits_of_acceptsPlain (accepts : a.acceptsPlain b) (h : b.admits v) : a.admits v := by
  rw [acceptsPlain_eq] at accepts
  simp only [Bool.and_eq_true, Bool.or_eq_true, Bool.not_eq_true'] at accepts
  rcases accepts with ⟨⟨-, hasValue⟩, (isMixed | ⟨isFloat, isInt⟩) | same⟩
  · have notVoid := not_isVoid_of_admits hasValue h
    cases a with
    | basic type =>
        cases type with
        | mixed =>
            rw [admits, notVoid]
            rfl
        | _ => cases isMixed
    | _ => cases isMixed
  · cases b with
    | basic type =>
        cases type with
        | int =>
            cases a with
            | basic type =>
                cases type with
                | float => cases v <;> first | rfl | cases h
                | _ => cases isFloat
            | _ => cases isFloat
        | _ => cases isInt
    | _ => cases isInt
  · rw [admits_of_equals same]
    exact h

/-- What a place accepts is of the type of the place. -/
theorem admits_of_accepts : ∀ {target source : Ty} {v : Value}, target.accepts source →
    source.admits v → target.admits v
  | .array a _ _, source, v, accepts, h => by
      cases source with
      | array b =>
          rw [Ty.accepts, fits, Bool.and_eq_true] at accepts
          rcases array_of_admits h with ⟨items, rfl, each⟩
          exact admits_array_of_forall fun item member =>
            admits_of_accepts accepts.2 (each item member)
      | _ => exact admits_of_acceptsPlain (by simpa [Ty.accepts, fits] using accepts) h
  | .function _ _ _ _ _, source, v, accepts, h => by
      cases source with
      | function => cases v <;> first | rfl | cases h
      | _ => exact admits_of_acceptsPlain (by simpa [Ty.accepts, fits] using accepts) h
  | .basic _ _, source, _, accepts, h | .null _, source, _, accepts, h
  | .enumeration _ _, source, _, accepts, h | .typeLiteral _ _, source, _, accepts, h => by
      cases source <;> exact admits_of_acceptsPlain (by simpa [Ty.accepts, fits] using accepts) h

/-- What is stored in a place is of the type of the place. -/
theorem admits_of_stored (accepts : a.accepts b) (h : (a.stored b).admits v) : a.admits v := by
  unfold stored at h
  split at h
  · rwa [admits_withFinal] at h
  · exact admits_of_accepts accepts h

/-! ## Numbers -/

theorem isNumeric_of_admits (numeric : a.isNumeric) (h : a.admits v) : v.isNumeric := by
  cases a with
  | basic type =>
      cases type with
      | int | float => cases v <;> first | rfl | cases h
      | _ => cases numeric
  | _ => cases numeric

theorem float_admits_of_isNumeric (numeric : v.isNumeric) : float.admits v := by
  cases v <;> first | rfl | cases numeric

theorem int_admits_of_isInt (isInt : a.isInt) (h : a.admits v) : int.admits v := by
  cases a with
  | basic type =>
      cases type with
      | int => cases v <;> first | rfl | cases h
      | _ => cases isInt
  | _ => cases isInt

theorem mixed_admits (notVoid : v.isVoid = false) : mixed.admits v := by
  rw [mixed, admits, notVoid]
  rfl

theorem mixed_admits_of_isNumeric (numeric : v.isNumeric) : mixed.admits v :=
  mixed_admits (by cases v <;> first | rfl | cases numeric)

/-- What types have in common has the values of each of them that has no nothing. -/
theorem admits_common {types : List Ty} {type : Ty} (member : type ∈ types)
    (notVoid : v.isVoid = false) (h : type.admits v) :
    ((common? types).getD mixed).admits v := by
  rcases common?_cases types with isNone | ⟨common, isSome, same⟩ | ⟨nonempty, numeric, isWidest⟩
  · rw [isNone]
    exact mixed_admits notVoid
  · rw [isSome, Option.getD_some, ← admits_of_equals (same type member)]
    exact h
  · rw [isWidest, widestNumeric?_of_isNumeric nonempty numeric, Option.getD_some]
    have isNumeric := List.all_eq_true.mp numeric type member
    split
    · exact float_admits_of_isNumeric (isNumeric_of_admits isNumeric h)
    · next noFloat =>
        rcases isNumeric_cases isNumeric with isInt | isFloat
        · exact int_admits_of_isInt isInt h
        · exact absurd (List.any_eq_true.mpr ⟨type, member, isFloat⟩) noFloat

end Ty

/-! ## The types of values -/

namespace Value

variable {v : Value}

theorem concrete_array {items : List Value} :
    (array items).Concrete ↔ ∀ v ∈ items, v.Concrete :=
  every_array

theorem concrete_of_isData (v : Value) (data : v.isData) : v.kind ≠ .function ∧ v.kind ≠ .void := by
  cases v <;> simp_all [kind, isData]

theorem hasNoVoid_array {items : List Value} :
    (array items).hasNoVoid ↔ ∀ item ∈ items, item.hasNoVoid := by
  simp only [hasNoVoid, List.all_eq_true]
  exact every_array

theorem isVoid_of_hasNoVoid (noVoid : v.hasNoVoid) : v.isVoid = false := by
  cases v with
  | void => cases noVoid
  | _ => rfl

theorem Concrete.hasNoVoid (concrete : v.Concrete) : v.hasNoVoid := by
  apply List.all_eq_true.mpr
  intro part isPart
  have notVoid := (concrete part isPart).2
  cases part with
  | void => exact absurd rfl notVoid
  | _ => rfl

theorem Concrete.isVoid (concrete : v.Concrete) : v.isVoid = false :=
  isVoid_of_hasNoVoid concrete.hasNoVoid

theorem Concrete.not_function {f : Callable} (concrete : (function f).Concrete) : False :=
  (concrete _ (List.mem_singleton_self _)).1 rfl

theorem typeAll_eq_map (vs : List Value) : typeAll vs = vs.map type := by
  induction vs with
  | nil => rfl
  | cons v rest inductionHypothesis => rw [typeAll, inductionHypothesis, List.map_cons]

theorem isFinal_type (v : Value) : v.type.isFinal := by
  cases v with
  | function f => cases f <;> rfl
  | _ => rfl

/-- A value is of its type. -/
theorem type_admits_of_hasNoVoid : ∀ {v : Value}, v.hasNoVoid → v.type.admits v
  | .array items, noVoid => by
      rw [type, Ty.arrayOf]
      apply Ty.admits_array_of_forall
      intro item member
      have itemNoVoid := hasNoVoid_array.mp noVoid item member
      have itemAdmits := type_admits_of_hasNoVoid itemNoVoid
      apply Ty.admits_common _ (isVoid_of_hasNoVoid itemNoVoid) itemAdmits
      rw [typeAll_eq_map]
      exact List.mem_map_of_mem member
  | .function f, _ => by cases f <;> rfl
  | .enumeration _ _, _ => by simp [type, Ty.admits]
  | .int _, _ | .float _, _ | .bool _, _ | .string _, _ | .date _, _ | .duration _, _
  | .null, _ | .void, _ => rfl

theorem type_admits (concrete : v.Concrete) : v.type.admits v :=
  type_admits_of_hasNoVoid concrete.hasNoVoid

theorem signature?_type_of_concrete (concrete : v.Concrete) : v.type.signature? = none := by
  cases v with
  | function f => exact concrete.not_function.elim
  | _ => rfl

end Value

end Formulae
