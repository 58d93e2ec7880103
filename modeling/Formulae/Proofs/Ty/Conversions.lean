import Formulae.Proofs.Ty.Agree
import Formulae.Ty.Relation

/-!
# What may stand for what

How `equals`, `accepts`, `castableTo` and `convertsFrom` relate.  Finality plays no part
in any of them.  Whatever a place accepts can be cast to its type
(`castableTo_of_accepts`).
-/

namespace Formulae.Ty

/-! ## Finality -/

@[simp]
theorem withFinal_withFinal (t : Ty) (f g : Bool) : (t.withFinal f).withFinal g = t.withFinal g := by
  cases t <;> rfl

@[simp]
theorem isFinal_withFinal (t : Ty) (f : Bool) : (t.withFinal f).isFinal = f := by
  cases t <;> rfl

@[simp]
theorem isVoid_withFinal (t : Ty) (f : Bool) : (t.withFinal f).isVoid = t.isVoid := by
  cases t with
  | basic type => cases type <;> rfl
  | _ => rfl

@[simp]
theorem isMixed_withFinal (t : Ty) (f : Bool) : (t.withFinal f).isMixed = t.isMixed := by
  cases t with
  | basic type => cases type <;> rfl
  | _ => rfl

@[simp]
theorem isInt_withFinal (t : Ty) (f : Bool) : (t.withFinal f).isInt = t.isInt := by
  cases t with
  | basic type => cases type <;> rfl
  | _ => rfl

@[simp]
theorem isFloat_withFinal (t : Ty) (f : Bool) : (t.withFinal f).isFloat = t.isFloat := by
  cases t with
  | basic type => cases type <;> rfl
  | _ => rfl

@[simp]
theorem equals_withFinal_left (a b : Ty) (f : Bool) : (a.withFinal f).equals b = a.equals b := by
  cases a <;> cases b <;> simp [equals, withFinal, agree]

@[simp]
theorem equals_withFinal_right (a b : Ty) (f : Bool) : a.equals (b.withFinal f) = a.equals b := by
  cases a <;> cases b <;> simp [equals, withFinal, agree]

@[simp]
theorem equals_refl (a : Ty) : a.equals a :=
  agree_refl false a

/-! ## Acceptance -/

theorem acceptsPlain_eq (target source : Ty) : target.acceptsPlain source =
    (!target.isVoid && !source.isVoid &&
      (target.isMixed || target.isFloat && source.isInt || target.equals source)) := by
  cases target with
  | basic a =>
      cases source with
      | basic b => cases a <;> cases b <;> rfl
      | _ => cases a <;> rfl
  | _ =>
      cases source with
      | basic b => cases b <;> rfl
      | _ => simp [acceptsPlain, isVoid, isMixed, isFloat]

@[simp]
theorem acceptsPlain_withFinal_left (target source : Ty) (f : Bool) :
    (target.withFinal f).acceptsPlain source = target.acceptsPlain source := by
  simp [acceptsPlain_eq]

@[simp]
theorem acceptsPlain_withFinal_right (target source : Ty) (f : Bool) :
    target.acceptsPlain (source.withFinal f) = target.acceptsPlain source := by
  simp [acceptsPlain_eq]

@[simp]
theorem accepts_withFinal_left (target source : Ty) (f : Bool) :
    (target.withFinal f).accepts source = target.accepts source := by
  have plain := acceptsPlain_withFinal_left target source f
  cases target <;> cases source <;> simp_all [accepts, withFinal, fits]

@[simp]
theorem accepts_withFinal_right (target source : Ty) (f : Bool) :
    target.accepts (source.withFinal f) = target.accepts source := by
  have plain := acceptsPlain_withFinal_right target source f
  cases target <;> cases source <;> simp_all [accepts, withFinal, fits]

@[simp]
theorem castableTo_withFinal (source target : Ty) (f : Bool) :
    source.castableTo (target.withFinal f) = source.castableTo target := by
  have accepts := accepts_withFinal_left target source f
  cases source with
  | basic a =>
      cases target with
      | basic b => cases a <;> cases b <;> rfl
      | _ => cases a <;> simp_all [castableTo, castablePlain, withFinal]
  | _ =>
      cases target with
      | basic b => cases b <;> simp_all [castableTo, castablePlain, withFinal]
      | _ => simp_all [castableTo, castablePlain, withFinal]

theorem castablePlain_of_accepts {target source : Ty} (h : target.accepts source) :
    source.castablePlain target := by
  cases source with
  | basic a =>
      cases target with
      | basic b => cases a <;> cases b <;> first | rfl | exact h
      | _ => cases a <;> first | rfl | exact h
  | _ =>
      cases target with
      | basic b => cases b <;> first | rfl | exact h
      | _ => exact h

theorem lengthsAgree_comm (m n : Option Nat) : lengthsAgree m n = lengthsAgree n m := by
  cases m <;> cases n <;> simp [lengthsAgree, eq_comm]

/-- Whatever a place accepts can be cast to its type. -/
theorem castableTo_of_accepts : ∀ {target source : Ty}, target.accepts source →
    source.castableTo target
  | .array a m _, .array b n _, h => by
      rw [accepts, fits, Bool.and_eq_true] at h
      rw [castableTo, Bool.and_eq_true, lengthsAgree_comm]
      exact ⟨h.1, castableTo_of_accepts h.2⟩
  | .array _ _ _, .basic _ _, h | .array _ _ _, .null _, h | .array _ _ _, .function _ _ _ _ _, h
  | .array _ _ _, .enumeration _ _, h | .array _ _ _, .typeLiteral _ _, h =>
      castablePlain_of_accepts h
  | .basic _ _, source, h | .null _, source, h | .function _ _ _ _ _, source, h
  | .enumeration _ _, source, h | .typeLiteral _ _, source, h => by
      cases source <;> exact castablePlain_of_accepts h

theorem not_isVoid_of_castableTo {source target : Ty} (castable : source.castableTo target) :
    target.isVoid = false := by
  cases target with
  | basic type =>
      cases type with
      | void =>
          cases source with
          | basic type => cases type <;> cases castable
          | _ => cases castable
      | _ => rfl
  | _ => rfl

/-! ## Conversion -/

/-- A place whose type converts accepts what is converted. -/
theorem accepts_self_of_convertsFrom {target source : Ty} (h : target.convertsFrom source) :
    target.accepts target := by
  fun_induction convertsFrom target source with
  | case1 => rfl
  | case2 a m _ b _ _ inductionHypothesis =>
      have element : a.accepts a := inductionHypothesis h
      rw [accepts, fits, Bool.and_eq_true]
      exact ⟨by cases m <;> simp [lengthsAgree], element⟩
  | case3 => cases h

/-- Storing a value in a place of the same type does not change it. -/
theorem convertsFrom_of_equals {target source : Ty} (h : source.equals target) :
    target.convertsFrom source = false := by
  fun_induction convertsFrom target source with
  | case1 => simp [equals, agree] at h
  | case2 a _ _ b _ _ inductionHypothesis =>
      simp only [equals, agree, Bool.and_eq_true] at h
      exact inductionHypothesis h.1.2
  | case3 => rfl

/-! ## Joins -/

/-- The type of a choice between values of two types: the wider one, or mixed if neither
accepts the other. -/
def join (a b : Ty) : Ty :=
  if a.equals b then a.withFinal true
  else if a.accepts b then a.withFinal true
  else if b.accepts a then b.withFinal true
  else mixed

/-- The type of a value that is stored in a place: that of the place if its
representation changes. -/
def stored (target source : Ty) : Ty :=
  if target.convertsFrom source then target.withFinal true else source

theorem stored_of_not_convertsFrom {target source : Ty} (h : ¬ target.convertsFrom source) :
    target.stored source = source :=
  if_neg h

theorem join_stored_right {a b : Ty} (accepts : a.accepts b) :
    join a (a.stored b) = a.withFinal true := by
  unfold stored
  split
  · simp [join]
  · simp [join, accepts]

theorem join_stored_left {a b : Ty} (differ : ¬ a.equals b) (refused : ¬ a.accepts b)
    (accepts : b.accepts a) : join (b.stored a) b = b.withFinal true := by
  unfold stored
  split
  · simp [join]
  · rw [join, if_neg differ, if_neg refused, if_pos accepts]

theorem isNumeric_cases {t : Ty} (h : t.isNumeric) : t.isInt ∨ t.isFloat := by
  cases t with
  | basic type => cases type <;> simp_all [isNumeric, isInt, isFloat]
  | _ => cases h

theorem convertsFrom_mixed (source : Ty) : mixed.convertsFrom source = false := by
  cases source <;> rfl

theorem stored_mixed (source : Ty) : mixed.stored source = source := by
  rw [stored, convertsFrom_mixed]
  rfl

theorem stored_int (source : Ty) : int.stored source = source := by
  cases source <;> rfl

theorem stored_float_of_isNumeric {t : Ty} (h : t.isNumeric) :
    ∃ f, float.stored t = .basic .float f := by
  cases t with
  | basic type f =>
      cases type with
      | int => exact ⟨true, rfl⟩
      | float => exact ⟨f, rfl⟩
      | _ => cases h
  | _ => cases h

theorem widestNumeric?_of_isNumeric {types : List Ty} (nonempty : types ≠ [])
    (numeric : types.all isNumeric) :
    widestNumeric? types = some (if types.any isFloat then float else int) := by
  have isEmpty : types.isEmpty = false := by simpa using nonempty
  have all : (types.all fun type => type.isNumeric || type.isMixed) = true := by
    rw [List.all_eq_true] at numeric ⊢
    exact fun t member => by rw [numeric t member]; rfl
  have noMixed : types.any isMixed = false := by
    rw [List.any_eq_false]
    intro t member
    have isNumeric := List.all_eq_true.mp numeric t member
    cases t with
    | basic type => cases type <;> simp_all [Ty.isNumeric, isMixed]
    | _ => simp [isMixed]
  simp only [widestNumeric?, isEmpty, all, noMixed, Bool.not_true, Bool.or_self,
    Bool.false_eq_true, if_false]
  split <;> rfl

theorem common?_of_floats {types : List Ty} (nonempty : types ≠ [])
    (floats : ∀ t ∈ types, ∃ f, t = .basic .float f) : common? types = some float := by
  cases types with
  | nil => exact absurd rfl nonempty
  | cons first rest =>
      rcases floats first List.mem_cons_self with ⟨f, rfl⟩
      have same : ((basic .float f :: rest).all (equals · (basic .float f))) = true := by
        rw [List.all_eq_true]
        intro t member
        rcases floats t member with ⟨g, rfl⟩
        rfl
      rw [common?, if_pos same]
      rfl

/-- What values have in common is the one type that they all have, or a type of
numbers. -/
theorem common?_cases (types : List Ty) :
    common? types = none ∨
      (∃ type, common? types = some type ∧ ∀ t ∈ types, t.equals type) ∨
      types ≠ [] ∧ types.all isNumeric ∧ common? types = widestNumeric? types := by
  cases types with
  | nil => exact .inl rfl
  | cons first rest =>
      rw [common?]
      split
      · next same =>
          refine .inr (.inl ⟨_, rfl, fun t member => ?_⟩)
          simpa using List.all_eq_true.mp same t member
      · split
        · next numeric => exact .inr (.inr ⟨List.cons_ne_nil _ _, numeric, rfl⟩)
        · exact .inl rfl

/-- Values of one array have an element type that they share; it is the same once they
are stored in the array. -/
theorem common?_stored (types : List Ty) :
    common? (types.map ((common? types).getD mixed).stored) = common? types := by
  have unchanged {element : Ty} (same : ∀ t ∈ types, element.stored t = t) :
      types.map element.stored = types := by
    rw [List.map_congr_left same, List.map_id']
  rcases common?_cases types with isNone | ⟨type, isSome, same⟩ | ⟨nonempty, numeric, isWidest⟩
  · rw [isNone, Option.getD_none, unchanged fun t _ => stored_mixed t, isNone]
  · have stays : ∀ t ∈ types, type.stored t = t := fun t member =>
      stored_of_not_convertsFrom (by simp [convertsFrom_of_equals (same t member)])
    rw [isSome, Option.getD_some, unchanged stays, isSome]
  · rw [widestNumeric?_of_isNumeric nonempty numeric] at isWidest
    rw [isWidest]
    split
    · next =>
        apply common?_of_floats (by simpa using nonempty)
        intro t member
        rcases List.mem_map.mp member with ⟨source, inside, rfl⟩
        exact stored_float_of_isNumeric (List.all_eq_true.mp numeric source inside)
    · next noFloat =>
        rw [if_neg noFloat] at isWidest
        rw [Option.getD_some, unchanged fun t _ => stored_int t, isWidest]

/-- What is converted on its way into an array literal can be cast. -/
theorem castableTo_common {types : List Ty} {t : Ty} (member : t ∈ types)
    (converts : ((common? types).getD mixed).convertsFrom t) :
    t.castableTo ((common? types).getD mixed) := by
  rcases common?_cases types with isNone | ⟨type, isSome, same⟩ | ⟨nonempty, numeric, isWidest⟩
  · rw [isNone, Option.getD_none, convertsFrom_mixed] at converts
    cases converts
  · rw [isSome, Option.getD_some, convertsFrom_of_equals (same t member)] at converts
    cases converts
  · rw [isWidest, widestNumeric?_of_isNumeric nonempty numeric, Option.getD_some] at converts ⊢
    split at converts
    · next float =>
        rw [if_pos float]
        cases t with
        | basic type => cases type <;> first | rfl | cases converts
        | _ => cases converts
    · cases t <;> cases converts

end Formulae.Ty
