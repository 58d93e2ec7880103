import Formulae.Proofs.Ty.Conversions

/-!
# Acceptance as an order

Types are ordered by what places of them accept (`Ty.accepts_preorder`).  A place accepts values of
its own type exactly if void stands nowhere in it (`Ty.accepts_iff_of_equals`), and chains of places
compose as long as no recorded lengths meet at their ends.
-/

namespace Formulae.Ty

/-! ## Recorded lengths -/

mutual

/-- An array type in the type, where a place would have to compare it, records a length. -/
def recordsLength : Ty → Bool
  | .array element length _ => length.isSome || element.recordsLength
  | .function params _ ret _ _ => recordsLengthAny params || ret.recordsLength
  | .basic _ _ | .null _ | .enumeration _ _ | .typeLiteral _ _ => false

/-- An array type in the types records a length. -/
def recordsLengthAny : List Ty → Bool
  | [] => false
  | type :: rest => type.recordsLength || recordsLengthAny rest

end

theorem lengthsAgree_of_not_recorded {m n : Option Nat} (unrecorded : m = none ∨ n = none) :
    lengthsAgree m n := by
  rcases unrecorded with rfl | rfl
  · rfl
  · cases m <;> rfl

/-! ## Direction -/

mutual

/-- To fit backward is to fit forward the other way round. -/
theorem fits_not (forward : Bool) : ∀ a b : Ty, fits (!forward) a b = fits forward b a
  | .array a m _, b => by
      cases b with
      | array b n _ => rw [fits, fits, lengthsAgree_comm, fits_not forward a b]
      | _ => cases forward <;> rfl
  | .function ps _ r _ _, b => by
      cases b with
      | function qs _ s _ _ =>
          rw [fits, fits, fits_not forward r s, fitsAll_not (!forward) ps qs]
      | _ => cases forward <;> rfl
  | .basic _ _, b | .null _, b | .enumeration _ _, b | .typeLiteral _ _, b => by
      cases b <;> cases forward <;> rfl

theorem fitsAll_not (forward : Bool) : ∀ as bs : List Ty,
    fitsAll (!forward) as bs = fitsAll forward bs as
  | [], [] | [], _ :: _ | _ :: _, [] => rfl
  | a :: as, b :: bs => by rw [fitsAll, fitsAll, fits_not forward a b, fitsAll_not forward as bs]

end

/-! ## What arrays and functions fit -/

section Shapes

variable {target source element ret : Ty} {length : Option Nat} {params : List Ty}
  {variadic : Option Ty} {resolver : Option Resolver} {isFinal : Bool}

theorem array_accepts_iff : (array element length isFinal).accepts source ↔
    ∃ other n f, source = array other n f ∧ lengthsAgree length n ∧ element.accepts other := by
  constructor
  · intro accepts
    cases source with
    | array other n f => exact ⟨other, n, f, rfl, by simpa [Ty.accepts, fits] using accepts⟩
    | basic type => cases type <;> cases accepts
    | _ => cases accepts
  · rintro ⟨other, n, f, rfl, lengths, elements⟩
    rw [accepts, fits, lengths]
    exact elements

theorem accepts_array_iff : target.accepts (array element length isFinal) ↔
    target.isMixed ∨
      ∃ other n f, target = array other n f ∧ lengthsAgree n length ∧ other.accepts element := by
  constructor
  · intro accepts
    cases target with
    | array other n f =>
        exact .inr ⟨other, n, f, rfl, by simpa [Ty.accepts, fits] using accepts⟩
    | basic type => cases type <;> first | exact .inl rfl | cases accepts
    | _ => cases accepts
  · rintro (isMixed | ⟨other, n, f, rfl, lengths, elements⟩)
    · cases target with
      | basic type => cases type <;> first | rfl | cases isMixed
      | _ => cases isMixed
    · rw [accepts, fits, lengths]
      exact elements

theorem function_accepts_iff :
    (function params variadic ret resolver isFinal).accepts source ↔
      ∃ others v other c f, source = function others v other c f ∧
        fitsAll true others params ∧ ret.accepts other := by
  constructor
  · intro accepts
    cases source with
    | function others v other c f =>
        rw [Ty.accepts, fits, Bool.and_eq_true, fitsAll_not true params others] at accepts
        exact ⟨others, v, other, c, f, rfl, accepts⟩
    | basic type => cases type <;> cases accepts
    | _ => cases accepts
  · rintro ⟨others, v, other, c, f, rfl, paramsFit, retFits⟩
    rw [accepts, fits, fitsAll_not true params others, paramsFit]
    exact retFits

theorem accepts_function_iff :
    target.accepts (function params variadic ret resolver isFinal) ↔
      target.isMixed ∨ ∃ others v other c f, target = function others v other c f ∧
        fitsAll true params others ∧ other.accepts ret := by
  constructor
  · intro accepts
    cases target with
    | function others v other c f =>
        rw [Ty.accepts, fits, Bool.and_eq_true, fitsAll_not true others params] at accepts
        exact .inr ⟨others, v, other, c, f, rfl, accepts⟩
    | basic type => cases type <;> first | exact .inl rfl | cases accepts
    | _ => cases accepts
  · rintro (isMixed | ⟨others, v, other, c, f, rfl, paramsFit, retFits⟩)
    · cases target with
      | basic type => cases type <;> first | rfl | cases isMixed
      | _ => cases isMixed
    · rw [accepts, fits, fitsAll_not true others params, paramsFit]
      exact retFits

theorem accepts_of_isMixed (isMixed : target.isMixed) (noVoid : source.isVoid = false) :
    target.accepts source := by
  cases target with
  | basic type =>
      cases type with
      | mixed =>
          cases source with
          | basic type => cases type <;> first | rfl | cases noVoid
          | _ => rfl
      | _ => cases isMixed
  | _ => cases isMixed

theorem not_isVoid_of_accepts (accepts : target.accepts source) : source.isVoid = false := by
  cases source with
  | basic type =>
      cases type with
      | void =>
          cases target with
          | basic type => cases type <;> cases accepts
          | _ => cases accepts
      | _ => rfl
  | _ => rfl

end Shapes

/-! ## Chains -/

section Plain

variable {a b c : Ty}

theorem acceptsPlain_iff : a.acceptsPlain b ↔ a.isVoid = false ∧ b.isVoid = false ∧
    (a.isMixed ∨ a.isFloat ∧ b.isInt ∨ a.equals b) := by
  simp [acceptsPlain_eq, or_assoc, and_assoc]

theorem equals_trans (ab : a.equals b) (bc : b.equals c) : a.equals c :=
  agree_trans false ab bc

/-- Equal types are of the same kind. -/
theorem kinds_of_equals (ab : a.equals b) :
    a.isVoid = b.isVoid ∧ a.isMixed = b.isMixed ∧ a.isFloat = b.isFloat ∧ a.isInt = b.isInt := by
  cases a with
  | basic type f =>
      cases b with
      | basic other g =>
          obtain rfl : type = other := by simpa [equals, agree] using ab
          cases type <;> exact ⟨rfl, rfl, rfl, rfl⟩
      | _ => cases ab
  | _ =>
      cases b with
      | basic => cases ab
      | _ => exact ⟨rfl, rfl, rfl, rfl⟩

theorem not_isMixed_of_isInt (isInt : a.isInt) : a.isMixed = false ∧ a.isFloat = false := by
  cases a with
  | basic type => cases type <;> first | exact ⟨rfl, rfl⟩ | cases isInt
  | _ => cases isInt

theorem acceptsPlain_trans (ab : a.acceptsPlain b) (bc : b.acceptsPlain c) :
    a.acceptsPlain c := by
  rw [acceptsPlain_iff] at ab bc ⊢
  obtain ⟨noVoid, -, isMixed | ⟨isFloat, isInt⟩ | ab⟩ := ab
  · exact ⟨noVoid, bc.2.1, .inl isMixed⟩
  · obtain ⟨-, noVoid', bc⟩ := bc
    rw [(not_isMixed_of_isInt isInt).1, (not_isMixed_of_isInt isInt).2] at bc
    have same : b.equals c := by simpa using bc
    exact ⟨noVoid, noVoid', .inr (.inl ⟨isFloat, (kinds_of_equals same).2.2.2 ▸ isInt⟩)⟩
  · obtain ⟨-, mixed, float, -⟩ := kinds_of_equals ab
    rw [mixed, float]
    exact ⟨noVoid, bc.2.1, bc.2.2.imp id (Or.imp id (equals_trans ab))⟩

/-- Arrays and functions, which are compared part by part. -/
def isCompound : Ty → Bool
  | .array _ _ _ | .function _ _ _ _ _ => true
  | _ => false

theorem accepts_eq_acceptsPlain (plain : a.isCompound = false ∨ b.isCompound = false) :
    a.accepts b = a.acceptsPlain b := by
  cases a <;> cases b <;> first | rfl | simp [isCompound] at plain

theorem not_isCompound_of_acceptsPlain (accepts : a.acceptsPlain b)
    (plain : b.isCompound = false) : a.isCompound = false := by
  cases a <;> cases b <;> first | rfl | cases plain
  all_goals simp [acceptsPlain_iff, isMixed, isFloat, equals, agree] at accepts

theorem accepts_trans_plain (plain : b.isCompound = false) (ab : a.accepts b)
    (bc : b.accepts c) : a.accepts c := by
  rw [accepts_eq_acceptsPlain (.inr plain)] at ab
  rw [accepts_eq_acceptsPlain (.inl plain)] at bc
  rw [accepts_eq_acceptsPlain (.inl (not_isCompound_of_acceptsPlain ab plain))]
  exact acceptsPlain_trans ab bc

end Plain

mutual

/-- What fits a place fits every place that takes all of its values, unless recorded
lengths on both sides meet over an array type without one. -/
theorem accepts_trans : ∀ {a b c : Ty}, a.accepts b → b.accepts c →
    a.recordsLength = false ∨ c.recordsLength = false → a.accepts c
  | a, .array b n _, c, first, second, unrecorded => by
      rcases array_accepts_iff.mp second with ⟨c, k, _, rfl, -, inner⟩
      rcases accepts_array_iff.mp first with isMixed | ⟨a, m, _, rfl, -, outer⟩
      · exact accepts_of_isMixed isMixed rfl
      · simp only [recordsLength, Bool.or_eq_false_iff, Option.isSome_eq_false_iff,
          Option.isNone_iff_eq_none] at unrecorded
        rw [array_accepts_iff]
        exact ⟨c, k, _, rfl, lengthsAgree_of_not_recorded (unrecorded.imp And.left And.left),
          accepts_trans outer inner (unrecorded.imp And.right And.right)⟩
  | a, .function ps _ r _ _, c, first, second, unrecorded => by
      rcases function_accepts_iff.mp second with ⟨qs, _, s, _, _, rfl, innerParams, innerRet⟩
      rcases accepts_function_iff.mp first with
        isMixed | ⟨os, _, o, _, _, rfl, outerParams, outerRet⟩
      · exact accepts_of_isMixed isMixed rfl
      · simp only [recordsLength, Bool.or_eq_false_iff] at unrecorded
        rw [function_accepts_iff]
        exact ⟨qs, _, s, _, _, rfl,
          acceptsAll_trans innerParams outerParams (unrecorded.symm.imp And.left And.left),
          accepts_trans outerRet innerRet (unrecorded.imp And.right And.right)⟩
  | _, .basic _ _, _, first, second, _ | _, .null _, _, first, second, _
  | _, .enumeration _ _, _, first, second, _ | _, .typeLiteral _ _, _, first, second, _ =>
      accepts_trans_plain rfl first second

theorem acceptsAll_trans : ∀ {as bs cs : List Ty}, fitsAll true as bs → fitsAll true bs cs →
    recordsLengthAny as = false ∨ recordsLengthAny cs = false → fitsAll true as cs
  | [], [], [], _, _, _ => rfl
  | a :: as, b :: bs, c :: cs, first, second, unrecorded => by
      simp only [recordsLengthAny, Bool.or_eq_false_iff] at unrecorded
      rw [fitsAll, Bool.and_eq_true] at first second ⊢
      exact ⟨accepts_trans first.1 second.1 (unrecorded.imp And.left And.left),
        acceptsAll_trans first.2 second.2 (unrecorded.imp And.right And.right)⟩

end

/-! ## Void -/

mutual

/-- The type of no value stands somewhere in the type, where a place would have to take
it. -/
def mentionsVoid : Ty → Bool
  | .basic type _ => type = .void
  | .array element _ _ => element.mentionsVoid
  | .function params _ ret _ _ => mentionsVoidAny params || ret.mentionsVoid
  | .null _ | .enumeration _ _ | .typeLiteral _ _ => false

/-- The type of no value stands somewhere in the types. -/
def mentionsVoidAny : List Ty → Bool
  | [] => false
  | type :: rest => type.mentionsVoid || mentionsVoidAny rest

end

/-! ## Equal types -/

section Plain

variable {a b : Ty}

theorem acceptsPlain_iff_of_equals (same : a.equals b) :
    a.acceptsPlain b ↔ a.isVoid = false := by
  rw [acceptsPlain_iff, ← (kinds_of_equals same).1]
  exact ⟨And.left, fun noVoid => ⟨noVoid, noVoid, .inr (.inr same)⟩⟩

theorem mentionsVoid_eq_isVoid (plain : a.isCompound = false) : a.mentionsVoid = a.isVoid := by
  cases a with
  | basic type => cases type <;> rfl
  | array | function => cases plain
  | _ => rfl

theorem fits_iff_of_equals_plain (forward : Bool) (plain : a.isCompound = false)
    (same : a.equals b) : fits forward a b ↔ a.mentionsVoid = false := by
  rw [mentionsVoid_eq_isVoid plain]
  cases forward with
  | true =>
      rw [← acceptsPlain_iff_of_equals same, ← accepts_eq_acceptsPlain (.inl plain)]
      rfl
  | false =>
      have back : b.equals a := by
        rw [equals, agree_comm]
        exact same
      rw [(kinds_of_equals same).1, ← acceptsPlain_iff_of_equals back,
        ← accepts_eq_acceptsPlain (.inr plain)]
      exact Bool.eq_iff_iff.mp (fits_not true a b)

end Plain

mutual

/-- Equal types fit each other, in both directions, exactly if void stands nowhere in them. -/
theorem fits_iff_of_equals (forward : Bool) : ∀ {a b : Ty}, a.equals b →
    (fits forward a b ↔ a.mentionsVoid = false)
  | .array a m _, .array b n _, same => by
      simp only [equals, agree, Bool.and_eq_true, decide_eq_true_eq] at same
      obtain ⟨⟨rfl, elements⟩, -⟩ := same
      have lengths : lengthsAgree m m := by cases m <;> simp [lengthsAgree]
      rw [fits, lengths, Bool.true_and, mentionsVoid]
      exact fits_iff_of_equals forward elements
  | .function ps _ r _ _, .function qs _ s _ _, same => by
      simp only [equals, agree, Bool.and_eq_true] at same
      rw [fits, mentionsVoid, Bool.and_eq_true, Bool.or_eq_false_iff,
        fitsAll_iff_of_equals (!forward) same.1.1.1.1, fits_iff_of_equals forward same.1.1.2]
  | .basic _ _, _, same | .null _, _, same | .enumeration _ _, _, same
  | .typeLiteral _ _, _, same => fits_iff_of_equals_plain forward rfl same

theorem fitsAll_iff_of_equals (forward : Bool) : ∀ {as bs : List Ty}, agreeAll false as bs →
    (fitsAll forward as bs ↔ mentionsVoidAny as = false)
  | [], [], _ => by simp [fitsAll, mentionsVoidAny]
  | a :: as, b :: bs, same => by
      rw [agreeAll, Bool.and_eq_true] at same
      rw [fitsAll, mentionsVoidAny, Bool.and_eq_true, Bool.or_eq_false_iff,
        fits_iff_of_equals forward same.1, fitsAll_iff_of_equals forward same.2]

end

/-- A place accepts values of a type that means the same as its own, exactly if void stands
nowhere in it. -/
theorem accepts_iff_of_equals {a b : Ty} (same : a.equals b) :
    a.accepts b ↔ a.mentionsVoid = false :=
  fits_iff_of_equals true same

/-- Places accept values of their own type, unless that speaks of no value. -/
theorem accepts_self {type : Ty} (h : type.mentionsVoid = false) : type.accepts type :=
  (accepts_iff_of_equals (equals_refl type)).mpr h

/-! ## The order -/

/-- Acceptance is reflexive where void stands nowhere, transitive where no recorded lengths meet at
the ends of a chain, and whatever is accepted can be cast. -/
theorem accepts_preorder (a b c : Ty) :
    (a.accepts a ↔ a.mentionsVoid = false) ∧
      (a.recordsLength = false ∨ c.recordsLength = false →
        a.accepts b → b.accepts c → a.accepts c) ∧
      (a.accepts b → b.castableTo a) :=
  ⟨accepts_iff_of_equals (equals_refl a),
    fun unrecorded first second => accepts_trans first second unrecorded, castableTo_of_accepts⟩

/-- Functions that take numbers, and give any value. -/
def takesInt : Ty :=
  .function [int] none mixed none true

/-- Functions that take numbers, and give numbers. -/
def takesFloat : Ty :=
  .function [float] none float none true

/-- Functions that take any value, and give integers. -/
def takesMixed : Ty :=
  .function [mixed] none int none true

/-- Arrays of functions are accepted as the functions are, the parameters the other way round. -/
theorem accepts_arrayOf_takesMixed :
    (arrayOf takesInt none).mentionsVoid = false ∧
      (arrayOf takesInt none).accepts (arrayOf takesInt none) ∧
      (arrayOf takesInt none).recordsLength = false ∧
      (arrayOf takesInt none).accepts (arrayOf takesFloat none) ∧
      (arrayOf takesFloat none).accepts (arrayOf takesMixed (some 2)) ∧
      (arrayOf takesInt none).accepts (arrayOf takesMixed (some 2)) ∧
      (arrayOf takesMixed (some 2)).castableTo (arrayOf takesInt none) := by
  have noVoid : (arrayOf takesInt none).mentionsVoid = false := rfl
  have unrecorded : (arrayOf takesInt none).recordsLength = false := rfl
  have first : (arrayOf takesInt none).accepts (arrayOf takesFloat none) := rfl
  have second : (arrayOf takesFloat none).accepts (arrayOf takesMixed (some 2)) := rfl
  have order := accepts_preorder (arrayOf takesInt none) (arrayOf takesFloat none)
    (arrayOf takesMixed (some 2))
  have chain := order.2.1 (.inl unrecorded) first second
  exact ⟨noVoid, order.1.mpr noVoid, unrecorded, first, second, chain,
    (accepts_preorder _ (arrayOf takesMixed (some 2)) Ty.mixed).2.2 chain⟩

/-- Where two lengths are recorded, a place between them that records none does not compare them. -/
example : (arrayOf int (some 1)).accepts (arrayOf int none) ∧
    (arrayOf int none).accepts (arrayOf int (some 2)) ∧
    ¬ (arrayOf int (some 1)).accepts (arrayOf int (some 2)) := by
  decide

end Formulae.Ty
