import Formulae.Proofs.Value.Ends
import Formulae.Proofs.Value.Exact

/-!
# Casts between types

Where there is a cast from one type to another, values of exactly the first become values of
exactly the second or fail at a leaf that does not convert (`Value.Refuses`).  To a type that
accepts the first nothing fails, and if it does not convert from it either, nothing changes,
so that the cast can be left out (`Value.cast_agrees`).
-/

namespace Formulae

namespace Value

variable {source target : Ty} {v w : Value} {fault : EvalFault}

/-- A leaf of the value is the reason for a fault of the cast from one type to another: a float
without an integer part that fits, a text that is no date or no duration, or a value of which
nothing is known. -/
inductive Refuses : Ty → Ty → Value → EvalFault → Prop
  | float {f g : Bool} {x : Float} (unfit : Number.truncate? x = none) :
      Refuses (.basic .float f) (.basic .int g) (.float x)
        (.invalidCast (.float x) (.basic .int g))
  | date {f g : Bool} {text : String} (unread : Date.parse? text.toList = none) :
      Refuses (.basic .string f) (.basic .date g) (.string text)
        (.invalidCast (.string text) (.basic .date g))
  | duration {f g : Bool} {text : String} (unread : Duration.parse? text.toList = none) :
      Refuses (.basic .string f) (.basic .duration g) (.string text)
        (.invalidCast (.string text) (.basic .duration g))
  | mixed {f : Bool} {target : Ty} {v : Value} {fault : EvalFault}
      (fails : cast target v = .error fault) : Refuses (.basic .mixed f) target v fault
  | element {a b : Ty} {m n : Option Nat} {f g : Bool} {items : List Value} {item : Value}
      {fault : EvalFault} (member : item ∈ items) (refuses : Refuses a b item fault) :
      Refuses (.array a m f) (.array b n g) (.array items) fault

/-! ## Results -/

theorem cast_array (element : Ty) (length : Option Nat) (f : Bool) (items : List Value) :
    cast (.array element length f) (.array items) = (items.mapM (cast element)).map .array := by
  rw [cast]

theorem cast_of_not_array (notArray : v.asArray? = none) :
    cast target v = converted v target (plainCast? target v) := by
  cases v <;> first | (cases target <;> rfl) | cases notArray

theorem cast_basic (type : BasicType) (f : Bool) (v : Value) :
    cast (.basic type f) v = converted v (.basic type f) (plainCast? (.basic type f) v) := by
  cases v <;> rfl

theorem text_of_cast {f : Bool} (v : Value) :
    ∃ text, cast (.basic .string f) v = .ok (.string text) := by
  cases v <;> exact ⟨_, rfl⟩

theorem plainCast_has (noVoid : v.hasNoVoid) (given : plainCast? target v = some w) :
    target.plain.has w := by
  cases target with
  | basic type =>
      cases type with
      | mixed =>
          cases given
          exact noVoid
      | _ =>
          cases v <;> first
            | (cases given <;> rfl)
            | (rcases Option.map_eq_some_iff.mp given with ⟨_, _, rfl⟩; rfl)
  | enumeration name =>
      cases v with
      | enumeration type variant =>
          rw [plainCast?] at given
          split at given
          · next same =>
              cases given
              exact decide_eq_true same
          · cases given
      | _ => cases given
  | _ => cases v <;> cases given <;> rfl

/-- A cast gives a value of exactly its type but for recorded lengths, or there is no cast. -/
theorem cast_has : ∀ (target : Ty) {v : Value}, v.hasNoVoid →
    Ends (fun r => target.plain.has r)
      (fun fault => ∃ part type, fault = .invalidCast part type) (cast target v)
  | target, v, noVoid => by
      unfold cast
      split
      · next element _ _ items =>
          have each : ∀ item ∈ items, _ := fun item member =>
            cast_has element (hasNoVoid_array.mp noVoid item member)
          exact (ends_mapM each).map fun _ eachHas => Ty.has_array_iff.mpr ⟨nofun, eachHas⟩
      · unfold converted
        split
        · next given => exact ends_ok (plainCast_has noVoid given)
        · exact ends_error ⟨_, _, rfl⟩

end Value

theorem Ty.eq_basic_of_isFloat {a : Ty} (isFloat : a.isFloat) : ∃ f, a = .basic .float f := by
  cases a with
  | basic type f => cases type <;> first | exact ⟨f, rfl⟩ | cases isFloat
  | _ => cases isFloat

theorem Ty.eq_basic_of_isInt {a : Ty} (isInt : a.isInt) : ∃ f, a = .basic .int f := by
  cases a with
  | basic type f => cases type <;> first | exact ⟨f, rfl⟩ | cases isInt
  | _ => cases isInt

namespace Value

/-! ## Casts to types that accept the value -/

/-- A cast to the type that a value has anyway changes nothing. -/
theorem cast_of_has (notVoid : target.isVoid = false) (notArray : target.isArray = false)
    (written : target.toExpr?.isSome) (h : target.has v) : cast target v = .ok v := by
  cases target with
  | basic type =>
      cases type with
      | mixed => exact cast_basic .mixed _ v
      | void => cases notVoid
      | _ => cases v <;> first | rfl | cases h
  | array => cases notArray
  | function => cases v <;> first | rfl | cases h
  | null | typeLiteral => cases written
  | enumeration name f =>
      cases v with
      | enumeration type variant =>
          have same : type = name := of_decide_eq_true h
          rw [cast_of_not_array rfl, plainCast?, if_pos same]
          rfl
      | _ => cases h

theorem cast_of_acceptsPlain (accepts : target.acceptsPlain source)
    (notArrays : target.isArray = false ∨ source.isArray = false) (written : target.toExpr?.isSome)
    (h : source.has v) :
    ∃ w, cast target v = .ok w ∧ (target.convertsFrom source = false → w = v) := by
  rw [Ty.acceptsPlain_eq] at accepts
  simp only [Bool.and_eq_true, Bool.or_eq_true, Bool.not_eq_true'] at accepts
  rcases accepts with ⟨⟨notVoid, -⟩, (isMixed | ⟨isFloat, isInt⟩) | same⟩
  · cases target with
    | basic type =>
        cases type with
        | mixed => exact ⟨v, cast_basic .mixed _ v, fun _ => rfl⟩
        | _ => cases isMixed
    | _ => cases isMixed
  · rcases Ty.eq_basic_of_isFloat isFloat with ⟨f, rfl⟩
    rcases Ty.eq_basic_of_isInt isInt with ⟨g, rfl⟩
    rcases Ty.int_of_admits (Ty.admits_of_has h) with ⟨n, rfl⟩
    exact ⟨.float (Number.toFloat n), rfl, nofun⟩
  · have notArray : target.isArray = false := by
      rcases notArrays with notArray | notArray
      · exact notArray
      · cases target with
        | array => cases source <;> first | cases same | cases notArray
        | _ => rfl
    exact ⟨v, cast_of_has notVoid notArray written (Ty.has_of_equals same ▸ h), fun _ => rfl⟩

/-- A cast to a type that accepts the value does not fail, and unless the type converts the
value it changes nothing. -/
theorem cast_of_accepts : ∀ {target source : Ty} {v : Value}, target.accepts source →
    target.toExpr?.isSome → source.has v →
      ∃ w, cast target v = .ok w ∧ (target.convertsFrom source = false → w = v)
  | .array b _ _, source, v, accepts, written, h => by
      cases source with
      | array a =>
          rw [Ty.accepts, Ty.fits, Bool.and_eq_true] at accepts
          rw [Ty.toExpr?, Option.isSome_map] at written
          rcases Ty.array_of_has h with ⟨items, rfl, -, each⟩
          have eachCast : ∀ item ∈ items, _ := fun item member =>
            cast_of_accepts accepts.2 written (each item member)
          rcases mapM_ok_of_each eachCast with ⟨ws, given, same⟩
          refine ⟨.array ws, ?_, fun unconverted => congrArg array (same unconverted)⟩
          rw [cast_array, given]
          rfl
      | _ =>
          exact cast_of_acceptsPlain (by simpa [Ty.accepts, Ty.fits] using accepts) (.inr rfl)
            written h
  | .function _ _ _ _ _, source, v, accepts, written, h => by
      cases source with
      | function => cases v <;> first | exact ⟨_, rfl, fun _ => rfl⟩ | cases h
      | _ =>
          exact cast_of_acceptsPlain (by simpa [Ty.accepts, Ty.fits] using accepts) (.inl rfl)
            written h
  | .basic _ _, source, _, accepts, written, h | .null _, source, _, accepts, written, h
  | .enumeration _ _, source, _, accepts, written, h
  | .typeLiteral _ _, source, _, accepts, written, h => by
      cases source <;>
        exact cast_of_acceptsPlain (by simpa [Ty.accepts, Ty.fits] using accepts) (.inl rfl)
          written h

end Value

/-! ## Casts that may fail -/

/-- Why there is a cast between types of which at least one is no array. -/
inductive Ty.CastRule : Ty → Ty → Prop
  | truth (source : Ty) (f : Bool) : CastRule source (.basic .boolean f)
  | text (source : Ty) (f : Bool) : CastRule source (.basic .string f)
  | forget (source : Ty) (f : Bool) : CastRule source (.basic .mixed f)
  | unknown (f : Bool) (target : Ty) : CastRule (.basic .mixed f) target
  | truncate (f g : Bool) : CastRule (.basic .float f) (.basic .int g)
  | bit (f g : Bool) : CastRule (.basic .boolean f) (.basic .int g)
  | date (f g : Bool) : CastRule (.basic .string f) (.basic .date g)
  | duration (f g : Bool) : CastRule (.basic .string f) (.basic .duration g)
  | accepted {source target : Ty} (accepts : target.accepts source) : CastRule source target

theorem Ty.castRule_of_castablePlain {source target : Ty} (castable : source.castablePlain target) :
    CastRule source target := by
  unfold castablePlain at castable
  split at castable <;> first
    | exact .accepted castable
    | (cases castable; done)
    | constructor

namespace Value

theorem not_error_of_accepts (accepts : target.accepts source) (written : target.toExpr?.isSome)
    (h : source.has v) : cast target v ≠ .error fault := by
  rcases cast_of_accepts accepts written h with ⟨w, given, -⟩
  rw [given]
  exact nofun

theorem refuses_of_castRule (rule : Ty.CastRule source target) (written : target.toExpr?.isSome)
    (h : source.has v) (fails : cast target v = .error fault) : Refuses source target v fault := by
  cases rule with
  | truth _ f | forget _ f =>
      rw [cast_basic] at fails
      cases fails
  | text =>
      rcases text_of_cast v with ⟨text, given⟩
      rw [given] at fails
      cases fails
  | unknown => exact .mixed fails
  | truncate =>
      rcases Ty.float_of_has h with ⟨x, rfl⟩
      rw [cast_basic, plainCast?] at fails
      cases fits : Number.truncate? x with
      | some n => rw [fits] at fails; cases fails
      | none =>
          rw [fits] at fails
          cases fails
          exact .float fits
  | bit =>
      rcases Ty.boolean_of_admits (Ty.admits_of_has h) with ⟨b, rfl⟩
      cases fails
  | date =>
      rcases Ty.string_of_admits (Ty.admits_of_has h) with ⟨text, rfl⟩
      rw [cast_basic, plainCast?] at fails
      cases read : Date.parse? text.toList with
      | some d => rw [read] at fails; cases fails
      | none =>
          rw [read] at fails
          cases fails
          exact .date read
  | duration =>
      rcases Ty.string_of_admits (Ty.admits_of_has h) with ⟨text, rfl⟩
      rw [cast_basic, plainCast?] at fails
      cases read : Duration.parse? text.toList with
      | some d => rw [read] at fails; cases fails
      | none =>
          rw [read] at fails
          cases fails
          exact .duration read
  | accepted accepts => exact absurd fails (not_error_of_accepts accepts written h)

/-- A cast that the types allow fails at a leaf. -/
theorem refuses_of_cast : ∀ {source target : Ty} {v : Value} {fault : EvalFault},
    source.castableTo target → target.toExpr?.isSome → source.has v →
      cast target v = .error fault → Refuses source target v fault
  | .array a _ _, target, v, fault, castable, written, h, fails => by
      cases target with
      | array b =>
          rw [Ty.castableTo, Bool.and_eq_true] at castable
          rw [Ty.toExpr?, Option.isSome_map] at written
          rcases Ty.array_of_has h with ⟨items, rfl, -, each⟩
          rw [cast_array] at fails
          cases given : items.mapM (cast b) with
          | ok ws => rw [given] at fails; cases fails
          | error fault' =>
              rw [given] at fails
              cases fails
              rcases exists_of_mapM_error given with ⟨item, member, fails⟩
              exact .element member
                (refuses_of_cast castable.2 written (each item member) fails)
      | _ => exact refuses_of_castRule (Ty.castRule_of_castablePlain castable) written h fails
  | .basic _ _, target, _, _, castable, written, h, fails
  | .null _, target, _, _, castable, written, h, fails
  | .function _ _ _ _ _, target, _, _, castable, written, h, fails
  | .enumeration _ _, target, _, _, castable, written, h, fails
  | .typeLiteral _ _, target, _, _, castable, written, h, fails => by
      cases target <;>
        exact refuses_of_castRule (Ty.castRule_of_castablePlain castable) written h fails

/-- Casts go by the relations between types.  Where the types allow a cast, it gives a value of
exactly the second type but for recorded lengths, or it fails because of a leaf that does not
convert.  Where the second type accepts the first, it does not fail, and unless that converts
the value it does nothing and may be left out. -/
theorem cast_agrees (noVoid : source.leaf.isVoid = false) (written : target.toExpr?.isSome)
    (castable : source.castableTo target) (h : source.has v) :
    Ends (fun w => target.plain.has w)
        (fun fault => (∃ part type, fault = .invalidCast part type) ∧
          Refuses source target v fault) (cast target v) ∧
      (target.accepts source →
        ∃ w, cast target v = .ok w ∧ (target.convertsFrom source = false → w = v)) := by
  refine ⟨?_, fun accepts => cast_of_accepts accepts written h⟩
  have ends := cast_has target (Ty.hasNoVoid_of_has noVoid h)
  cases given : cast target v with
  | ok w => exact ends_ok (ends.of_ok given)
  | error fault =>
      exact ends_error ⟨ends.of_error given, refuses_of_cast castable written h given⟩

/-- A text in an array is read as a duration. -/
theorem cast_agrees_reading :
    cast (Ty.arrayOf Ty.duration none) (.array [.string "P1M"]) =
        .ok (.array [.duration ⟨1, 0⟩]) ∧
      Ends (fun w => (Ty.arrayOf Ty.duration none).plain.has w)
        (fun fault => (∃ part type, fault = .invalidCast part type) ∧
          Refuses (Ty.arrayOf Ty.string (some 1)) (Ty.arrayOf Ty.duration none)
            (.array [.string "P1M"]) fault)
        (cast (Ty.arrayOf Ty.duration none) (.array [.string "P1M"])) :=
  ⟨rfl, (cast_agrees rfl rfl rfl rfl).1⟩

end Value

end Formulae
