import Formulae.Proofs.Value.Operators

/-!
# Functions that keep to their signatures

A function keeps to its signature if what it gives is of the type that the signature says
(`Signature.Kept`).  The built-in functions do, and they fail for ordinary reasons only
(`Builtin.call_typed`).
-/

namespace Formulae

/-- The value is one that an expression of the type may have: one of the type, and a concrete
one unless the type is that of nothing. -/
def Ty.Gives (type : Ty) (v : Value) : Prop :=
  type.admits v ∧ (type.isVoid = false → v.Concrete)

/-- The function does what its signature says.  If it is given concrete arguments of some
types, as many as it takes and such as its parameters have, then what it gives is of the type
that the signature gives the call. -/
def Signature.Kept {ε : Type} (signature : Signature) (call : List Value → Except ε Value) : Prop :=
  ∀ types args result v, signature.acceptsArity args.length → Ty.admitsAll types args →
    (∀ position arg, args[position]? = some arg →
      ∃ param, signature.param? position = some param ∧ param.admits arg) →
    (∀ arg ∈ args, arg.Concrete) → signature.result? types = some result → call args = .ok v →
    result.Gives v

namespace Ty

variable {type : Ty} {types : List Ty} {v : Value} {args : List Value}

theorem exists_of_admitsAll (typed : admitsAll types args) {arg : Value} (member : arg ∈ args) :
    ∃ type ∈ types, type.admits arg := by
  induction args generalizing types with
  | nil => cases member
  | cons first rest inductionHypothesis =>
      cases types with
      | nil => cases typed
      | cons type types =>
          rw [admitsAll, Bool.and_eq_true] at typed
          rcases List.mem_cons.mp member with rfl | later
          · exact ⟨type, List.mem_cons_self, typed.1⟩
          · rcases inductionHypothesis typed.2 later with ⟨other, inside, h⟩
            exact ⟨other, List.mem_cons_of_mem _ inside, h⟩

theorem length_of_admitsAll (typed : admitsAll types args) : types.length = args.length := by
  induction args generalizing types with
  | nil =>
      cases types with
      | nil => rfl
      | cons => cases typed
  | cons arg rest inductionHypothesis =>
      cases types with
      | nil => cases typed
      | cons type types =>
          rw [admitsAll, Bool.and_eq_true] at typed
          exact congrArg (· + 1) (inductionHypothesis typed.2)

theorem singleton_of_admitsAll (typed : admitsAll [type] args) :
    ∃ arg, args = [arg] ∧ type.admits arg := by
  cases args with
  | nil => cases typed
  | cons arg rest =>
      rw [admitsAll, Bool.and_eq_true] at typed
      cases rest with
      | nil => exact ⟨arg, rfl, typed.1⟩
      | cons => cases typed.2

/-- A type that numbers may have: that of integers only, or one of all numbers. -/
theorem admits_number (isInt : type.isInt → int.admits v)
    (kind : type.isInt ∨ type.isFloat ∨ type.isMixed) (numeric : v.isNumeric) : type.admits v := by
  cases type with
  | basic type f =>
      cases type with
      | int => exact admits_withFinal int f ▸ isInt rfl
      | float => exact admits_withFinal float f ▸ float_admits_of_isNumeric numeric
      | mixed => exact admits_withFinal mixed f ▸ mixed_admits_of_isNumeric numeric
      | _ => rcases kind with h | h | h <;> cases h
  | _ => rcases kind with h | h | h <;> cases h

/-- A type that has one float has all of them. -/
theorem admits_float {x y : Float} (h : type.admits (.float x)) : type.admits (.float y) := by
  cases type with
  | basic type => cases type <;> first | rfl | cases h
  | _ => cases h

theorem widestNumeric?_cases {result : Ty} (widest : widestNumeric? types = some result) :
    (result.isInt ∨ result.isFloat ∨ result.isMixed) ∧
      (result.isInt → ∀ type ∈ types, type.isInt) ∧
      (result.isMixed = false → ∀ type ∈ types, type.isNumeric) := by
  unfold widestNumeric? at widest
  split at widest
  · cases widest
  · next wellFormed =>
      simp only [Bool.or_eq_true, not_or, Bool.not_eq_true, Bool.not_eq_false', List.all_eq_true]
        at wellFormed
      split at widest
      · cases widest
        refine ⟨.inr (.inr rfl), fun isInt => ?_, fun notMixed => ?_⟩
        · cases isInt
        · cases notMixed
      · next noMixed =>
          have numeric (type : Ty) (member : type ∈ types) : type.isNumeric := by
            rcases wellFormed.2 type member with numeric | mixed
            · exact numeric
            · exact absurd (List.any_eq_true.mpr ⟨type, member, mixed⟩) noMixed
          split at widest
          · cases widest
            refine ⟨.inr (.inl rfl), fun isInt => ?_, fun _ => numeric⟩
            cases isInt
          · next noFloat =>
              cases widest
              refine ⟨.inl rfl, fun _ type member => ?_, fun _ => numeric⟩
              rcases isNumeric_cases (numeric type member) with isInt | isFloat
              · exact isInt
              · exact absurd (List.any_eq_true.mpr ⟨type, member, isFloat⟩) noFloat

end Ty

namespace Builtin

open Value

variable {function : Builtin} {types : List Ty} {args : List Value} {result : Ty}

theorem floatArg_typed {arg : Value} (numeric : arg.isNumeric) :
    Ends (fun _ => True) (fun _ => False) (floatArg function arg) := by
  cases arg <;> trivial

theorem extremum_typed (direction : Ordering)
    (isInt : result.isInt → ∀ candidate ∈ candidates args, Ty.int.admits candidate)
    (kind : result.isInt ∨ result.isFloat ∨ result.isMixed) :
    Ends (fun v => result.admits v) (fun fault => fault.isOrdinary)
      (extremum function direction args) := by
  unfold extremum
  split
  · exact ends_error rfl
  · next first rest same =>
      rw [same] at isInt
      split
      · next numeric =>
          have chosen : rest.foldl (further direction) first ∈ first :: rest := further_mem
          have isNumeric := List.all_eq_true.mp numeric _ chosen
          dsimp only
          split
          · next someFloat =>
              apply (floatArg_typed isNumeric).map (fun x _ => ?_) |>.mono (fun _ => id) fun _ => False.elim
              refine Ty.admits_number (fun onlyInts => ?_) kind rfl
              rcases List.any_eq_true.mp someFloat with ⟨candidate, member, isFloat⟩
              rcases Ty.int_of_admits (isInt onlyInts candidate member) with ⟨n, rfl⟩
              cases isFloat
          · exact ends_ok (Ty.admits_number (fun onlyInts => isInt onlyInts _ chosen) kind isNumeric)
      · exact ends_error rfl

/-- The candidates for an extremum are numbers of the type of the result. -/
theorem extremum_resolved (direction : Ordering) (typed : Ty.admitsAll types args)
    (resolved : Resolver.widestOrElement.resolve? types = some result) :
    Ends (fun v => result.admits v) (fun fault => fault.isOrdinary)
      (extremum function direction args) := by
  have ofWidest (widest : Ty.widestNumeric? types = some result) :
      Ends (fun v => result.admits v) (fun fault => fault.isOrdinary)
        (extremum function direction args) := by
    rcases Ty.widestNumeric?_cases widest with ⟨kind, isInt, -⟩
    refine extremum_typed direction (fun onlyInts => ?_) kind
    have ints : ∀ arg ∈ args, Ty.int.admits arg := by
      intro arg member
      rcases Ty.exists_of_admitsAll typed member with ⟨type, inside, h⟩
      exact Ty.int_admits_of_isInt (isInt onlyInts type inside) h
    unfold candidates
    split
    · cases ints _ List.mem_cons_self
    · exact ints
  rw [Resolver.resolve?.eq_def] at resolved
  dsimp only at resolved
  split at resolved
  · next element _ _ =>
      split at resolved
      · next numeric =>
          cases resolved
          rcases Ty.singleton_of_admitsAll typed with ⟨arg, rfl, h⟩
          rcases Ty.array_of_admits h with ⟨items, rfl, each⟩
          apply extremum_typed direction
          · intro onlyInts candidate member
            rw [Ty.isInt_withFinal] at onlyInts
            exact Ty.int_admits_of_isInt onlyInts (each candidate member)
          · rw [Ty.isInt_withFinal, Ty.isFloat_withFinal, Ty.isMixed_withFinal, ← or_assoc]
            exact (Bool.or_eq_true .. ▸ numeric).imp_left Ty.isNumeric_cases
      · exact ofWidest resolved
  · exact ofWidest resolved

theorem absolute_typed (typed : Ty.admitsAll types args)
    (widest : Ty.widestNumeric? types = some result) :
    Ends (fun v => result.admits v) (fun fault => fault.isOrdinary) (absolute args) := by
  rcases Ty.widestNumeric?_cases widest with ⟨kind, isInt, -⟩
  -- Which magnitude is given is no concern here; finding it would count up to its bound.
  obtain ⟨magnitude?, same⟩ : ∃ f, f = Number.abs? := ⟨_, rfl⟩
  unfold absolute
  rw [← same]
  split
  · split
    · exact ends_ok (Ty.admits_number (fun _ => rfl) kind rfl)
    · exact ends_error rfl
  · next x =>
      refine ends_ok (Ty.admits_number (fun onlyInts => ?_) kind rfl)
      rcases Ty.exists_of_admitsAll typed List.mem_cons_self with ⟨type, inside, h⟩
      cases Ty.int_admits_of_isInt (isInt onlyInts type inside) h
  · exact ends_error rfl

/-- The arguments become elements, of the type that they have in common. -/
theorem vector_typed (typed : Ty.admitsAll types args) (concrete : ∀ arg ∈ args, arg.Concrete) :
    (Ty.arrayOf ((Ty.common? types).getD Ty.mixed) (some types.length)).admits (vector args) := by
  have each : ∀ arg ∈ args, ((Ty.common? types).getD Ty.mixed).admits arg := by
    intro arg member
    rcases Ty.exists_of_admitsAll typed member with ⟨type, inside, h⟩
    exact Ty.admits_common inside (concrete arg member).isVoid h
  unfold vector
  split
  · next floats =>
      rw [Bool.and_eq_true] at floats
      rcases List.any_eq_true.mp floats.2 with ⟨float, member, isFloat⟩
      have typedFloat := each float member
      apply Ty.admits_array_of_forall
      intro item inside
      rcases List.mem_filterMap.mp inside with ⟨arg, -, converted⟩
      rcases Option.map_eq_some_iff.mp converted with ⟨x, -, rfl⟩
      cases float with
      | float => exact Ty.admits_float typedFloat
      | _ => cases isFloat
  · exact Ty.admits_array_of_forall each

theorem floatFunction_typed (f : Float → Float) {arg : Value} (typed : Ty.float.admits arg) :
    Ends (fun v => Ty.float.admits v) (fun fault => fault.isOrdinary)
      (floatFunction function f [arg]) := by
  have number : Ends (fun v => Ty.float.admits v) (fun _ => False)
      (floatFunction function f [arg]) :=
    (floatArg_typed (Ty.isNumeric_of_admits rfl typed)).map fun _ _ => rfl
  exact number.mono (fun _ => id) nofun

theorem power_typed {base exponent : Value} (typed : Ty.float.admits base)
    (typed' : Ty.float.admits exponent) :
    Ends (fun v => Ty.float.admits v) (fun fault => fault.isOrdinary) (power [base, exponent]) := by
  have numbers : Ends (fun v => Ty.float.admits v) (fun _ => False) (power [base, exponent]) :=
    (floatArg_typed (Ty.isNumeric_of_admits rfl typed)).bind fun _ _ =>
      (floatArg_typed (Ty.isNumeric_of_admits rfl typed')).bind fun _ _ => ends_ok rfl
  exact numbers.mono (fun _ => id) nofun

theorem size_typed {arg : Value} (typed : (Ty.arrayOf Ty.mixed none).admits arg) :
    Ends (fun v => Ty.int.admits v) (fun fault => fault.isOrdinary) (size [arg]) := by
  rcases Ty.array_of_admits typed with ⟨items, rfl, -⟩
  exact ends_ok rfl

/-- A call as the signature of a built-in function wants it gives a concrete value of the
type that the signature gives, or fails for an ordinary reason. -/
theorem call_typed (function : Builtin) (arity : function.signature.acceptsArity args.length)
    (typed : Ty.admitsAll types args)
    (fits : ∀ position arg, args[position]? = some arg →
      ∃ param, function.signature.param? position = some param ∧ param.admits arg)
    (concrete : ∀ arg ∈ args, arg.Concrete)
    (resolved : function.signature.result? types = some result) :
    Ends (fun v => result.admits v ∧ v.Concrete) (fun fault => fault.isOrdinary)
      (function.call args) := by
  have given : Ends (fun v => result.admits v) (fun fault => fault.isOrdinary)
      (function.call args) := by
    have one {param : Ty} (isOne : function.signature.params = [param])
        (noMore : function.signature.variadic = none) :
        ∃ arg, args = [arg] ∧ param.admits arg := by
      rw [Signature.acceptsArity, noMore, isOne] at arity
      rcases List.length_eq_one_iff.mp (of_decide_eq_true arity) with ⟨arg, rfl⟩
      rcases fits 0 arg rfl with ⟨param', found, h⟩
      rw [Signature.param?, isOne] at found
      cases found
      exact ⟨arg, rfl, h⟩
    cases function with
    | min | max => exact extremum_resolved _ typed resolved
    | abs => exact absolute_typed typed resolved
    | asVector => cases resolved; exact ends_ok (vector_typed typed concrete)
    | sizeof =>
        rcases one rfl rfl with ⟨arg, rfl, h⟩
        cases resolved
        exact size_typed h
    | sqrt | floor | ceil | round | sin | cos | tan =>
        rcases one rfl rfl with ⟨arg, rfl, h⟩
        cases resolved
        exact floatFunction_typed _ h
    | pow =>
        obtain ⟨base, exponent, rfl⟩ : ∃ base exponent, args = [base, exponent] := by
          match args, of_decide_eq_true arity with
          | [base, exponent], _ => exact ⟨base, exponent, rfl⟩
        rcases fits 0 base rfl with ⟨_, ⟨⟩, first⟩
        rcases fits 1 exponent rfl with ⟨_, ⟨⟩, second⟩
        cases resolved
        exact power_typed first second
  have parts := gives_call concrete_of_isData function concrete
  exact (given.and parts).mono (fun _ => id) fun _ => And.left

end Builtin

end Formulae
