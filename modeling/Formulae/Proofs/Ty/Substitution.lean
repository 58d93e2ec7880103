import Formulae.Proofs.Ty.Acceptance
import Formulae.Ty.Signature

/-!
# Functions in the place of functions

A place for functions accepts functions by their parameters and results alone: neither the
type of further arguments nor the resolver is looked at.  Where these two agree, a function
takes every call that the type of its place allows, with a result that the place of the
result accepts (`Signature.substitutes_of_accepts`).  Where they do not, it need not
(`Signature.strays_of_accepts`).
-/

namespace Formulae

namespace Ty

/-! ## Parameters -/

theorem length_of_fitsAll {forward : Bool} : ∀ {as bs : List Ty}, fitsAll forward as bs →
    as.length = bs.length
  | [], [], _ => rfl
  | _ :: _, _ :: _, fit => by
      rw [fitsAll, Bool.and_eq_true] at fit
      simp [length_of_fitsAll fit.2]

theorem getElem?_of_fitsAll : ∀ {as bs : List Ty} {i : Nat} {b : Ty}, fitsAll true as bs →
    bs[i]? = some b → ∃ a, as[i]? = some a ∧ a.accepts b
  | [], [], _, _, _, found => by cases found
  | a :: _, _ :: _, 0, _, fit, found => by
      rw [fitsAll, Bool.and_eq_true] at fit
      cases found
      exact ⟨a, rfl, fit.1⟩
  | _ :: _, _ :: _, i + 1, b, fit, found => by
      rw [fitsAll, Bool.and_eq_true] at fit
      exact getElem?_of_fitsAll (i := i) fit.2 found

/-! ## Results -/

theorem mentionsVoid_withFinal {type : Ty} (f : Bool) :
    (type.withFinal f).mentionsVoid = type.mentionsVoid := by
  cases type <;> rfl

theorem not_mentionsVoid_of_widestNumeric? {types : List Ty} {result : Ty}
    (widest : widestNumeric? types = some result) : result.mentionsVoid = false := by
  unfold widestNumeric? at widest
  split at widest
  · cases widest
  · split at widest
    · cases widest; rfl
    · split at widest <;> cases widest <;> rfl

theorem not_mentionsVoid_of_common? {types : List Ty} {result : Ty}
    (spoken : ∀ t ∈ types, t.mentionsVoid = false) (common : common? types = some result) :
    result.mentionsVoid = false := by
  cases types with
  | nil => cases common
  | cons first rest =>
      rw [common?] at common
      split at common
      · cases common
        rw [mentionsVoid_withFinal]
        exact spoken first List.mem_cons_self
      · split at common
        · exact not_mentionsVoid_of_widestNumeric? common
        · cases common

end Ty

/-- What a resolver makes of types that do not speak of void does not either. -/
theorem Resolver.not_mentionsVoid_of_resolve? {resolver : Resolver} {types : List Ty} {result : Ty}
    (spoken : ∀ t ∈ types, t.mentionsVoid = false)
    (resolved : resolver.resolve? types = some result) : result.mentionsVoid = false := by
  unfold Resolver.resolve? at resolved
  split at resolved
  · exact Ty.not_mentionsVoid_of_widestNumeric? resolved
  · cases resolved
    cases common : Ty.common? types with
    | none => rfl
    | some element =>
        change element.mentionsVoid = false
        exact Ty.not_mentionsVoid_of_common? spoken common
  · split at resolved
    · split at resolved
      · next element _ _ _ =>
          cases resolved
          rw [Ty.mentionsVoid_withFinal]
          exact spoken (.array element _ _) List.mem_cons_self
      · exact Ty.not_mentionsVoid_of_widestNumeric? resolved
    · exact Ty.not_mentionsVoid_of_widestNumeric? resolved

namespace Signature

/-! ## Calls -/

/-- Arguments of these types may be given. -/
structure Takes (s : Signature) (args : List Ty) : Prop where
  arity : s.acceptsArity args.length
  fits : ∀ (i : Nat) (arg : Ty), args[i]? = some arg →
    ∃ param, s.param? i = some param ∧ param.accepts arg

/-- A type of arguments that neither speaks of void nor records the length of an array. -/
def IsPlain (arg : Ty) : Prop :=
  arg.mentionsVoid = false ∧ arg.recordsLength = false

/-- Functions of the other signature take every call that functions of this one take, with
a result for the place of this one's result. -/
def Substitutes (s other : Signature) : Prop :=
  ∀ args : List Ty, (∀ arg ∈ args, IsPlain arg) → s.Takes args →
    ∀ result, s.result? args = some result →
      other.Takes args ∧ ∃ result', other.result? args = some result' ∧
        if result.isVoid && result'.isVoid then result.equals result' else result.accepts result'

/-- The parts of signatures that acceptance leaves out agree: the other signature takes
further arguments if this one does, and the results follow from the arguments alike. -/
structure Covers (s other : Signature) : Prop where
  variadic : ∀ further, s.variadic = some further →
    ∃ further', other.variadic = some further' ∧ further'.accepts further
  resolver : s.resolver = other.resolver

section

variable {s other : Signature} {args : List Ty}

theorem type_accepts_type_iff : s.type.accepts other.type ↔
    Ty.fitsAll true other.params s.params ∧ s.ret.accepts other.ret := by
  rw [type, Ty.function_accepts_iff]
  constructor
  · rintro ⟨_, _, _, _, _, same, params, ret⟩
    cases same
    exact ⟨params, ret⟩
  · rintro ⟨params, ret⟩
    exact ⟨_, _, _, _, _, rfl, params, ret⟩

theorem Covers.acceptsArity (covers : s.Covers other)
    (lengths : other.params.length = s.params.length) {count : Nat}
    (accepts : s.acceptsArity count) : other.acceptsArity count := by
  unfold Signature.acceptsArity at accepts ⊢
  rw [lengths]
  cases further : s.variadic with
  | none =>
      obtain rfl : count = s.params.length := by simpa [further] using accepts
      split <;> simp
  | some type =>
      rcases covers.variadic type further with ⟨type', further', -⟩
      simpa [further, further'] using accepts

/-- The other signature's parameter takes what fits this one's. -/
theorem Covers.param? (covers : s.Covers other)
    (params : Ty.fitsAll true other.params s.params) {i : Nat} {param : Ty}
    (found : s.param? i = some param) :
    ∃ param', other.param? i = some param' ∧ param'.accepts param := by
  rcases Option.or_eq_some_iff.mp found with fixed | ⟨missing, further⟩
  · rcases Ty.getElem?_of_fitsAll params fixed with ⟨param', fixed', accepts⟩
    exact ⟨param', by rw [Signature.param?, fixed', Option.some_or], accepts⟩
  · rcases covers.variadic param further with ⟨param', further', accepts⟩
    have missing' : other.params[i]? = none := by
      rw [List.getElem?_eq_none_iff] at missing ⊢
      rwa [Ty.length_of_fitsAll params]
    exact ⟨param', by rw [Signature.param?, missing', Option.none_or, further'], accepts⟩

theorem Covers.takes (covers : s.Covers other)
    (params : Ty.fitsAll true other.params s.params) (plain : ∀ arg ∈ args, IsPlain arg)
    (takes : s.Takes args) : other.Takes args where
  arity := covers.acceptsArity (Ty.length_of_fitsAll params) takes.arity
  fits i arg given := by
    rcases takes.fits i arg given with ⟨param, found, fit⟩
    rcases covers.param? params found with ⟨param', found', accepts⟩
    have unrecorded := (plain arg (List.mem_of_getElem? given)).2
    exact ⟨param', found', Ty.accepts_trans accepts fit (.inr unrecorded)⟩

theorem Covers.result? (covers : s.Covers other) (ret : s.ret.accepts other.ret)
    (plain : ∀ arg ∈ args, IsPlain arg) {result : Ty} (resolved : s.result? args = some result) :
    ∃ result', other.result? args = some result' ∧ result.accepts result' := by
  unfold Signature.result? at resolved ⊢
  rw [← covers.resolver]
  cases resolver : s.resolver with
  | none =>
      simp only [resolver, Option.some.injEq] at resolved
      subst resolved
      exact ⟨_, rfl, by simpa using ret⟩
  | some resolver =>
      simp only [resolver] at resolved
      have spoken :=
        Resolver.not_mentionsVoid_of_resolve? (fun t member => (plain t member).1) resolved
      exact ⟨result, resolved, Ty.accepts_self spoken⟩

/-- Functions whose signature a place's type accepts and covers stand in for functions of that
type: they take every call that the type allows, with a result that fits. -/
theorem substitutes_of_accepts (accepts : s.type.accepts other.type) (covers : s.Covers other) :
    s.Substitutes other := by
  intro args plain takes result resolved
  obtain ⟨params, ret⟩ := type_accepts_type_iff.mp accepts
  rcases covers.result? ret plain resolved with ⟨result', resolved', fits⟩
  refine ⟨covers.takes params plain takes, result', resolved', ?_⟩
  rw [Ty.not_isVoid_of_accepts fits, Bool.and_false, if_neg Bool.false_ne_true]
  exact fits

end

/-- A place for functions of any value takes a function of any value that gives its widest
numeric argument. -/
theorem substitutes_of_accepts_abs :
    let s : Signature := { params := [Ty.float], ret := Ty.mixed, resolver := some .widest }
    s.Substitutes Builtin.abs.signature :=
  substitutes_of_accepts rfl ⟨nofun, rfl⟩

/-- Acceptance alone does not do: a place for functions of any value with any result takes the
absolute value, which refuses strings. -/
theorem strays_of_accepts :
    ¬ ∀ s other : Signature, s.type.accepts other.type → s.Substitutes other := by
  intro substitutes
  let s : Signature := { params := [Ty.mixed], ret := Ty.mixed }
  have takes : s.Takes [Ty.string] :=
    ⟨rfl, fun i arg given => by
      cases i with
      | zero => cases given; exact ⟨Ty.mixed, rfl, rfl⟩
      | succ i => cases given⟩
  have plain : ∀ arg ∈ [Ty.string], IsPlain arg := by
    intro arg member
    obtain rfl := List.mem_singleton.mp member
    exact ⟨rfl, rfl⟩
  obtain ⟨-, result, resolved, -⟩ :=
    substitutes s Builtin.abs.signature rfl [Ty.string] plain takes Ty.mixed rfl
  cases resolved

end Signature

end Formulae
