import Formulae.Proofs.Value.Ends
import Formulae.Proofs.Value.Exact
import Formulae.Proofs.Value.Rules

/-!
# Operators on types and on values

The rules for types and those for values say the same (`Value.operators_agree`).  Where an
operator is defined on definite types, it takes values of exactly those types to a value of
exactly the type that it gives, unless arithmetic itself fails; where arithmetic or an order is
not defined on the types, it fails on their values, unless an array without elements hides what
does not fit.
-/

namespace Formulae

/-- What may go wrong with operands on which an operator is defined. -/
def EvalFault.isArithmetic : EvalFault → Bool
  | .divisionByZero | .overflow _ | .dateOutOfRange | .lengthMismatch _ _ => true
  | _ => false

namespace Value

mutual

/-- No array in the value, nor the value itself, is an array without elements. -/
def isFilled : Value → Bool
  | .array items => !items.isEmpty && isFilledAll items
  | _ => true

/-- None of the values has an array without elements in it. -/
def isFilledAll : List Value → Bool
  | [] => true
  | v :: rest => v.isFilled && isFilledAll rest

end

theorem isFilledAll_iff {vs : List Value} : isFilledAll vs ↔ ∀ v ∈ vs, v.isFilled := by
  induction vs with
  | nil => simp [isFilledAll]
  | cons v rest inductionHypothesis => simp [isFilledAll, inductionHypothesis]

theorem isFilled_array {items : List Value} :
    (array items).isFilled ↔ items ≠ [] ∧ ∀ item ∈ items, item.isFilled := by
  rw [isFilled, Bool.and_eq_true, isFilledAll_iff]
  simp

/-! ## Obeying a rule -/

/-- An outcome is as a rule for types says: with a type, it is a value of exactly that type or a
fault of arithmetic, and without one it is a fault if the rule is binding. -/
structure Obeys (rule : Option Ty) (binding : Prop) (outcome : Result) : Prop where
  typed : ∀ type, rule = some type →
    Ends (fun r => type.has r) (fun fault => fault.isArithmetic) outcome
  refused : rule = none → binding → ∃ fault, outcome = .error fault

variable {op : Operator} {rule : Option Ty} {binding binding' : Prop} {outcome : Result}

theorem Obeys.mono (obeys : Obeys rule binding outcome) (h : binding' → binding) :
    Obeys rule binding' outcome :=
  ⟨obeys.typed, fun isNone binds => obeys.refused isNone (h binds)⟩

theorem obeys_some {type : Ty}
    (ends : Ends (fun r => type.has r) (fun fault => fault.isArithmetic) outcome) :
    Obeys (some type) binding outcome :=
  ⟨fun _ isSome => Option.some.inj isSome ▸ ends, nofun⟩

theorem obeys_none_error (fault : EvalFault) : Obeys none binding (.error fault) :=
  ⟨nofun, fun _ _ => ⟨fault, rfl⟩⟩

/-- What fails for a reason of arithmetic obeys any rule. -/
theorem obeys_error {fault : EvalFault} (isArithmetic : fault.isArithmetic) :
    Obeys rule binding (.error fault) :=
  ⟨fun _ _ => ends_error isArithmetic, fun _ _ => ⟨fault, rfl⟩⟩

/-- If the outcome for each element obeys the rule for elements, the outcome for the array obeys
the rule for arrays. -/
theorem obeys_mapM {α : Type} {f : α → Result} {xs : List α} {filled : α → Prop}
    {length : Option Nat} (each : ∀ x ∈ xs, Obeys rule (filled x) (f x))
    (sized : ∀ n ∈ length, n = xs.length) :
    Obeys (rule.map (Ty.arrayOf · length)) (xs ≠ [] ∧ ∀ x ∈ xs, filled x)
      ((xs.mapM f).map .array) where
  typed type isSome := by
    rcases Option.map_eq_some_iff.mp isSome with ⟨element, found, rfl⟩
    have typed := ends_mapM fun x member => (each x member).typed element found
    have both := (ends_length_mapM f xs).and typed
    apply (both.mono (fun _ => id) fun _ => And.right).map
    rintro rs ⟨length_eq, eachTyped⟩
    exact Ty.has_array_iff.mpr ⟨fun n member => (sized n member).trans length_eq.symm, eachTyped⟩
  refused isNone binds := by
    rcases binds with ⟨nonempty, allFilled⟩
    cases xs with
    | nil => exact absurd rfl nonempty
    | cons x rest =>
        have first : x ∈ x :: rest := List.mem_cons_self
        rcases (each x first).refused (Option.map_eq_none_iff.mp isNone) (allFilled x first) with
          ⟨fault, fails⟩
        exact ⟨fault, by rw [mapM_error_of_head fails]; rfl⟩

/-! ## Operands that are no arrays -/

variable {a b : Ty} {v w : Value}

/-- The written type of plain data. -/
def basicType? : Value → Option BasicType
  | .int _ => some .int
  | .float _ => some .float
  | .bool _ => some .boolean
  | .string _ => some .string
  | .date _ => some .date
  | .duration _ => some .duration
  | _ => none

/-- The type of plain data is no secret. -/
theorem eq_basic_of_has {type : BasicType} (notMixed : a.isMixed = false) (h : a.has v)
    (isBasic : v.basicType? = some type) : ∃ f, a = .basic type f := by
  cases v <;> cases isBasic
  all_goals
    cases a with
    | basic type f =>
        cases type with
        | mixed => cases notMixed
        | _ => first | exact ⟨f, rfl⟩ | cases h
    | _ => cases h

theorem exact_has {α : Type} {wrap : α → Value} {type : Ty} (typed : ∀ x, type.has (wrap x))
    (arithmetic : Checked) (result : Option α) :
    Ends (fun r => type.has r) (fun fault => fault.isArithmetic)
      (exact arithmetic wrap result) := by
  cases result with
  | none => exact ends_error rfl
  | some x => exact ends_ok (typed x)

theorem shifted_has (date : Option Date) :
    Ends (fun r => Ty.date.has r) (fun fault => fault.isArithmetic) (shifted date) := by
  cases date <;> rfl

theorem integerArithmetic_has (isArithmetic : op.isArithmetic) (m n : Int64) :
    Ends (fun r => (if op = .div then Ty.float else Ty.int).has r)
      (fun fault => fault.isArithmetic) (integerArithmetic op m n) := by
  cases op with
  | add | sub | mul => exact exact_has (fun _ => rfl) _ _
  | div =>
      change Ends (fun r => Ty.float.has r) _ _
      rw [integerArithmetic]
      split
      · exact ends_error rfl
      · exact ends_ok rfl
  | mod =>
      change Ends (fun r => Ty.int.has r) _ _
      rw [integerArithmetic]
      split
      · exact ends_error rfl
      · exact exact_has (fun _ => rfl) _ _
  | _ => cases isArithmetic

theorem floatArithmetic_has (isArithmetic : op.isArithmetic) (x y : Float) :
    Ends (fun r => Ty.float.has r) (fun fault => fault.isArithmetic) (floatArithmetic op x y) := by
  cases op <;> first | exact ends_ok rfl | cases isArithmetic

section

variable (notMixed : a.isMixed = false) (notMixed' : b.isMixed = false) (left : a.has v)
  (right : b.has w)
include notMixed notMixed' left right

/-- Where there is a rule for plain types, there is one for their values. -/
theorem plainArithmetic_obeys {result : Ty} (isArithmetic : op.isArithmetic)
    (rule : Ty.plainArithmetic? op a b = some result) :
    ∃ outcome, plainArithmetic? op v w = some outcome ∧
      Ends (fun r => result.has r) (fun fault => fault.isArithmetic) outcome := by
  simp only [plainArithmetic?_eq_some_iff]
  cases Ty.arithmeticRule_of_eq_some rule with
  | mixedLeft => cases notMixed
  | mixedRight => cases notMixed'
  | ints =>
      rcases Ty.int_of_admits (Ty.admits_of_has left) with ⟨m, rfl⟩
      rcases Ty.int_of_admits (Ty.admits_of_has right) with ⟨n, rfl⟩
      exact ⟨_, .ints m n, integerArithmetic_has isArithmetic m n⟩
  | intFloat =>
      rcases Ty.int_of_admits (Ty.admits_of_has left) with ⟨m, rfl⟩
      rcases Ty.float_of_has right with ⟨y, rfl⟩
      exact ⟨_, .intFloat m y, floatArithmetic_has isArithmetic _ _⟩
  | floatInt =>
      rcases Ty.float_of_has left with ⟨x, rfl⟩
      rcases Ty.int_of_admits (Ty.admits_of_has right) with ⟨n, rfl⟩
      exact ⟨_, .floatInt x n, floatArithmetic_has isArithmetic _ _⟩
  | floats =>
      rcases Ty.float_of_has left with ⟨x, rfl⟩
      rcases Ty.float_of_has right with ⟨y, rfl⟩
      exact ⟨_, .floats x y, floatArithmetic_has isArithmetic _ _⟩
  | texts isAdd =>
      rcases Ty.string_of_admits (Ty.admits_of_has left) with ⟨x, rfl⟩
      rcases Ty.string_of_admits (Ty.admits_of_has right) with ⟨y, rfl⟩
      exact ⟨_, .texts isAdd x y, rfl⟩
  | shift isSum =>
      rcases Ty.date_of_admits (Ty.admits_of_has left) with ⟨d, rfl⟩
      rcases Ty.duration_of_admits (Ty.admits_of_has right) with ⟨p, rfl⟩
      rcases isSum with isAdd | isSub
      · exact ⟨_, .later isAdd d p, shifted_has _⟩
      · exact ⟨_, .earlier isSub d p, shifted_has _⟩
  | between isSub =>
      rcases Ty.date_of_admits (Ty.admits_of_has left) with ⟨d, rfl⟩
      rcases Ty.date_of_admits (Ty.admits_of_has right) with ⟨e, rfl⟩
      exact ⟨_, .between isSub d e, rfl⟩
  | durations isSum =>
      rcases Ty.duration_of_admits (Ty.admits_of_has left) with ⟨p, rfl⟩
      rcases Ty.duration_of_admits (Ty.admits_of_has right) with ⟨q, rfl⟩
      rcases isSum with isAdd | isSub
      · exact ⟨_, .sum isAdd p q, exact_has (fun _ => rfl) _ _⟩
      · exact ⟨_, .difference isSub p q, exact_has (fun _ => rfl) _ _⟩
  | multiple isMul =>
      rcases Ty.duration_of_admits (Ty.admits_of_has left) with ⟨p, rfl⟩
      rcases Ty.int_of_admits (Ty.admits_of_has right) with ⟨n, rfl⟩
      exact ⟨_, .multiple isMul p n, exact_has (fun _ => rfl) _ _⟩

/-- Where there is a rule for plain values, there is one for their types. -/
theorem plainArithmetic?_isSome_of_rule {outcome : Result}
    (rule : plainArithmetic? op v w = some outcome) : (Ty.plainArithmetic? op a b).isSome := by
  cases plainArithmetic?_eq_some_iff.mp rule
  all_goals
    rcases eq_basic_of_has notMixed left rfl with ⟨f, rfl⟩
    rcases eq_basic_of_has notMixed' right rfl with ⟨g, rfl⟩
    simp [Ty.plainArithmetic?, *]

theorem scalarArithmetic_obeys (isArithmetic : op.isArithmetic) :
    Obeys (Ty.scalarArithmetic? op a b) binding (scalarArithmetic op v w) := by
  -- Both tables are tried in the same two orders, so the rules are found in the same one.
  have noRule {a b : Ty} {v w : Value} (notMixed : a.isMixed = false)
      (notMixed' : b.isMixed = false) (left : a.has v) (right : b.has w)
      (isNone : Ty.plainArithmetic? op a b = none) : plainArithmetic? op v w = none := by
    cases found : plainArithmetic? op v w with
    | none => rfl
    | some outcome =>
        have isSome := plainArithmetic?_isSome_of_rule notMixed notMixed' left right found
        rw [isNone] at isSome
        cases isSome
  unfold Ty.scalarArithmetic? scalarArithmetic
  cases forward : Ty.plainArithmetic? op a b with
  | some result =>
      rcases plainArithmetic_obeys notMixed notMixed' left right isArithmetic forward with
        ⟨outcome, found, ends⟩
      rw [found]
      exact obeys_some ends
  | none =>
      rw [noRule notMixed notMixed' left right forward]
      dsimp only [Option.none_or]
      split
      · cases backward : Ty.plainArithmetic? op b a with
        | some result =>
            rcases plainArithmetic_obeys notMixed' notMixed right left isArithmetic backward with
              ⟨outcome, found, ends⟩
            rw [found]
            exact obeys_some ends
        | none =>
            rw [noRule notMixed' notMixed right left backward]
            exact obeys_none_error _
      · exact obeys_none_error _

/-- Where types are in order, so are their values that are numbers if they are numeric. -/
theorem isNaN_of_unordered_types (isOrdered : a.isOrdered b) (unordered : v.compare? w = none) :
    v.isNaN ∨ w.isNaN := by
  rcases mixed_or_isNaN_of_compare isOrdered (Ty.admits_of_has left) (Ty.admits_of_has right)
    unordered with mixed | isNaN
  · rw [mentionsMixed_of_isOrdered isOrdered notMixed notMixed'] at mixed
    cases mixed
  · exact isNaN

/-- Where values are in order, so are their types. -/
theorem isOrdered_of_compare {order : Ordering} (found : v.compare? w = some order) :
    a.isOrdered b := by
  unfold compare? at found
  split at found <;> first
    | (cases found; done)
    | (rcases eq_basic_of_has notMixed left rfl with ⟨f, rfl⟩
       rcases eq_basic_of_has notMixed' right rfl with ⟨g, rfl⟩
       rfl)

theorem compared_obeys (noNaN : v.isNaN = false ∧ w.isNaN = false) :
    Obeys (if a.isOrdered b then some Ty.boolean else none) binding (compared op v w) := by
  unfold compared
  cases found : v.compare? w with
  | some order =>
      rw [if_pos (isOrdered_of_compare notMixed notMixed' left right found)]
      exact obeys_some rfl
  | none =>
      split
      · next isOrdered =>
          rcases isNaN_of_unordered_types notMixed notMixed' left right isOrdered found with
            isNaN | isNaN
          · rw [noNaN.1] at isNaN
            cases isNaN
          · rw [noNaN.2] at isNaN
            cases isNaN
      · exact obeys_none_error _

end

/-! ## Arrays -/

section

variable (isArithmetic : op.isArithmetic)
include isArithmetic

theorem spread_obeys {right : Ty} (notMixed : right.isMixed = false) (typed : right.has w) :
    ∀ {left : Ty} {v : Value}, left.isDefinite → left.has v →
      Obeys (Ty.spread? op right left) v.isFilled (spread op w v)
  | .array element length _, v, definite, h => by
      rcases Ty.array_of_has h with ⟨items, rfl, sized, each⟩
      rw [Ty.spread?, spread, spreadAll_eq_mapM]
      have eachObeys : ∀ item ∈ items,
          Obeys (Ty.spread? op right element) item.isFilled (spread op w item) :=
        fun item member => spread_obeys notMixed typed definite (each item member)
      exact (obeys_mapM eachObeys sized).mono isFilled_array.mp
  | .basic _ _, v, definite, h | .null _, v, definite, h | .function _ _ _ _ _, v, definite, h
  | .enumeration _ _, v, definite, h | .typeLiteral _ _, v, definite, h => by
      have leftNotMixed := Ty.not_isMixed_of_isDefinite definite
      rw [Ty.spread?_of_not_array rfl,
        spread_of_not_array (Ty.not_array_of_has rfl leftNotMixed h)]
      exact scalarArithmetic_obeys leftNotMixed notMixed h typed isArithmetic

omit isArithmetic in
theorem lengthsAgree_of_sized {m n : Option Nat} {k : Nat} (left : ∀ i ∈ m, i = k)
    (right : ∀ i ∈ n, i = k) : Ty.lengthsAgree m n ∧ ∀ i ∈ m.or n, i = k := by
  cases m with
  | none => exact ⟨rfl, right⟩
  | some i =>
      refine ⟨?_, left⟩
      cases n with
      | none => rfl
      | some j => exact decide_eq_true ((left i rfl).trans (right j rfl).symm)

/-- Arithmetic on values of exactly some types goes by the rule for the types. -/
theorem arithmetic_obeys : ∀ {a b : Ty} {v w : Value}, a.isDefinite → b.isDefinite → a.has v →
    b.has w → Obeys (Ty.arithmetic? op a b) (v.isFilled ∧ w.isFilled) (arithmetic op v w)
  | .array a m _, .array b n _, v, w, definite, definite', left, right => by
      rcases Ty.array_of_has left with ⟨as, rfl, sizedLeft, eachLeft⟩
      rcases Ty.array_of_has right with ⟨bs, rfl, sizedRight, eachRight⟩
      rw [Ty.arithmetic?, arithmetic]
      by_cases sameLength : as.length = bs.length
      · rcases lengthsAgree_of_sized sizedLeft (sameLength ▸ sizedRight) with ⟨agree, sized⟩
        have zipped : (as.zip bs).length = as.length := by
          rw [List.length_zip, ← sameLength, Nat.min_self]
        have eachObeys : ∀ pair ∈ as.zip bs, Obeys (Ty.arithmetic? op a b)
            (pair.1.isFilled ∧ pair.2.isFilled) (arithmetic op pair.1 pair.2) := by
          intro pair member
          rcases List.of_mem_zip member with ⟨isLeft, isRight⟩
          exact arithmetic_obeys (a := a) (b := b) definite definite' (eachLeft _ isLeft)
            (eachRight _ isRight)
        rw [if_pos sameLength, if_pos agree, arithmeticAll_eq_mapM]
        apply (obeys_mapM eachObeys (zipped ▸ sized)).mono
        rintro ⟨filledLeft, filledRight⟩
        rcases isFilled_array.mp filledLeft with ⟨nonempty, eachLeft⟩
        rcases isFilled_array.mp filledRight with ⟨-, eachRight⟩
        refine ⟨fun isNil => nonempty (List.length_eq_zero_iff.mp ?_), fun pair member => ?_⟩
        · rw [← zipped, isNil, List.length_nil]
        · rcases List.of_mem_zip member with ⟨isLeft, isRight⟩
          exact ⟨eachLeft _ isLeft, eachRight _ isRight⟩
      · rw [if_neg sameLength]
        exact obeys_error rfl
  | .array a m f, .basic _ _, v, w, definite, definite', left, right
  | .array a m f, .null _, v, w, definite, definite', left, right
  | .array a m f, .function _ _ _ _ _, v, w, definite, definite', left, right
  | .array a m f, .enumeration _ _, v, w, definite, definite', left, right
  | .array a m f, .typeLiteral _ _, v, w, definite, definite', left, right => by
      have notMixed := Ty.not_isMixed_of_isDefinite definite'
      rcases Ty.array_of_has left with ⟨items, rfl, -, -⟩
      rw [Ty.arithmetic?_array_left rfl, if_neg (by simp [notMixed]),
        arithmetic_array_left (Ty.not_array_of_has rfl notMixed right)]
      exact (spread_obeys isArithmetic notMixed right definite left).mono And.left
  | .basic _ _, b, v, w, definite, definite', left, right
  | .null _, b, v, w, definite, definite', left, right
  | .function _ _ _ _ _, b, v, w, definite, definite', left, right
  | .enumeration _ _, b, v, w, definite, definite', left, right
  | .typeLiteral _ _, b, v, w, definite, definite', left, right => by
      have notMixed := Ty.not_isMixed_of_isDefinite definite
      have notArray := Ty.not_array_of_has rfl notMixed left
      cases b with
      | array b n g =>
          rcases Ty.array_of_has right with ⟨items, rfl, -, -⟩
          rw [Ty.arithmetic?_array_right rfl, if_neg (by simp [notMixed]),
            arithmetic_array_right notArray]
          split
          · exact (spread_obeys isArithmetic notMixed left definite' right).mono And.right
          · exact obeys_none_error _
      | _ =>
          have notMixed' := Ty.not_isMixed_of_isDefinite definite'
          rw [Ty.arithmetic?_of_not_array rfl rfl,
            arithmetic_of_not_array notArray (Ty.not_array_of_has rfl notMixed' right)]
          exact scalarArithmetic_obeys notMixed notMixed' left right isArithmetic

end

/-- Negation of a value of exactly some type goes by the rule for the type. -/
theorem negated_obeys : ∀ {a : Ty} {v : Value}, a.isDefinite → a.has v →
    Obeys a.negResult? v.isFilled v.negated
  | .array element length _, v, definite, h => by
      rcases Ty.array_of_has h with ⟨items, rfl, sized, each⟩
      rw [Ty.negResult?, negated, negatedAll_eq_mapM]
      have eachObeys : ∀ item ∈ items, _ := fun item member =>
        negated_obeys (a := element) definite (each item member)
      exact (obeys_mapM eachObeys sized).mono isFilled_array.mp
  | .basic .int _, v, _, h => by
      rcases Ty.int_of_admits (Ty.admits_of_has h) with ⟨n, rfl⟩
      exact obeys_some (exact_has (fun _ => rfl) _ _)
  | .basic .float _, v, _, h => by
      rcases Ty.float_of_has h with ⟨x, rfl⟩
      exact obeys_some rfl
  | .basic .duration _, v, _, h => by
      rcases Ty.duration_of_admits (Ty.admits_of_has h) with ⟨d, rfl⟩
      exact obeys_some (exact_has (fun _ => rfl) _ _)
  | .basic .mixed _, _, definite, _ | .basic .void _, _, definite, _ => nomatch definite
  | .basic .boolean _, v, _, h | .basic .string _, v, _, h | .basic .date _, v, _, h
  | .null _, v, _, h | .function _ _ _ _ _, v, _, h | .enumeration _ _, v, _, h
  | .typeLiteral _ _, v, _, h => by
      cases v <;> first | exact obeys_none_error _ | cases h

/-! ## The tables -/

/-- The operators do on values of exactly some definite types what they do on the types: a
result type is exactly that of the result, and arithmetic, order and negation that have none
fail.  Only the order of what is no number is left open, and arrays without elements, in which
nothing is combined. -/
theorem operators_agree (definite : a.isDefinite) (definite' : b.isDefinite) (left : a.has v)
    (right : b.has w) (noNaN : op.isOrdering → v.isNaN = false ∧ w.isNaN = false) :
    (op.isArithmetic ∨ op.isLogical ∨ op.isEquality ∨ op.isOrdering →
      Obeys (Ty.binaryResult? op a b)
        ((op.isArithmetic ∨ op.isOrdering) ∧ v.isFilled ∧ w.isFilled) (binary op v w)) ∧
      (op = .not ∨ op = .neg → Obeys (Ty.unaryResult? op a) v.isFilled (unary op v)) := by
  have notVoid := Ty.not_isVoid_of_isDefinite definite
  have notVoid' := Ty.not_isVoid_of_isDefinite definite'
  have notMixed := Ty.not_isMixed_of_isDefinite definite
  have notMixed' := Ty.not_isMixed_of_isDefinite definite'
  constructor
  · intro isPlain
    unfold Ty.binaryResult?
    rw [notVoid, notVoid', if_neg (by decide)]
    cases op with
    | add | sub | mul | div | mod =>
        exact (arithmetic_obeys rfl definite definite' left right).mono And.right
    | and | or | xor => exact obeys_some rfl
    | eq | notEq =>
        refine ⟨fun type isSome => ?_, fun _ binds => ?_⟩
        · dsimp only at isSome
          split at isSome <;> cases isSome
          exact ends_ok rfl
        · rcases binds.1 with isArithmetic | isOrdering
          · cases isArithmetic
          · cases isOrdering
    | lt | gt | ltEq | gtEq => exact compared_obeys notMixed notMixed' left right (noNaN rfl)
    | not => exact obeys_none_error _
    | neg | assign | addAssign | subAssign | mulAssign | divAssign | typeCast | index | call =>
        rcases isPlain with isPlain | isPlain | isPlain | isPlain <;> cases isPlain
  · rintro (rfl | rfl)
    · rw [Ty.unaryResult?, notVoid]
      exact obeys_some rfl
    · rw [Ty.unaryResult?, notVoid]
      exact negated_obeys definite left

/-- A month as often as each of two numbers says. -/
theorem operators_agree_months :
    Ty.binaryResult? .mul Ty.duration (Ty.arrayOf Ty.int (some 2)) =
        some (Ty.arrayOf Ty.duration (some 2)) ∧
      binary .mul (.duration ⟨1, 0⟩) (.array [.int 2, .int 3]) =
        .ok (.array [.duration ⟨2, 0⟩, .duration ⟨3, 0⟩]) ∧
      Obeys (Ty.binaryResult? .mul Ty.duration (Ty.arrayOf Ty.int (some 2)))
        ((Operator.mul.isArithmetic ∨ Operator.mul.isOrdering) ∧
          (Value.duration ⟨1, 0⟩).isFilled ∧ (Value.array [.int 2, .int 3]).isFilled)
        (binary .mul (.duration ⟨1, 0⟩) (.array [.int 2, .int 3])) :=
  ⟨rfl, rfl, (operators_agree rfl rfl rfl rfl
    fun isOrdering => absurd isOrdering (by decide)).1 (.inl rfl)⟩

end Value

end Formulae
