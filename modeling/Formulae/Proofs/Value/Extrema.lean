import Formulae.Value.Builtin

/-!
# Least and greatest values

`min` and `max` look through their candidates once and keep the best one met so far.  Among
integers the one they end with is as far in the direction looked for as every other one, so it
does not depend on their order or on whether they come in an array; a candidate that is no number
is refused wherever it stands (`Builtin.call_extremum`).
-/

namespace Formulae.Builtin

variable {function : Builtin} {direction : Ordering} {args : List Value} {ints : List Int64}
  {m n k : Int64}

/-! ## As far as another integer -/

/-- The first integer lies as far in the direction as the second one, or further. -/
def AsFar (direction : Ordering) (m n : Int64) : Prop :=
  compare m.toInt n.toInt = direction ∨ m = n

theorem AsFar.refl (direction : Ordering) (m : Int64) : AsFar direction m m :=
  .inr rfl

theorem AsFar.trans (first : AsFar direction m n) (second : AsFar direction n k) :
    AsFar direction m k := by
  rcases first with first | rfl
  · rcases second with second | rfl
    · left
      cases direction with
      | lt =>
          rw [Int.compare_eq_lt] at first second ⊢
          exact Int.lt_trans first second
      | eq =>
          rw [Int.compare_eq_eq] at first second ⊢
          exact first.trans second
      | gt =>
          rw [Int.compare_eq_gt] at first second ⊢
          exact Int.lt_trans second first
    · exact .inl first
  · exact second

theorem asFar_gt : AsFar .gt m n ↔ n ≤ m := by
  rw [AsFar, Int.compare_eq_gt, Int64.le_iff_toInt_le, ← Int64.toInt_inj]
  omega

theorem asFar_lt : AsFar .lt m n ↔ m ≤ n := by
  rw [AsFar, Int.compare_eq_lt, Int64.le_iff_toInt_le, ← Int64.toInt_inj]
  omega

/-- Of two integers one is as far as the other in every direction but that of equality. -/
theorem asFar_of_not_further (sharp : direction ≠ .eq)
    (notFurther : compare n.toInt m.toInt ≠ direction) : AsFar direction m n := by
  cases direction with
  | lt => exact asFar_lt.mpr (Int64.le_iff_toInt_le.mpr
      (Int.not_lt.mp fun less => notFurther (Int.compare_eq_lt.mpr less)))
  | eq => exact absurd rfl sharp
  | gt => exact asFar_gt.mpr (Int64.le_iff_toInt_le.mpr
      (Int.not_lt.mp fun less => notFurther (Int.compare_eq_gt.mpr less)))

/-! ## The furthest of several integers -/

/-- One of the integers that lies as far in the direction as each of them. -/
structure Furthest (direction : Ordering) (ints : List Int64) (m : Int64) : Prop where
  mem : m ∈ ints
  asFar : ∀ n ∈ ints, AsFar direction m n

/-- The furthest integer does not depend on the order in which the integers stand. -/
theorem Furthest.perm {ints' : List Int64} (furthest : Furthest direction ints m)
    (perm : ints'.Perm ints) : Furthest direction ints' m :=
  ⟨perm.mem_iff.mpr furthest.mem, fun n member => furthest.asFar n (perm.mem_iff.mp member)⟩

/-- There is only one furthest integer. -/
theorem Furthest.unique (sharp : direction ≠ .eq) (first : Furthest direction ints m)
    (second : Furthest direction ints n) : m = n := by
  have forward := first.asFar n second.mem
  have back := second.asFar m first.mem
  cases direction with
  | lt => exact Int64.le_antisymm (asFar_lt.mp forward) (asFar_lt.mp back)
  | eq => exact absurd rfl sharp
  | gt => exact Int64.le_antisymm (asFar_gt.mp back) (asFar_gt.mp forward)

/-- One step of the search among integers. -/
theorem further_int (direction : Ordering) (m n : Int64) :
    further direction (.int m) (.int n)
      = .int (if compare n.toInt m.toInt = direction then n else m) := by
  by_cases better : compare n.toInt m.toInt = direction <;>
    simp [further, Value.compare?, better]

/-- One step keeps or replaces the best integer by one that lies as far as both. -/
theorem asFar_further (sharp : direction ≠ .eq) (m n : Int64) :
    ∃ best, further direction (.int m) (.int n) = .int best ∧ (best = m ∨ best = n) ∧
      AsFar direction best m ∧ AsFar direction best n := by
  rw [further_int]
  by_cases better : compare n.toInt m.toInt = direction
  · rw [if_pos better]
    exact ⟨n, rfl, .inr rfl, .inl better, .refl direction n⟩
  · rw [if_neg better]
    exact ⟨m, rfl, .inl rfl, .refl direction m, asFar_of_not_further sharp better⟩

/-- The search among integers ends with the furthest one.  The induction is on the integers that
are still ahead; the best one so far stands for those that were passed. -/
theorem furthest_foldl (sharp : direction ≠ .eq) (first : Int64) (rest : List Int64) :
    ∃ m, (rest.map Value.int).foldl (further direction) (.int first) = .int m ∧
      Furthest direction (first :: rest) m := by
  induction rest generalizing first with
  | nil =>
      refine ⟨first, rfl, List.mem_singleton_self first, fun n member => ?_⟩
      rw [List.mem_singleton.mp member]
      exact .refl direction first
  | cons next rest inductionHypothesis =>
      rcases asFar_further sharp first next with ⟨best, step, origin, asFarFirst, asFarNext⟩
      rcases inductionHypothesis best with ⟨m, ends, furthest⟩
      refine ⟨m, by rw [List.map_cons, List.foldl_cons, step, ends], ?_, fun n member => ?_⟩
      · rcases List.mem_cons.mp furthest.mem with rfl | inRest
        · rcases origin with rfl | rfl <;> simp
        · exact List.mem_cons_of_mem _ (List.mem_cons_of_mem _ inRest)
      · have asFarBest := furthest.asFar best (List.mem_cons_self ..)
        rcases List.mem_cons.mp member with rfl | member
        · exact asFarBest.trans asFarFirst
        · rcases List.mem_cons.mp member with rfl | inRest
          · exact asFarBest.trans asFarNext
          · exact furthest.asFar n (List.mem_cons_of_mem _ inRest)

/-! ## The candidates -/

/-- Arguments that are not a single array are themselves the candidates. -/
theorem candidates_of_ne_array (several : ∀ items, args ≠ [.array items]) :
    candidates args = args := by
  unfold candidates
  split
  · exact absurd rfl (several _)
  · rfl

theorem candidates_ints (ints : List Int64) :
    candidates (ints.map Value.int) = ints.map Value.int := by
  apply candidates_of_ne_array
  rintro items single
  rcases List.map_eq_singleton_iff.mp single with ⟨n, -, isArray⟩
  cases isArray

/-- The number given for integers is the furthest one. -/
theorem extremum_of_furthest (sharp : direction ≠ .eq) (furthest : Furthest direction ints m)
    (found : candidates args = ints.map Value.int) :
    extremum function direction args = .ok (.int m) := by
  cases ints with
  | nil => cases furthest.mem
  | cons first rest =>
      rcases furthest_foldl sharp first rest with ⟨best, ends, furthest'⟩
      have numeric : ((first :: rest).map Value.int).all Value.isNumeric := by
        simp [Value.isNumeric]
      have noFloat : ((first :: rest).map Value.int).any Value.isFloat = false := by
        simp [Value.isFloat]
      rw [extremum, found, furthest.unique sharp furthest', ← ends]
      rw [List.map_cons] at numeric noFloat ⊢
      simp only [numeric, noFloat, if_true, Bool.false_eq_true, if_false]

/-- A candidate that is no number is refused, wherever it stands. -/
theorem extremum_of_not_isNumeric {v : Value} (member : v ∈ candidates args)
    (noNumber : v.isNumeric = false) :
    extremum function direction args = refused function args := by
  have mixed : (candidates args).all Value.isNumeric = false :=
    List.all_eq_false.mpr ⟨v, member, by simp [noNumber]⟩
  unfold extremum
  split
  · rfl
  · next first rest found =>
      rw [found] at mixed
      rw [mixed]
      rfl

/-- Some integer is the furthest of those given, and the function gives it for the integers in
every order, as arguments or in a single array. -/
theorem exists_extremum (function : Builtin) (direction : Ordering) (sharp : direction ≠ .eq)
    (nonempty : ints ≠ []) :
    ∃ m, Furthest direction ints m ∧ ∀ ints' : List Int64, ints'.Perm ints →
      extremum function direction (ints'.map .int) = .ok (.int m) ∧
        extremum function direction [.array (ints'.map .int)] = .ok (.int m) := by
  cases ints with
  | nil => exact absurd rfl nonempty
  | cons first rest =>
      rcases furthest_foldl sharp first rest with ⟨m, -, furthest⟩
      refine ⟨m, furthest, fun ints' perm => ?_⟩
      exact ⟨extremum_of_furthest sharp (furthest.perm perm) (candidates_ints ints'),
        extremum_of_furthest sharp (furthest.perm perm) rfl⟩

/-! ## The calls -/

/-- Of integers, `max` gives one that is at least every other one and `min` one that is at most
every other one, the same for them in every order, whether as arguments or in an array.  Arguments
among which one is no number are refused, unless they are a single array. -/
theorem call_extremum :
    (∀ ints : List Int64, ints ≠ [] →
      (∃ m ∈ ints, (∀ n ∈ ints, n ≤ m) ∧ ∀ ints' : List Int64, ints'.Perm ints →
        call .max (ints'.map .int) = .ok (.int m) ∧
          call .max [.array (ints'.map .int)] = .ok (.int m)) ∧
      ∃ m ∈ ints, (∀ n ∈ ints, m ≤ n) ∧ ∀ ints' : List Int64, ints'.Perm ints →
        call .min (ints'.map .int) = .ok (.int m) ∧
          call .min [.array (ints'.map .int)] = .ok (.int m)) ∧
    ∀ args : List Value, (∃ arg ∈ args, arg.isNumeric = false) →
      (∀ items, args ≠ [.array items]) →
      call .max args = .error (.invalidArgument .max args) ∧
        call .min args = .error (.invalidArgument .min args) := by
  refine ⟨fun ints nonempty => ⟨?_, ?_⟩, fun args ⟨arg, member, noNumber⟩ several => ?_⟩
  · rcases exists_extremum .max .gt nofun nonempty with ⟨m, furthest, gives⟩
    exact ⟨m, furthest.mem, fun n member => asFar_gt.mp (furthest.asFar n member), gives⟩
  · rcases exists_extremum .min .lt nofun nonempty with ⟨m, furthest, gives⟩
    exact ⟨m, furthest.mem, fun n member => asFar_lt.mp (furthest.asFar n member), gives⟩
  · have isCandidate : arg ∈ candidates args := by rwa [candidates_of_ne_array several]
    exact ⟨extremum_of_not_isNumeric isCandidate noNumber,
      extremum_of_not_isNumeric isCandidate noNumber⟩

/-- Three integers in another order, and a text between two numbers. -/
theorem call_extremum_three :
    (∃ m, call .max [.int 7, .int 3, .int (-2)] = .ok (.int m) ∧
      call .max [.array [.int 7, .int 3, .int (-2)]] = .ok (.int m) ∧
      ∀ n ∈ [3, -2, 7], n ≤ m) ∧
    call .min [.int 3, .string "a", .float 1.5]
      = .error (.invalidArgument .min [.int 3, .string "a", .float 1.5]) := by
  constructor
  · rcases (call_extremum.1 [3, -2, 7] nofun).1 with ⟨m, -, atMost, gives⟩
    have perm : List.Perm [7, 3, -2] ([3, -2, 7] : List Int64) := by decide
    exact ⟨m, (gives _ perm).1, (gives _ perm).2, atMost⟩
  · exact (call_extremum.2 [.int 3, .string "a", .float 1.5] ⟨.string "a", by simp, rfl⟩ nofun).2

end Formulae.Builtin
