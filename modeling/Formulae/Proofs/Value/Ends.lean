import Formulae.Run.Eval

/-!
# How a computation on values ends

A computation ends with a result or with a fault.  What holds of either is said with
`Ends`, which passes through the steps of a computation.
-/

namespace Formulae

variable {α β ε ε' : Type} {good : α → Prop} {bad : ε → Prop}

/-- A result is as `good` says and a fault as `bad` says. -/
def Ends (good : α → Prop) (bad : ε → Prop) : Except ε α → Prop
  | .ok x => good x
  | .error e => bad e

theorem ends_ok {x : α} (h : good x) : Ends good bad (.ok x) :=
  h

theorem ends_error {e : ε} (h : bad e) : Ends good bad (.error e) :=
  h

theorem Ends.bind {result : Except ε α} {f : α → Except ε β} {good' : β → Prop}
    (first : Ends good bad result) (second : ∀ x, good x → Ends good' bad (f x)) :
    Ends good' bad (result >>= f) := by
  cases result with
  | ok x => exact second x first
  | error e => exact first

theorem Ends.map {result : Except ε α} {f : α → β} {good' : β → Prop}
    (first : Ends good bad result) (h : ∀ x, good x → good' (f x)) :
    Ends good' bad (result.map f) := by
  cases result with
  | ok x => exact h x first
  | error e => exact first

theorem Ends.mono {result : Except ε α} {good' : α → Prop} {bad' : ε → Prop}
    (ends : Ends good bad result) (results : ∀ x, good x → good' x)
    (faults : ∀ e, bad e → bad' e) : Ends good' bad' result := by
  cases result with
  | ok x => exact results x ends
  | error e => exact faults e ends

theorem Ends.and {result : Except ε α} {good' : α → Prop} {bad' : ε → Prop}
    (first : Ends good bad result) (second : Ends good' bad' result) :
    Ends (fun x => good x ∧ good' x) (fun e => bad e ∧ bad' e) result := by
  cases result <;> exact ⟨first, second⟩

theorem Ends.of_ok {result : Except ε α} (ends : Ends good bad result) {x : α}
    (given : result = .ok x) : good x := by
  subst given
  exact ends

theorem Ends.of_error {result : Except ε α} (ends : Ends good bad result) {e : ε}
    (given : result = .error e) : bad e := by
  subst given
  exact ends

theorem ends_mapM {f : α → Except ε β} {good' : β → Prop} {xs : List α}
    (each : ∀ x ∈ xs, Ends good' bad (f x)) :
    Ends (fun ys => ∀ y ∈ ys, good' y) bad (xs.mapM f) := by
  induction xs with
  | nil => exact ends_ok nofun
  | cons x rest inductionHypothesis =>
      rw [List.mapM_cons]
      apply (each x List.mem_cons_self).bind
      intro y first
      apply (inductionHypothesis fun x member => each x (List.mem_cons_of_mem _ member)).bind
      exact fun ys others => ends_ok (List.forall_mem_cons.mpr ⟨first, others⟩)

/-- A fault that is given a place. -/
theorem Ends.locate {result : Except EvalFault α} {bad : EvalFault → Prop} {span : Span}
    (ends : Ends good bad result) :
    Ends good (fun e => bad e.fault) (Value.locate span result) := by
  cases result with
  | ok x => exact ends
  | error fault => exact ends

/-!
## Element by element

Operators on arrays do one thing for each element, or for each pair of elements, in order
(`Value.spreadAll_eq_mapM`, `Value.arithmeticAll_eq_mapM`, `Value.negatedAll_eq_mapM`), and
give as many results as there are elements.
-/

theorem ends_length_mapM (f : α → Except ε β) (xs : List α) :
    Ends (fun ys => ys.length = xs.length) (fun _ => True) (xs.mapM f) := by
  induction xs with
  | nil => exact ends_ok rfl
  | cons x rest inductionHypothesis =>
      rw [List.mapM_cons]
      have first : Ends (fun _ => True) (fun _ => True) (f x) := by cases f x <;> trivial
      apply first.bind
      intro y _
      apply inductionHypothesis.bind
      intro ys sized
      exact ends_ok (congrArg Nat.succ sized)

/-- The first fault is the outcome. -/
theorem mapM_error_of_head {f : α → Except ε β} {x : α} {xs : List α} {e : ε}
    (fails : f x = .error e) : (x :: xs).mapM f = .error e := by
  rw [List.mapM_cons, fails]
  rfl

/-- A fault is that of some element. -/
theorem exists_of_mapM_error {f : α → Except ε β} {xs : List α} {e : ε}
    (fails : xs.mapM f = .error e) : ∃ x ∈ xs, f x = .error e := by
  induction xs with
  | nil => cases fails
  | cons x rest inductionHypothesis =>
      rw [List.mapM_cons] at fails
      cases first : f x with
      | error e' =>
          rw [first] at fails
          cases fails
          exact ⟨x, List.mem_cons_self, first⟩
      | ok y =>
          cases others : rest.mapM f with
          | error e' =>
              rw [first, others] at fails
              cases fails
              rcases inductionHypothesis others with ⟨x', member, fails⟩
              exact ⟨x', List.mem_cons_of_mem _ member, fails⟩
          | ok ys =>
              rw [first, others] at fails
              cases fails

/-- If nothing fails there is a result, and if nothing is changed either it is the list. -/
theorem mapM_ok_of_each {f : α → Except ε α} {xs : List α} {unchanged : Prop}
    (each : ∀ x ∈ xs, ∃ y, f x = .ok y ∧ (unchanged → y = x)) :
    ∃ ys, xs.mapM f = .ok ys ∧ (unchanged → ys = xs) := by
  induction xs with
  | nil => exact ⟨[], rfl, fun _ => rfl⟩
  | cons x rest inductionHypothesis =>
      rw [List.forall_mem_cons] at each
      rcases each.1 with ⟨y, first, same⟩
      rcases inductionHypothesis each.2 with ⟨ys, others, sameAll⟩
      refine ⟨y :: ys, ?_, fun h => by rw [same h, sameAll h]⟩
      rw [List.mapM_cons, first, others]
      rfl

namespace Value

variable {op : Operator}

theorem spreadAll_eq_mapM (right : Value) (lefts : List Value) :
    spreadAll op right lefts = lefts.mapM (spread op right) := by
  induction lefts with
  | nil => rfl
  | cons left rest inductionHypothesis =>
      rw [spreadAll, List.mapM_cons, inductionHypothesis]

theorem arithmeticAll_eq_mapM (lefts rights : List Value) :
    arithmeticAll op lefts rights =
      (lefts.zip rights).mapM fun pair => arithmetic op pair.1 pair.2 := by
  induction lefts generalizing rights with
  | nil => cases rights <;> rfl
  | cons left lefts inductionHypothesis =>
      cases rights with
      | nil => rfl
      | cons right rights =>
          rw [arithmeticAll, List.zip_cons_cons, List.mapM_cons, inductionHypothesis]

theorem negatedAll_eq_mapM (operands : List Value) :
    negatedAll operands = operands.mapM negated := by
  induction operands with
  | nil => rfl
  | cons operand rest inductionHypothesis =>
      rw [negatedAll, List.mapM_cons, inductionHypothesis]

end Value

end Formulae
