import Formulae.Typing.Program

/-!
# Outcomes of checking

Checking ends with a result or with an error, and hands out numbers on the way.
What holds of the outcome whatever the numbers are is said with `Check.Meets`,
which passes through the steps of a check one after the other.
-/

namespace Formulae.Check

universe u

variable {β γ : Type}

/-- The error that checking ended with, if it did. -/
def refusal? : Except TypeError β → Option TypeError
  | .ok _ => none
  | .error error => some error

theorem eq_error_of_refusal? {outcome : Except TypeError β} {error : TypeError}
    (found : refusal? outcome = some error) : outcome = .error error := by
  cases outcome with
  | ok value => cases found
  | error error' =>
      cases found
      rfl

/-- What ends with a result took its steps one after the other. -/
theorem bind_eq_ok_iff {x : Check β} {f : β → Check γ} {next : Nat} {ended : γ × Nat} :
    (x >>= f) next = .ok ended ↔
      ∃ value stop, x next = .ok (value, stop) ∧ f value stop = .ok ended := by
  change (x next >>= fun pair => f pair.1 pair.2) = _ ↔ _
  cases x next with
  | error => exact ⟨nofun, nofun⟩
  | ok pair =>
      constructor
      · exact fun ended => ⟨_, _, rfl, ended⟩
      · rintro ⟨value, stop, isPair, ended⟩
        cases isPair
        exact ended

/-- The check can end with the value, if some number comes next. -/
def Gives (x : Check β) (value : β) : Prop :=
  ∃ next stop, x next = .ok (value, stop)

/-- Whichever number comes next, a result is as `result` says and an error as
`failure` says. -/
def Meets (x : Check β) (result : β → Prop) (failure : TypeError → Prop) : Prop :=
  ∀ next,
    match x next with
    | .ok (value, _) => result value
    | .error error => failure error

variable {result : β → Prop} {failure : TypeError → Prop}

theorem meets_pure {value : β} (h : result value) : Meets (pure value) result failure :=
  fun _ => h

theorem meets_fail {fault : TypeFault} {span : Span} (h : failure ⟨fault, span⟩) :
    Meets (fail fault span : Check β) result failure :=
  fun _ => h

/-- A rule that only rejects. -/
theorem meets_rule (x : Check β) : Meets x (fun _ => True) fun _ => True := by
  intro next
  cases x next <;> trivial

theorem meets_fresh {result : Nat → Prop} (h : ∀ number, result number) :
    Meets fresh result failure :=
  fun next => h next

theorem Meets.bind {x : Check β} {f : β → Check γ} {result' : γ → Prop}
    (first : Meets x result failure)
    (second : ∀ value, result value → Meets (f value) result' failure) :
    Meets (x >>= f) result' failure := by
  intro next
  have outcome := first next
  cases ran : x next with
  | error error =>
      rw [ran] at outcome
      have fails : (x >>= f) next = .error error := by
        simp only [Bind.bind, StateT.bind, Except.bind, ran]
      rw [fails]
      exact outcome
  | ok pair =>
      rw [ran] at outcome
      have continues : (x >>= f) next = f pair.1 pair.2 := by
        simp only [Bind.bind, StateT.bind, Except.bind, ran]
      rw [continues]
      exact second pair.1 outcome pair.2

theorem Meets.mono {x : Check β} {result' : β → Prop} {failure' : TypeError → Prop}
    (meets : Meets x result failure) (results : ∀ value, result value → result' value)
    (failures : ∀ error, failure error → failure' error) : Meets x result' failure' := by
  intro next
  have outcome := meets next
  cases ran : x next with
  | error error =>
      rw [ran] at outcome
      exact failures error outcome
  | ok pair =>
      rw [ran] at outcome
      exact results pair.1 outcome

/-- A result is one that the check gives. -/
theorem Meets.gives {x : Check β} (meets : Meets x result failure) :
    Meets x (Gives x) failure := by
  intro next
  have outcome := meets next
  cases ran : x next with
  | error error =>
      rw [ran] at outcome
      exact outcome
  | ok pair => exact ⟨next, pair.2, ran⟩

theorem Meets.of_gives {x : Check β} (meets : Meets x result failure) {value : β}
    (given : Gives x value) : result value := by
  rcases given with ⟨next, stop, ran⟩
  have outcome := meets next
  rw [ran] at outcome
  exact outcome

/-- What holds of a result for each choice holds for all choices at once. -/
theorem meets_forall {ι : Sort u} {x : Check β} {result : ι → β → Prop}
    (meets : ∀ i, Meets x (result i) fun _ => True) :
    Meets x (fun value => ∀ i, result i value) fun _ => True := by
  intro next
  cases ran : x next with
  | error error => trivial
  | ok pair =>
      intro i
      have outcome := meets i next
      rw [ran] at outcome
      exact outcome

theorem Meets.and {x : Check β} {result' : β → Prop} {failure' : TypeError → Prop}
    (first : Meets x result failure) (second : Meets x result' failure') :
    Meets x (fun value => result value ∧ result' value)
      fun error => failure error ∧ failure' error := by
  intro next
  have outcome := first next
  have outcome' := second next
  cases ran : x next <;> rw [ran] at outcome outcome' <;> exact ⟨outcome, outcome'⟩

theorem Meets.of_ok {x : Check β} (meets : Meets x result failure) {next : Nat} {value : β}
    (ran : x.run' next = .ok value) : result value := by
  have outcome := meets next
  simp only [StateT.run', Functor.map, Except.map] at ran
  cases ended : x next with
  | error error =>
      rw [ended] at ran
      cases ran
  | ok pair =>
      rw [ended] at ran outcome
      cases ran
      exact outcome

theorem Meets.of_error {x : Check β} (meets : Meets x result failure) {next : Nat}
    {error : TypeError} (ran : x.run' next = .error error) : failure error := by
  have outcome := meets next
  simp only [StateT.run', Functor.map, Except.map] at ran
  cases ended : x next with
  | error error =>
      rw [ended] at ran outcome
      cases ran
      exact outcome
  | ok pair =>
      rw [ended] at ran
      cases ran

end Formulae.Check
