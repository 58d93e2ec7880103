import Formulae.Proofs.Value.Ends

/-!
# Steps that leave the machine alone

Steps of a run that end in the same way for all bounds that are large enough, and leave the
machine as they found it.  How they end is said with `Run.Concludes`, which passes from the
steps inside to the step made of them.
-/

namespace Formulae.Run

variable {β γ : Type} {m : Machine}

/-- The step that ends in a certain way and does nothing. -/
def settle (outcome : Except EvalError β) : Run β :=
  match outcome with
  | .ok value => pure value
  | .error error => throw (.failed error)

/-- With a bound that is large enough the step ends so and changes nothing. -/
def Reaches (step : Nat → Run β) (m : Machine) (outcome : Except EvalError β) : Prop :=
  ∃ need, ∀ bound, need ≤ bound → step bound m = settle outcome m

/-- With a bound that is large enough the step ends with a result that is as `good` says or a
failure that is as `bad` says, always the same, and changes nothing. -/
def Concludes (step : Nat → Run β) (m : Machine) (good : β → Prop) (bad : EvalError → Prop) :
    Prop :=
  ∃ outcome, Reaches step m outcome ∧ Ends good bad outcome

variable {step : Nat → Run β} {good good' : β → Prop} {bad bad' : EvalError → Prop}

theorem Reaches.bind {next : Nat → β → Run γ} {value : β} {outcome : Except EvalError γ}
    (first : Reaches step m (.ok value))
    (second : Reaches (fun bound => next bound value) m outcome) :
    Reaches (fun bound => step bound >>= next bound) m outcome := by
  rcases first with ⟨need, reaches⟩
  rcases second with ⟨need', reaches'⟩
  refine ⟨max need need', fun bound enough => ?_⟩
  change EStateM.bind _ _ m = _
  rw [EStateM.bind, reaches bound (by omega)]
  exact reaches' bound (by omega)

theorem Reaches.bind_error {next : Nat → β → Run γ} {error : EvalError}
    (first : Reaches step m (.error error)) :
    Reaches (fun bound => step bound >>= next bound) m (.error error) := by
  rcases first with ⟨need, reaches⟩
  refine ⟨need, fun bound enough => ?_⟩
  change EStateM.bind _ _ m = _
  rw [EStateM.bind, reaches bound enough]
  rfl

/-- A step that takes one nested step more than another one. -/
theorem Reaches.deeper {outer : Nat → Run β} {outcome : Except EvalError β}
    (reaches : Reaches step m outcome) (unfolds : ∀ bound, outer (bound + 1) m = step bound m) :
    Reaches outer m outcome := by
  rcases reaches with ⟨need, reaches⟩
  refine ⟨need + 1, fun bound enough => ?_⟩
  cases bound with
  | zero => omega
  | succ bound =>
      rw [unfolds bound]
      exact reaches bound (by omega)

theorem concludes_pure {value : β} (h : good value) :
    Concludes (fun _ => pure value) m good bad :=
  ⟨.ok value, ⟨0, fun _ _ => rfl⟩, ends_ok h⟩

theorem concludes_fail {fault : EvalFault} {span : Span} (h : bad ⟨fault, span⟩) :
    Concludes (fun _ => (fail fault span : Run β)) m good bad :=
  ⟨.error ⟨fault, span⟩, ⟨0, fun _ _ => rfl⟩, ends_error h⟩

theorem concludes_located {result : Except EvalFault β} {span : Span}
    (ends : Ends good (fun fault => bad ⟨fault, span⟩) result) :
    Concludes (fun _ => located span result) m good bad := by
  cases result with
  | ok value => exact concludes_pure ends
  | error fault => exact concludes_fail ends

theorem Concludes.mono (concludes : Concludes step m good bad) (results : ∀ x, good x → good' x)
    (failures : ∀ e, bad e → bad' e) : Concludes step m good' bad' := by
  rcases concludes with ⟨outcome, reaches, ends⟩
  exact ⟨outcome, reaches, ends.mono results failures⟩

/-- A result is one that the step reaches. -/
theorem Concludes.reached (concludes : Concludes step m good bad) :
    Concludes step m (fun value => good value ∧ Reaches step m (.ok value)) bad := by
  rcases concludes with ⟨outcome, reaches, ends⟩
  refine ⟨outcome, reaches, ?_⟩
  cases outcome with
  | ok value => exact ⟨ends, reaches⟩
  | error error => exact ends

theorem Concludes.bind {next : Nat → β → Run γ} {good' : γ → Prop}
    (first : Concludes step m good bad)
    (second : ∀ value, good value → Concludes (fun bound => next bound value) m good' bad) :
    Concludes (fun bound => step bound >>= next bound) m good' bad := by
  rcases first with ⟨outcome, reaches, ends⟩
  cases outcome with
  | error error => exact ⟨.error error, reaches.bind_error, ends⟩
  | ok value =>
      rcases second value ends with ⟨outcome', reaches', ends'⟩
      exact ⟨outcome', reaches.bind reaches', ends'⟩

theorem Concludes.deeper {outer : Nat → Run β} (concludes : Concludes step m good bad)
    (unfolds : ∀ bound, outer (bound + 1) m = step bound m) : Concludes outer m good bad := by
  rcases concludes with ⟨outcome, reaches, ends⟩
  exact ⟨outcome, reaches.deeper unfolds, ends⟩

end Formulae.Run
