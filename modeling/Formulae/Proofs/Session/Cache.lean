import Formulae.Formula
import Formulae.Proofs.Tree.Unchanged
import Formulae.Proofs.Ty.Agree

/-!
# What is kept of checking

A formula keeps what checking found (`Formula.validated`).  Whatever is done with a formula,
what is kept is what checking the present tree against the types it is kept for would find
(`Formula.keepsRight_after`), so that no answer depends on it (`Formula.answers_uncached`).
-/

namespace Formulae.Formula

/-- What can be done with a formula. -/
inductive Step
  | setVariable (name : String) (value : Value)
  | removeVariable (name : String)
  | setMethod (name : String) (method : HostFunction)
  | rename (r : Renaming)
  | requote (old new : String)
  | setCancelled (cancelled : Bool)
  | resultType
  | calculate
  | print (config : PrintConfig)
  | freeVariables
  | freeMethods
  | strings

/-- What a step answers. -/
inductive Answer
  | done
  | removed (value : Option Value)
  | changed (places : Nat)
  | type (result : Except FormulaError Ty)
  | value (result : Except FormulaError Value)
  | text (text : String)
  | names (names : List String)

/-- Take one step, with the functions supplied from outside and a bound on calculations. -/
def step (hosts : Hosts) (bound : Nat) (f : Formula) : Step → Answer × Formula
  | .setVariable name value => (.done, f.setVariable name value)
  | .removeVariable name => (f.removeVariable name).map .removed id
  | .setMethod name method => (.done, f.setMethod name method)
  | .rename r => (f.rename r).map .changed id
  | .requote old new => (f.requote old new).map .changed id
  | .setCancelled cancelled => (.done, f.setCancelled cancelled)
  | .resultType => f.resultType.map .type id
  | .calculate => (f.calculate hosts bound).map .value id
  | .print config => (.text (f.print config), f)
  | .freeVariables => (.names f.freeVariables, f)
  | .freeMethods => (.names f.freeMethods, f)
  | .strings => (.names f.strings, f)

section

variable (hosts : Hosts) (bound : Nat)

/-- The formula after some steps. -/
def after (f : Formula) (steps : List Step) : Formula :=
  steps.foldl (fun f s => (f.step hosts bound s).2) f

/-- The answers to some steps. -/
def answers (f : Formula) : List Step → List Answer
  | [] => []
  | s :: rest => (f.step hosts bound s).1 :: answers (f.step hosts bound s).2 rest

/-- The formula without what is kept of checking. -/
def uncached (f : Formula) : Formula :=
  { f with validated := none }

/-- The answers of a formula that keeps nothing from one step to the next. -/
def uncachedAnswers (f : Formula) : List Step → List Answer
  | [] => []
  | s :: rest =>
      (f.uncached.step hosts bound s).1 :: uncachedAnswers (f.uncached.step hosts bound s).2 rest

end

/-- What is kept is what checking the formula against the types it is kept for finds. -/
def KeepsRight (f : Formula) : Prop :=
  ∀ kept, f.validated = some kept → f.validateAgainst kept.bindings = .ok kept

variable {f g : Formula} {hosts : Hosts} {bound : Nat}

theorem eq_of_sameBindings {bindings others : List (String × Ty)}
    (same : sameBindings bindings others) : bindings = others := by
  induction bindings generalizing others with
  | nil =>
      cases others with
      | nil => rfl
      | cons => cases same
  | cons binding rest inductionHypothesis =>
      cases others with
      | nil => cases same
      | cons other others =>
          simp only [sameBindings, Bool.and_eq_true, decide_eq_true_eq] at same
          rw [inductionHypothesis same.2, Prod.ext same.1.1 (Ty.same_iff.mp same.1.2)]

/-- What is kept makes no difference to what checking finds. -/
theorem validate_eq (right : f.KeepsRight) : f.validate = f.validateAgainst f.bindingTypes := by
  unfold validate
  cases cached : f.validated with
  | none => rfl
  | some kept =>
      dsimp only
      split
      · next same => rw [← eq_of_sameBindings same, right kept cached]
      · rfl

theorem keepsRight_uncached (f : Formula) : f.uncached.KeepsRight :=
  fun _ cached => nomatch cached

theorem validate_uncached (right : f.KeepsRight) : f.uncached.validate = f.validate := by
  rw [validate_eq right, validate_eq (keepsRight_uncached f)]
  rfl

/-- What checking found may be kept. -/
theorem right_of_validate (right : f.KeepsRight) {kept : Validated}
    (found : f.validate = .ok kept) : f.validateAgainst kept.bindings = .ok kept := by
  rw [validate_eq right] at found
  have given : kept.bindings = f.bindingTypes := by
    unfold validateAgainst at found
    cases checked : f.program.check (globals f.bindingTypes) with
    | error e =>
        rw [checked] at found
        cases found
    | ok program =>
        rw [checked] at found
        cases found
        rfl
  rw [given, found]

theorem keepsRight_changed (right : f.KeepsRight) {change : Nat × Program Unit}
    (unchanged : change.1 = 0 → change.2 = f.program) : (f.changed change).2.KeepsRight := by
  obtain ⟨count, program⟩ := change
  intro kept cached
  by_cases none : count = 0
  · have same : program = f.program := unchanged none
    subst same
    rw [changed, if_pos none] at cached
    exact right kept cached
  · rw [changed, if_neg none] at cached
    cases cached

theorem keepsRight_step (right : f.KeepsRight) (s : Step) : (f.step hosts bound s).2.KeepsRight := by
  cases s with
  | rename r => exact keepsRight_changed right Program.rename_of_count_eq_zero
  | requote old new => exact keepsRight_changed right Program.requote_of_count_eq_zero
  | resultType =>
      simp only [step, resultType]
      cases found : f.validate with
      | error e => exact fun _ cached => nomatch cached
      | ok kept =>
          rintro _ ⟨⟩
          exact right_of_validate right found
  | calculate =>
      simp only [step, calculate]
      cases f.unbound? with
      | some e => exact right
      | none =>
          cases found : f.validate with
          | error e => exact fun _ cached => nomatch cached
          | ok kept =>
              rintro _ ⟨⟩
              exact right_of_validate right found
  | setVariable | removeVariable | setMethod | setCancelled | print | freeVariables
  | freeMethods | strings => exact right

theorem keepsRight_after (right : f.KeepsRight) (steps : List Step) :
    (f.after hosts bound steps).KeepsRight := by
  induction steps generalizing f with
  | nil => exact right
  | cons s rest inductionHypothesis => exact inductionHypothesis (keepsRight_step right s)

/-- What is kept makes no difference to a step. -/
theorem step_uncached (right : f.KeepsRight) (s : Step) :
    (f.uncached.step hosts bound s).1 = (f.step hosts bound s).1 ∧
      (f.uncached.step hosts bound s).2.uncached = (f.step hosts bound s).2.uncached := by
  cases s with
  | resultType =>
      simp only [step, resultType, validate_uncached right]
      cases f.validate <;> exact ⟨rfl, rfl⟩
  | calculate =>
      have sameUnbound : f.uncached.unbound? = f.unbound? := rfl
      simp only [step, calculate, validate_uncached right, sameUnbound]
      cases f.unbound? with
      | some e => exact ⟨rfl, rfl⟩
      | none => cases f.validate <;> exact ⟨rfl, rfl⟩
  | rename | requote | setVariable | removeVariable | setMethod | setCancelled | print | freeVariables
  | freeMethods | strings => exact ⟨rfl, rfl⟩

/-- Formulas that differ only in what they keep give the same answers. -/
theorem answers_congr (right : f.KeepsRight) (right' : g.KeepsRight)
    (same : f.uncached = g.uncached) (steps : List Step) :
    f.answers hosts bound steps = g.answers hosts bound steps := by
  induction steps generalizing f g with
  | nil => rfl
  | cons s rest inductionHypothesis =>
      rcases step_uncached right s with ⟨answer, state⟩
      rcases step_uncached right' s with ⟨answer', state'⟩
      rw [same] at answer state
      rw [answers, answers, ← answer, ← answer',
        inductionHypothesis (keepsRight_step right s) (keepsRight_step right' s)
          (state.symm.trans state')]

/-- No answer depends on what is kept of checking. -/
theorem answers_uncached (right : f.KeepsRight) (steps : List Step) :
    f.answers hosts bound steps = f.uncachedAnswers hosts bound steps := by
  induction steps generalizing f with
  | nil => rfl
  | cons s rest inductionHypothesis =>
      rcases step_uncached right s with ⟨answer, state⟩
      have right' : (f.uncached.step hosts bound s).2.KeepsRight :=
        keepsRight_step (keepsRight_uncached f) s
      rw [answers, uncachedAnswers, answer, ← inductionHypothesis right',
        answers_congr right' (keepsRight_step right s) state]

theorem answers_append (f : Formula) (first second : List Step) :
    f.answers hosts bound (first ++ second) =
      f.answers hosts bound first ++ (f.after hosts bound first).answers hosts bound second := by
  induction first generalizing f with
  | nil => rfl
  | cons s rest inductionHypothesis =>
      rw [List.cons_append, answers, answers, inductionHypothesis]
      rfl

@[simp]
theorem length_answers (f : Formula) (steps : List Step) :
    (f.answers hosts bound steps).length = steps.length := by
  induction steps generalizing f with
  | nil => rfl
  | cons s rest inductionHypothesis => simp [answers, inductionHypothesis]

/-- The answers to the other steps when a step is among them. -/
theorem eraseIdx_answers (f : Formula) (first second : List Step) (s : Step) :
    (f.answers hosts bound (first ++ s :: second)).eraseIdx first.length =
      f.answers hosts bound first ++
        ((f.after hosts bound first).step hosts bound s).2.answers hosts bound second := by
  rw [answers_append, answers, List.eraseIdx_append_of_length_le (by simp)]
  simp

/-- Asking for the type of the result changes no other answer. -/
theorem answers_without_resultType (right : f.KeepsRight) (first second : List Step) :
    (f.answers hosts bound (first ++ .resultType :: second)).eraseIdx first.length =
      f.answers hosts bound (first ++ second) := by
  rw [eraseIdx_answers, answers_append]
  congr 1
  have before : (f.after hosts bound first).KeepsRight := keepsRight_after right first
  apply answers_congr (keepsRight_step before _) before
  simp only [step, resultType]
  cases (f.after hosts bound first).validate <;> rfl

/-! ## Variables and methods -/

/-- No name is bound both as a variable and as a method. -/
def Apart (f : Formula) : Prop :=
  ∀ name, ¬ (name ∈ f.inputs.map Prod.fst ∧ name ∈ f.methods.map Prod.fst)

theorem mem_without {β : Type} {bindings : List (String × β)} {name other : String} :
    other ∈ (without bindings name).map Prod.fst ↔
      other ∈ bindings.map Prod.fst ∧ other ≠ name := by
  simp only [without, List.mem_map, List.mem_filter, bne_iff_ne, Prod.exists,
    exists_and_right, exists_eq_right]

theorem apart_step (apart : f.Apart) (s : Step) : (f.step hosts bound s).2.Apart := by
  have same {g : Formula} (inputs : g.inputs = f.inputs) (methods : g.methods = f.methods) :
      g.Apart := fun name => inputs ▸ methods ▸ apart name
  cases s with
  | setVariable name value =>
      rintro other ⟨isInput, isMethod⟩
      rcases mem_without.mp isMethod with ⟨isMethod, different⟩
      rcases List.mem_cons.mp isInput with isName | isInput
      · exact different isName
      · exact apart other ⟨(mem_without.mp isInput).1, isMethod⟩
  | removeVariable name =>
      rintro other ⟨isInput, isMethod⟩
      exact apart other ⟨(mem_without.mp isInput).1, isMethod⟩
  | setMethod name method =>
      rintro other ⟨isInput, isMethod⟩
      rcases mem_without.mp isInput with ⟨isInput, different⟩
      rcases List.mem_cons.mp isMethod with isName | isMethod
      · exact different isName
      · exact apart other ⟨isInput, (mem_without.mp isMethod).1⟩
  | resultType =>
      simp only [step, resultType]
      cases f.validate <;> exact same rfl rfl
  | calculate =>
      simp only [step, calculate]
      cases f.unbound? with
      | some e => exact same rfl rfl
      | none => cases f.validate <;> exact same rfl rfl
  | rename | requote | setCancelled | print | freeVariables | freeMethods | strings => exact same rfl rfl

theorem apart_after (apart : f.Apart) (steps : List Step) : (f.after hosts bound steps).Apart := by
  induction steps generalizing f with
  | nil => exact apart
  | cons s rest inductionHypothesis => exact inductionHypothesis (apart_step apart s)

/-! ## Formulas as they are read -/

/-- A formula that was just read has no bindings and keeps nothing. -/
theorem fresh_of_ofSource {source : String} (read : ofSource source = .ok f) :
    f.inputs = [] ∧ f.methods = [] ∧ f.validated = none := by
  unfold ofSource at read
  cases lexed : Lexer.tokenize source with
  | error e =>
      rw [lexed] at read
      cases read
  | ok tokens =>
      rw [lexed] at read
      change ((Parser.parse tokens).mapError _ >>= _) = _ at read
      cases parsed : Parser.parse tokens with
      | error e =>
          rw [parsed] at read
          cases read
      | ok p =>
          rw [parsed] at read
          cases read
          exact ⟨rfl, rfl, rfl⟩

theorem keepsRight_of_ofSource {source : String} (read : ofSource source = .ok f) :
    f.KeepsRight := by
  intro kept cached
  rw [(fresh_of_ofSource read).2.2] at cached
  cases cached

theorem apart_of_ofSource {source : String} (read : ofSource source = .ok f) : f.Apart := by
  rintro name ⟨isInput, _⟩
  rw [(fresh_of_ofSource read).1] at isInput
  cases isInput

end Formulae.Formula
