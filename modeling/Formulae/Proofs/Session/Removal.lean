import Formulae.Proofs.Run.Repeated
import Formulae.Proofs.Session.Cache
import Mathlib

/-!
# Steps that leave no trace

A calculation leaves new frames and functions in the store.  As long as no function of an
earlier calculation is bound, later answers do not depend on them but for the numbers of
functions, and so any calculation may be left out (`Formula.answers_without_calculate`).  A
function that is bound brings its variables along, and then it may not
(`Formula.calculate_counts`).
-/

namespace Formulae.Formula

/-- The answers are the same but for the numbers of functions in a calculated value. -/
inductive Answer.Alike : Answer → Answer → Prop
  | same (answer : Answer) : Alike answer answer
  | value (r : Renumbering) (outcome : Except Stop Value) :
      Alike (.value (outcome.mapError .ofStop))
        (.value ((Machine.renumbered r outcome).mapError .ofStop))

/-- The answers are the same, or both are calculated values. -/
inductive Answer.Matches : Answer → Answer → Prop
  | same (answer : Answer) : Matches answer answer
  | value (result result' : Except FormulaError Value) : Matches (.value result) (.value result')

/-- The step binds no function that was declared in a formula. -/
def Step.BindsNoFunction : Step → Prop
  | .setVariable _ value => value.Functions fun _ => False
  | _ => True

/-- No function that was declared in a formula is bound. -/
def BindsNoFunction (f : Formula) : Prop :=
  ∀ entry ∈ f.inputs, entry.2.Functions fun _ => False

/-- The formulas are the same but for the stores and what they keep of checking. -/
structure Agrees (f g : Formula) : Prop where
  same : g = { f with store := g.store, validated := g.validated }
  right : f.KeepsRight
  right' : g.KeepsRight

/-- Moreover the second one made no fewer frames and functions before, and no function of a
formula is bound. -/
structure Trails (f g : Formula) : Prop extends f.Agrees g where
  frames : f.store.frames.size ≤ g.store.frames.size
  declared : f.store.declared ≤ g.store.declared
  plain : f.BindsNoFunction

variable {f g : Formula} {hosts : Hosts} {bound : Nat}

/-! ## Machines for a calculation -/

/-- A frame with bindings from outside above the ones that are there. -/
def bindAll (frame : Frame) (values : List (String × Value)) : Frame :=
  values.foldl (fun frame entry => frame.define entry.1 ⟨entry.2, false⟩) frame

theorem bindAll_plain {frame : Frame} {values : List (String × Value)}
    (every : ∀ entry ∈ frame.bindings, entry.2.value.Functions fun _ => False)
    (plain : ∀ entry ∈ values, entry.2.Functions fun _ => False) :
    ∀ entry ∈ (bindAll frame values).bindings, entry.2.value.Functions fun _ => False := by
  induction values generalizing frame with
  | nil => exact every
  | cons first rest inductionHypothesis =>
      rw [List.forall_mem_cons] at plain
      refine inductionHypothesis (fun entry member => ?_) plain.2
      rcases List.mem_cons.mp member with rfl | older
      · exact plain.1
      · exact every entry (List.mem_filter.mp older).1

/-- Binding values from outside changes the global frame only. -/
theorem machine_bindAll {m : Machine} {frame : Frame}
    (found : m.store.frames[m.env.global]? = some frame) (values : List (String × Value)) :
    let bound := values.foldl (fun m entry => m.defineGlobal entry.1 entry.2) m
    (m.Prepared → bound.Prepared) ∧ bound.env = m.env ∧
      bound.store.frames[m.env.global]? = some (bindAll frame values) ∧
      bound.store.frames.size = m.store.frames.size ∧
      bound.store.declared = m.store.declared := by
  induction values generalizing m frame with
  | nil => exact ⟨id, rfl, found, rfl, rfl⟩
  | cons entry rest inductionHypothesis =>
      have defined : (m.defineGlobal entry.1 entry.2).store.frames[m.env.global]? =
          some (frame.define entry.1 ⟨entry.2, false⟩) := by
        rw [Machine.defineGlobal, Store.define, Store.modify, Array.getElem?_modify, if_pos rfl, found]
        rfl
      rcases inductionHypothesis (m := m.defineGlobal entry.1 entry.2) defined with
        ⟨prepared, env, global, frames, declared⟩
      refine ⟨fun before => prepared (.defineGlobal _ _ before), env, global, ?_, declared⟩
      exact frames.trans (Store.size_define _ _ _ _)

theorem found_atop (store : Store) :
    (Machine.atop store).store.frames[store.frames.size]? = some (Frame.empty none) := by
  simp [Machine.atop, Store.push]

theorem prepared_machine (f : Formula) : f.machine.Prepared :=
  (machine_bindAll (m := Machine.atop f.store) (found_atop f.store) f.values).1 (.atop f.store)

theorem plain_values (plain : f.BindsNoFunction) :
    ∀ entry ∈ f.values, entry.2.Functions fun _ => False := by
  intro entry member
  rcases List.mem_append.mp member with isInput | isMethod
  · exact plain entry isInput
  · rcases List.mem_map.mp isMethod with ⟨⟨name, method⟩, _, rfl⟩
    exact Value.functions_host method

/-- Two formulas with the same bindings calculate on machines that are alike. -/
theorem moved_machine (values : g.values = f.values) (plain : f.BindsNoFunction)
    (frames : f.store.frames.size ≤ g.store.frames.size)
    (declared : f.store.declared ≤ g.store.declared) :
    ∃ r : Relocation, r.Moved f.machine g.machine := by
  rcases machine_bindAll (m := Machine.atop f.store) (found_atop f.store) f.values with
    ⟨prepared, env, global, size, count⟩
  rcases machine_bindAll (m := Machine.atop g.store) (found_atop g.store) f.values with
    ⟨prepared', env', global', size', count'⟩
  have machine : g.machine = f.values.foldl (fun m entry => m.defineGlobal entry.1 entry.2)
      (Machine.atop g.store) := values ▸ rfl
  rw [machine]
  rw [← env] at global
  rw [← env'] at global'
  refine ⟨_, Machine.moved_of_ready (prepared (.atop _)).ready (prepared' (.atop _)).ready
    (global'.trans global.symm) ?_ ?_ ?_⟩
  · rw [size, size']
    simp only [Machine.atop, Store.size_push]
    exact Nat.succ_le_succ frames
  · rw [count, count']
    exact declared
  · intro frame found
    cases global.symm.trans found
    exact bindAll_plain (List.forall_mem_nil _) (plain_values plain)

/-! ## Steps -/

theorem plain_step (plain : f.BindsNoFunction) {s : Step} (binds : s.BindsNoFunction) :
    (f.step hosts bound s).2.BindsNoFunction := by
  have kept (name : String) : ∀ entry ∈ without f.inputs name, entry.2.Functions fun _ => False :=
    fun entry member => plain entry (List.mem_filter.mp member).1
  cases s with
  | setVariable name value => exact List.forall_mem_cons.mpr ⟨binds, kept name⟩
  | removeVariable name => exact kept name
  | setMethod name method => exact kept name
  | resultType =>
      simp only [step, resultType]
      cases f.validate <;> exact plain
  | calculate =>
      simp only [step, calculate]
      cases f.unbound? with
      | some e => exact plain
      | none => cases f.validate <;> exact plain
  | rename | requote | setCancelled | print | freeVariables | freeMethods | strings => exact plain

/-- Only calculations make frames and functions. -/
theorem store_step {s : Step} (other : s ≠ .calculate) : (f.step hosts bound s).2.store = f.store := by
  cases s with
  | calculate => exact absurd rfl other
  | resultType =>
      simp only [step, resultType]
      cases f.validate <;> rfl
  | setVariable | removeVariable | setMethod | rename | requote | setCancelled | print
  | freeVariables | freeMethods | strings => rfl

theorem after_calculate (f : Formula) : ∃ store validated,
    (f.calculate hosts bound).2 = { f with store, validated } := by
  unfold calculate
  cases f.unbound? with
  | some e => exact ⟨f.store, f.validated, rfl⟩
  | none => cases f.validate <;> exact ⟨_, _, rfl⟩

theorem validate_agrees (agrees : f.Agrees g) : g.validate = f.validate := by
  rw [validate_eq agrees.right, validate_eq agrees.right', agrees.same]
  rfl

/-- Apart from calculations, every step gives the same on both. -/
theorem step_agrees (agrees : f.Agrees g) (s : Step) :
    (f.step hosts bound s).2.Agrees (g.step hosts bound s).2 ∧
      (s ≠ .calculate → (f.step hosts bound s).1 = (g.step hosts bound s).1) := by
  have right : (f.step hosts bound s).2.KeepsRight := keepsRight_step agrees.right s
  have right' : (g.step hosts bound s).2.KeepsRight := keepsRight_step agrees.right' s
  suffices same : (g.step hosts bound s).2 = { (f.step hosts bound s).2 with
        store := (g.step hosts bound s).2.store, validated := (g.step hosts bound s).2.validated } ∧
      (s ≠ .calculate → (f.step hosts bound s).1 = (g.step hosts bound s).1) from
    ⟨⟨same.1, right, right'⟩, same.2⟩
  cases s with
  | calculate =>
      refine ⟨?_, fun other => absurd rfl other⟩
      dsimp only [step, Prod.map, id]
      rcases after_calculate f with ⟨_, _, state⟩
      rcases after_calculate g with ⟨_, _, state'⟩
      rw [state, state', agrees.same]
  | resultType =>
      dsimp only [step, resultType, Prod.map, id]
      rw [validate_agrees agrees]
      cases f.validate with
      | ok kept | error e =>
          refine ⟨?_, fun _ => rfl⟩
          dsimp only
          rw [agrees.same]
  | setVariable | removeVariable | setMethod | rename | requote | setCancelled | print
  | freeVariables | freeMethods | strings =>
      rw [agrees.same]
      exact ⟨rfl, fun _ => rfl⟩

theorem answers_agrees (agrees : f.Agrees g) (steps : List Step) :
    List.Forall₂ Answer.Matches (f.answers hosts bound steps) (g.answers hosts bound steps) := by
  induction steps generalizing f g with
  | nil => exact .nil
  | cons s rest inductionHypothesis =>
      rcases step_agrees agrees s with ⟨agrees, answer⟩
      refine .cons ?_ (inductionHypothesis agrees)
      cases s with
      | calculate => exact .value _ _
      | _ =>
          rw [answer nofun]
          exact .same _

/-! ## Calculations -/

/-- What a calculation needs to know, apart from its machine. -/
def setting (f : Formula) (hosts : Hosts) (kept : Validated) : Setting Ty :=
  { kept.program.setting f.names hosts with cancelled := f.cancelled }

theorem evaluate_eq (f : Formula) (hosts : Hosts) (bound : Nat) (kept : Validated) :
    f.evaluate hosts bound kept =
      ((f.machine.run (f.setting hosts kept) bound kept.program).1.mapError .ofStop,
        { f with
          store := (f.machine.run (f.setting hosts kept) bound kept.program).2.store
          validated := some kept }) :=
  rfl

theorem setting_agrees (agrees : f.Agrees g) (kept : Validated) :
    g.setting hosts kept = f.setting hosts kept := by
  rw [agrees.same]
  rfl

theorem values_agrees (agrees : f.Agrees g) : g.values = f.values := by
  rw [agrees.same]
  rfl

theorem unbound?_agrees (agrees : f.Agrees g) : g.unbound? = f.unbound? := by
  rw [agrees.same]
  rfl

/-- A calculation gives the same on both but for the numbers of functions. -/
theorem calculate_trails (blind : Blind hosts) (trails : f.Trails g) :
    Answer.Alike (.value (f.calculate hosts bound).1) (.value (g.calculate hosts bound).1) ∧
      (f.calculate hosts bound).2.store.frames.size ≤
        (g.calculate hosts bound).2.store.frames.size ∧
      (f.calculate hosts bound).2.store.declared ≤ (g.calculate hosts bound).2.store.declared := by
  have agrees := trails.toAgrees
  unfold calculate
  rw [unbound?_agrees agrees, validate_agrees agrees]
  cases f.unbound? with
  | some e => exact ⟨.same _, trails.frames, trails.declared⟩
  | none =>
      cases f.validate with
      | error e => exact ⟨.same _, trails.frames, trails.declared⟩
      | ok kept =>
          rcases moved_machine (values_agrees agrees) trails.plain trails.frames trails.declared
            with ⟨r, moved⟩
          have blind : Blind (f.setting hosts kept).hosts := blind
          rcases Machine.run_moved moved blind bound kept.program with ⟨outcome, moved⟩
          dsimp only
          rw [evaluate_eq, evaluate_eq, setting_agrees agrees, outcome]
          refine ⟨.value r.renumbering _, ?_, ?_⟩
          · dsimp only
            rw [moved.store.size]
            exact Nat.le_add_right _ _
          · dsimp only
            rw [moved.store.declared]
            exact Nat.le_add_right _ _

/-- Every step gives the same on both but for the numbers of functions. -/
theorem step_trails (blind : Blind hosts) (trails : f.Trails g) {s : Step}
    (binds : s.BindsNoFunction) :
    Answer.Alike (f.step hosts bound s).1 (g.step hosts bound s).1 ∧
      (f.step hosts bound s).2.Trails (g.step hosts bound s).2 := by
  rcases step_agrees trails.toAgrees s with ⟨agrees, answer⟩
  have plain : (f.step hosts bound s).2.BindsNoFunction := plain_step trails.plain binds
  by_cases isCalculate : s = .calculate
  · subst isCalculate
    have calculated := @calculate_trails f g hosts bound blind trails
    rcases calculated with ⟨alike, frames, declared⟩
    exact ⟨alike, agrees, frames, declared, plain⟩
  · rw [answer isCalculate]
    refine ⟨.same _, agrees, ?_, ?_, plain⟩
    · rw [store_step isCalculate, store_step isCalculate]
      exact trails.frames
    · rw [store_step isCalculate, store_step isCalculate]
      exact trails.declared

theorem answers_trails (blind : Blind hosts) (trails : f.Trails g) {steps : List Step}
    (bind : ∀ s ∈ steps, s.BindsNoFunction) :
    List.Forall₂ Answer.Alike (f.answers hosts bound steps) (g.answers hosts bound steps) := by
  induction steps generalizing f g with
  | nil => exact .nil
  | cons s rest inductionHypothesis =>
      rw [List.forall_mem_cons] at bind
      rcases step_trails blind trails bind.1 with ⟨alike, trails⟩
      exact .cons alike (inductionHypothesis trails bind.2)

/-! ## Leaving a calculation out -/

theorem agrees_calculate (right : f.KeepsRight) : f.Agrees (f.step hosts bound .calculate).2 := by
  refine ⟨?_, right, keepsRight_step right _⟩
  dsimp only [step, Prod.map, id]
  rcases after_calculate f with ⟨_, _, state⟩
  rw [state]

theorem grows_calculate (f : Formula) :
    f.store.frames.size ≤ (f.calculate hosts bound).2.store.frames.size ∧
      f.store.declared ≤ (f.calculate hosts bound).2.store.declared := by
  unfold calculate
  cases f.unbound? with
  | some e => exact ⟨Nat.le_refl _, Nat.le_refl _⟩
  | none =>
      cases f.validate with
      | error e => exact ⟨Nat.le_refl _, Nat.le_refl _⟩
      | ok kept =>
          rcases machine_bindAll (m := Machine.atop f.store) (found_atop f.store) f.values with
            ⟨_, _, _, size, count⟩
          have left := (Machine.left_run (prepared_machine f).ready.guards (f.setting hosts kept)
            bound kept.program).1
          have sizes : f.store.frames.size ≤ f.machine.store.frames.size :=
            size ▸ (Store.size_push f.store none).symm ▸ Nat.le_succ _
          exact ⟨Nat.le_trans sizes left.frames, count ▸ left.declared⟩

theorem trails_calculate (right : f.KeepsRight) (plain : f.BindsNoFunction) :
    f.Trails (f.step hosts bound .calculate).2 :=
  ⟨agrees_calculate right, (grows_calculate f).1, (grows_calculate f).2, plain⟩

theorem plain_after (plain : f.BindsNoFunction) {steps : List Step}
    (bind : ∀ s ∈ steps, s.BindsNoFunction) : (f.after hosts bound steps).BindsNoFunction := by
  induction steps generalizing f with
  | nil => exact plain
  | cons s rest inductionHypothesis =>
      rw [List.forall_mem_cons] at bind
      exact inductionHypothesis (plain_step plain bind.1) bind.2

/-- Without a calculation the other answers stay as they were. -/
theorem answers_without_calculate (right : f.KeepsRight) (first second : List Step) :
    List.Forall₂ Answer.Matches (f.answers hosts bound (first ++ second))
        ((f.answers hosts bound (first ++ .calculate :: second)).eraseIdx first.length) ∧
      (Blind hosts → f.BindsNoFunction → (∀ s ∈ first ++ second, s.BindsNoFunction) →
        List.Forall₂ Answer.Alike (f.answers hosts bound (first ++ second))
          ((f.answers hosts bound (first ++ .calculate :: second)).eraseIdx first.length)) := by
  have right : (f.after hosts bound first).KeepsRight := keepsRight_after right first
  rw [eraseIdx_answers, answers_append]
  constructor
  · apply List.rel_append
    · exact List.forall₂_same.mpr fun _ _ => .same _
    · exact answers_agrees (agrees_calculate right) second
  · intro blind plain bind
    rw [List.forall_mem_append] at bind
    apply List.rel_append
    · exact List.forall₂_same.mpr fun _ _ => .same _
    · exact answers_trails blind (trails_calculate right (plain_after plain bind.1)) bind.2

/-- What is kept of checking shows in no answer; a question for the type may be left out; without
a calculation the other answers stay the same but for calculated values, and these too but for
the numbers of functions if no function of a formula is bound; and no name is bound twice. -/
theorem answers_of_ofSource {source : String} (read : ofSource source = .ok f) (hosts : Hosts)
    (bound : Nat) (first second : List Step) :
    f.answers hosts bound (first ++ second) = f.uncachedAnswers hosts bound (first ++ second) ∧
      (f.answers hosts bound (first ++ .resultType :: second)).eraseIdx first.length =
        f.answers hosts bound (first ++ second) ∧
      List.Forall₂ Answer.Matches (f.answers hosts bound (first ++ second))
        ((f.answers hosts bound (first ++ .calculate :: second)).eraseIdx first.length) ∧
      (Blind hosts → (∀ s ∈ first ++ second, s.BindsNoFunction) →
        List.Forall₂ Answer.Alike (f.answers hosts bound (first ++ second))
          ((f.answers hosts bound (first ++ .calculate :: second)).eraseIdx first.length)) ∧
      (f.after hosts bound (first ++ second)).Apart := by
  have right := keepsRight_of_ofSource read
  have plain : f.BindsNoFunction := by
    intro entry member
    rw [(fresh_of_ofSource read).1] at member
    cases member
  rcases answers_without_calculate right first second with
    ⟨agrees, alike⟩
  exact ⟨answers_uncached right _, answers_without_resultType right first second, agrees,
    fun blind bind => alike blind plain bind, apart_after (apart_of_ofSource read) _⟩

/-- No function is supplied from outside. -/
def noHosts : Hosts :=
  fun _ _ => .error "unknown"

theorem blind_noHosts : Blind noHosts :=
  fun _ _ _ => rfl

/-- A formula is calculated twice after its variable is bound. -/
theorem answers_of_ofSource_square :
    ∃ f, ofSource "x * x" = .ok f ∧
      List.Forall₂ Answer.Alike
        (f.answers noHosts 100 [.setVariable "x" (.int 2), .calculate])
        ((f.answers noHosts 100 [.setVariable "x" (.int 2), .calculate, .calculate]).eraseIdx 1) := by
  cases read : ofSource "x * x" with
  | error e =>
      have reads : (ofSource "x * x").toBool = true := by cbv
      rw [read] at reads
      cases reads
  | ok f =>
      have bind : ∀ s ∈ [Step.setVariable "x" (.int 2)] ++ [.calculate], s.BindsNoFunction :=
        List.forall_mem_cons.mpr
          ⟨Value.functions_of_isData rfl, List.forall_mem_singleton.mpr trivial⟩
      exact ⟨f, rfl, (answers_of_ofSource read noHosts 100 [.setVariable "x" (.int 2)]
        [.calculate]).2.2.2.1 blind_noHosts bind⟩

/-! ## A function that counts -/

/-- A formula with a function that counts its calls in a variable around it. -/
def counting : String :=
  "mut int x = 0; \x7b int f() \x7b return x += 1; \x7d if (first) return f; \x7d g()"

/-- Calculate the function and bind it, in place of a method. -/
def bindCounter : List Step :=
  [.setVariable "first" (.bool true), .setMethod "g" ⟨0, ⟨[], none, Ty.int, none⟩⟩, .calculate,
    .setVariable "g" (.function (.declared ⟨0, 2, "f", ⟨2⟩, [], 2⟩)),
    .setVariable "first" (.bool false)]

/-- The number that was calculated, if it was one. -/
def Answer.int? : Answer → Option Int64
  | .value (.ok (.int n)) => some n
  | _ => none

theorem Answer.Alike.int?_eq {answer answer' : Answer} (alike : Alike answer answer') :
    answer.int? = answer'.int? := by
  cases alike with
  | same => rfl
  | value r outcome =>
      cases outcome with
      | error stop => rfl
      | ok v => cases v <;> rfl

theorem ints_alike {answers answers' : List Answer}
    (alike : List.Forall₂ Answer.Alike answers answers') :
    answers.map Answer.int? = answers'.map Answer.int? := by
  induction alike with
  | nil => rfl
  | cons first _ inductionHypothesis =>
      rw [List.map_cons, List.map_cons, first.int?_eq, inductionHypothesis]

/-- A calculation may not be left out if it calls a function that an earlier one declared. -/
theorem calculate_counts :
    ¬ ∀ source f, ofSource source = .ok f → ∀ hosts, Blind hosts → ∀ bound first second,
      List.Forall₂ Answer.Alike (f.answers hosts bound (first ++ second))
        ((f.answers hosts bound (first ++ .calculate :: second)).eraseIdx first.length) := by
  intro same
  have counts : (ofSource counting).map (fun f =>
      ((f.after noHosts 100 bindCounter).answers noHosts 100 [.calculate, .calculate]).map
        Answer.int?) = .ok [some 1, some 2] := by
    cbv
  cases read : ofSource counting with
  | error e =>
      rw [read] at counts
      cases counts
  | ok f =>
      rw [read] at counts
      have ints := ints_alike (same counting f read noHosts blind_noHosts 100 bindCounter [.calculate])
      rw [eraseIdx_answers, answers_append, List.map_append, List.map_append] at ints
      have one : _ = _ := List.append_cancel_left ints
      rcases List.cons.inj (Except.ok.inj counts) with ⟨first, second⟩
      have differ := first.symm.trans ((List.cons.inj one).1.trans (List.cons.inj second).1)
      cases differ

end Formulae.Formula
