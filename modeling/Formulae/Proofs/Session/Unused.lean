import Formulae.Proofs.Session.Reached
import Formulae.Proofs.Typing.Spared

/-!
# Bindings that make no difference

A formula does not depend on what is bound to a name that is not among its free names, even if
it declares the name itself: the values and types it has are the same whatever the name is
bound to (`Formula.Reached.answers_rebound`).
-/

namespace Formulae

open Typing

theorem Program.notMem_names {α : Type} {p : Program α} {x : String}
    (noVariable : x ∉ p.freeVariables) (noMethod : x ∉ p.freeMethods) : x ∉ p.names := by
  have free (role : Role) (use : Occurrence) (member : use ∈ p.free) (isRole : use.role = role) :
      use.name ∈ p.freeNames role :=
    List.mem_eraseDups.mpr (List.mem_map.mpr
      ⟨use, List.mem_filter.mpr ⟨member, decide_eq_true isRole⟩, rfl⟩)
  intro member
  rcases List.mem_map.mp member with ⟨use, occurs, rfl⟩
  cases isRole : use.role with
  | «variable» => exact noVariable (free _ use occurs isRole)
  | callee => exact noMethod (free _ use occurs isRole)

/-! ## Values under names -/

section

variable {β : Type} {x name : String}

theorem lookup_filter (different : name ≠ x) (bindings : List (String × β)) :
    (bindings.filter (·.1 != x)).lookup name = bindings.lookup name := by
  induction bindings with
  | nil => rfl
  | cons entry rest inductionHypothesis =>
      by_cases isName : entry.1 = x
      · rw [List.filter_cons_of_neg (by simp [isName]), inductionHypothesis, List.lookup_cons,
          isName, beq_false_of_ne different]
      · rw [List.filter_cons_of_pos (by simp [isName]), List.lookup_cons, List.lookup_cons,
          inductionHypothesis]

/-- The bindings of one name among others are also among those that are left. -/
theorem filter_filter_ne (different : name ≠ x) (bindings : List (String × β)) :
    (bindings.filter (·.1 != x)).filter (·.1 == name) = bindings.filter (·.1 == name) := by
  rw [List.filter_filter]
  apply List.filter_congr
  intro entry _
  by_cases isName : entry.1 = name
  · simp [isName, different]
  · simp [isName]

/-- Sorting bindings by their names keeps the order of those of the same name. -/
theorem filter_mergeSort (bindings : List (String × β)) (name : String) :
    (bindings.mergeSort fun one other => one.1 ≤ other.1).filter (·.1 == name) =
      bindings.filter (·.1 == name) := by
  have sorted : (bindings.filter (·.1 == name)).Pairwise
      fun one other => decide (one.1 ≤ other.1) = true := by
    rw [List.pairwise_iff_forall_sublist]
    intro one other sub
    have isName (entry : String × β) (member : entry ∈ [one, other]) : entry.1 = name :=
      beq_iff_eq.mp (List.mem_filter.mp (sub.subset member)).2
    rw [isName one (by simp), isName other (by simp)]
    simp
  have transitive (a b c : String × β) (first : decide (a.1 ≤ b.1) = true)
      (second : decide (b.1 ≤ c.1) = true) : decide (a.1 ≤ c.1) = true :=
    decide_eq_true (String.le_trans (of_decide_eq_true first) (of_decide_eq_true second))
  have total (a b : String × β) : (decide (a.1 ≤ b.1) || decide (b.1 ≤ a.1)) = true := by
    simpa using String.le_total a.1 b.1
  have kept := (List.sublist_mergeSort transitive total sorted List.filter_sublist).filter
    (·.1 == name)
  rw [List.filter_filter] at kept
  simp only [Bool.and_self] at kept
  exact (kept.eq_of_length ((List.mergeSort_perm _ _).filter _).length_eq.symm).symm

end

namespace Formula

/-- The type of a name depends on the bindings of that name only. -/
theorem lookup_globals (bindings : List (String × Ty)) (name : String) :
    (globals bindings).lookup name = (globals (bindings.filter (·.1 == name))).lookup name := by
  have folded (env env' : TypeEnv) (same : env.lookup name = env'.lookup name) :
      (bindings.foldl (fun env entry => env.bind entry.1 entry.2) env).lookup name =
        ((bindings.filter (·.1 == name)).foldl
          (fun env entry => env.bind entry.1 entry.2) env').lookup name := by
    induction bindings generalizing env env' with
    | nil => exact same
    | cons entry rest inductionHypothesis =>
        by_cases isName : entry.1 = name
        · rw [List.filter_cons_of_pos (by simp [isName])]
          apply inductionHypothesis
          dsimp only
          rw [isName, TypeEnv.lookup_bind_self, TypeEnv.lookup_bind_self]
        · rw [List.filter_cons_of_neg (by simp [isName])]
          apply inductionHypothesis
          dsimp only
          rw [TypeEnv.lookup_bind_of_ne _ _ (Ne.symm isName), same]
  exact folded .empty .empty rfl

/-! ## Formulas with other bindings of a name -/

variable {f f' : Formula} {x : String} {hosts : Hosts} {bound : Nat}

/-- The formulas are the same but for the bindings of a name, the stores and what they keep of
checking. -/
structure AgreesBut (x : String) (f f' : Formula) : Prop where
  same : f' = { f with
    inputs := f'.inputs, methods := f'.methods, store := f'.store, validated := f'.validated }
  inputs : without f'.inputs x = without f.inputs x
  methods : without f'.methods x = without f.methods x
  right : f.KeepsRight
  right' : f'.KeepsRight

/-- A step that binds the name or removes its binding. -/
inductive Step.Rebinds (x : String) : Step → Prop
  | setVariable (value : Value) : Rebinds x (.setVariable x value)
  | removeVariable : Rebinds x (.removeVariable x)
  | setMethod (method : HostFunction) : Rebinds x (.setMethod x method)

theorem without_idem {β : Type} (bindings : List (String × β)) (name : String) :
    without (without bindings name) name = without bindings name := by
  simp [without]

theorem without_cons_self {β : Type} (bindings : List (String × β)) (name : String) (b : β) :
    without ((name, b) :: bindings) name = without bindings name := by
  simp [without]

theorem agreesBut_rebound (right : f.KeepsRight) {s : Step} (rebinds : s.Rebinds x) :
    f.AgreesBut x (f.step hosts bound s).2 := by
  have right' : (f.step hosts bound s).2.KeepsRight := keepsRight_step right s
  cases rebinds with
  | setVariable value =>
      exact ⟨rfl, (without_cons_self _ x value).trans (without_idem _ x), without_idem _ x, right,
        right'⟩
  | removeVariable => exact ⟨rfl, without_idem _ x, rfl, right, right'⟩
  | setMethod method =>
      exact ⟨rfl, without_idem _ x, (without_cons_self _ x method).trans (without_idem _ x), right,
        right'⟩

namespace AgreesBut

variable (agrees : f.AgreesBut x f')
include agrees

theorem program_eq : f'.program = f.program := by
  rw [agrees.same]

theorem values : f'.values.filter (·.1 != x) = f.values.filter (·.1 != x) := by
  rw [Formula.values, Formula.values, List.filter_append, List.filter_append, List.filter_map,
    List.filter_map]
  exact congrArg₂ (· ++ ·) agrees.inputs (congrArg (List.map _) agrees.methods)

theorem unbound? (unused : x ∉ f.program.names) : f'.unbound? = f.unbound? := by
  rw [Formula.unbound?, Formula.unbound?, agrees.program_eq, ← List.head?_filter,
    ← List.head?_filter]
  congr 2
  apply List.filter_congr
  intro use member
  have different : use.name ≠ x := fun isName =>
    unused (List.mem_map.mpr ⟨use, member, isName⟩)
  rw [isBound, isBound, ← lookup_filter different, agrees.values, lookup_filter different]

/-- Checking finds the same. -/
theorem check_eq (unused : x ∉ f.program.names) :
    f'.program.check (globals f'.bindingTypes) = f.program.check (globals f.bindingTypes) := by
  rw [agrees.program_eq]
  apply check_congr_program (x := x) _ unused
  intro name different
  have types (g : Formula) : g.bindingTypes.filter (·.1 == name) =
      ((g.values.filter (·.1 != x)).filter (·.1 == name)).map
        fun entry => (entry.1, entry.2.type) := by
    rw [bindingTypes, List.filter_map, filter_filter_ne different, ← filter_mergeSort]
    rfl
  rw [lookup_globals, lookup_globals f.bindingTypes, types f', types f, agrees.values]

theorem validate_eq (unused : x ∉ f.program.names) :
    f'.validate.map Validated.program = f.validate.map Validated.program := by
  have checked {g : Formula} (right : g.KeepsRight) : g.validate.map Validated.program =
      (g.program.check (globals g.bindingTypes)).mapError .type := by
    rw [Formula.validate_eq right, validateAgainst]
    cases g.program.check (globals g.bindingTypes) <;> rfl
  rw [checked agrees.right', checked agrees.right, agrees.check_eq unused]

theorem resultType_eq (unused : x ∉ f.program.names) : f'.resultType.1 = f.resultType.1 := by
  have type (g : Formula) :
      g.resultType.1 = (g.validate.map Validated.program).map Program.resultType := by
    unfold resultType
    cases g.validate <;> rfl
  rw [type, type, agrees.validate_eq unused]

end AgreesBut

/-! ## Calculations -/

/-- The view of a calculation that does not see what is bound to a name from outside, for which
the frame after those in the store is made. -/
def sight (f : Formula) (x : String) (live : Nat → Prop) : View :=
  ⟨x, live, (· = f.store.frames.size)⟩

/-- What a calculation needs so that it does not see the bindings of a name from outside. -/
structure Unaware (x : String) (live : Nat → Prop) (f f' : Formula) : Prop
    extends f.AgreesBut x f' where
  distinct : f.Distinct
  unused : x ∉ f.program.names
  fresh : ∀ id, f.store.frames.size ≤ id → live id
  alike : f.store.Alike (f.sight x live) f'.store
  stored : ∀ s : Setting Ty, f.store.Discreet (f.sight x live) s
  bound : ∀ s : Setting Ty, ∀ entry ∈ f.inputs,
    entry.2.Discreet (f.sight x live) s f.store

namespace Unaware

variable {live : Nat → Prop} (unaware : f.Unaware x live f')
include unaware

/-- The machines for a calculation show the same. -/
theorem machine : f.machine.Alike (f.sight x live) f'.machine := by
  have inStore : (Machine.atop f.store).env.global < (Machine.atop f.store).store.frames.size := by
    rw [global_atop, size_atop]
    exact Nat.lt_succ_self _
  have hidden : (f.sight x live).hidden (Machine.atop f.store).env.global :=
    global_atop f.store
  rcases unaware.alike.push none with ⟨frame, store⟩
  have atop : (Machine.atop f.store).Alike (f.sight x live)
      (Machine.atop f'.store) := ⟨store, congrArg Environment.ofFrame frame, rfl, rfl⟩
  have first := (Machine.Alike.refl (Machine.atop f.store)).bindGlobals inStore hidden f.values
  have second := atop.bindGlobals inStore hidden f'.values
  rw [sight, unaware.values] at second
  exact first.symm.trans second

theorem evaluate (handsOn : HandsOn hosts) {kept kept' : Validated}
    (found : f.validate = .ok kept) (same : kept'.program = kept.program) :
    (f'.evaluate hosts bound kept').1 = (f.evaluate hosts bound kept).1 ∧
      (f.evaluate hosts bound kept).2.store.Alike (f.sight x live)
        (f'.evaluate hosts bound kept').2.store := by
  have checked := check_of_validate unaware.right found
  have distinct := distinct_of_check unaware.distinct checked
  have names := (sameNames_program _ f.program).of_ok checked
  have unused : x ∉ kept.program.names := names ▸ unaware.unused
  rw [Program.names_eq, List.mem_append, not_or] at unused
  have isFor : (f.setting hosts kept).IsFor kept.program := rfl
  have setting : f'.setting hosts kept' = f.setting hosts kept := by
    rw [Formula.setting, Formula.setting, same, unaware.same]
  have guarded : f.machine.Guarded (f.sight x live) (f.setting hosts kept) :=
    guarded_machine (fun id isNew => ⟨unaware.fresh id (Nat.le_of_lt isNew), Nat.ne_of_gt isNew⟩)
      (unaware.stored _) (unaware.bound _)
  rcases size_machine f with ⟨current, size⟩
  have ready := (prepared_machine f).ready
  have outermost : f.machine.store.parent? f.machine.env.current = none := by
    rw [Environment.current, ready.inner]
    exact ready.outermost
  have inside : f.machine.store.Inside (f.sight x live)
      f.machine.env.current := by
    refine .mk (current ▸ unaware.fresh _ (Nat.le_refl _)) fun around isParent => ?_
    rw [outermost] at isParent
    cases isParent
  have inStore : f.machine.env.current < f.machine.store.frames.size := by
    rw [current, size]
    exact Nat.lt_succ_self _
  rcases Machine.run_alike handsOn (Setting.closed_of_isFor isFor distinct) bound
    (Setting.holds_of_isFor isFor distinct) unused.1 unused.2 unaware.machine guarded inStore inside
    (fun isDeclared => absurd isDeclared List.not_mem_nil) with ⟨outcome, n, n', ran, ran', alike, -, -⟩
  rw [evaluate_eq, evaluate_eq, setting, same, ran, ran']
  exact ⟨rfl, alike.release⟩

theorem calculate (handsOn : HandsOn hosts) :
    (f'.calculate hosts bound).1 = (f.calculate hosts bound).1 ∧
      (f.calculate hosts bound).2.store.Alike (f.sight x live)
        (f'.calculate hosts bound).2.store := by
  have same := unaware.validate_eq unaware.unused
  unfold Formula.calculate
  rw [unaware.unbound? unaware.unused]
  cases f.unbound? with
  | some e => exact ⟨rfl, unaware.alike⟩
  | none =>
      cases found : f.validate with
      | error e =>
          rw [found] at same
          cases found' : f'.validate with
          | error e' =>
              rw [found'] at same
              cases same
              exact ⟨rfl, unaware.alike⟩
          | ok kept' =>
              rw [found'] at same
              cases same
      | ok kept =>
          rw [found] at same
          cases found' : f'.validate with
          | error e' =>
              rw [found'] at same
              cases same
          | ok kept' =>
              rw [found'] at same
              exact unaware.evaluate handsOn found (Except.ok.inj same)

end Unaware

/-! ## Steps -/

/-- A step that neither binds the name nor changes the formula. -/
def Step.Spares (x : String) : Step → Prop
  | .setVariable name _ | .removeVariable name | .setMethod name _ => name ≠ x
  | .rename _ | .requote _ _ => False
  | _ => True

/-- The formulas differ in the bindings of the name only, and no function of a formula is bound
in them. -/
structure Follows (x : String) (f f' : Formula) : Prop extends f.AgreesBut x f' where
  distinct : f.Distinct
  unused : x ∉ f.program.names
  plain : f.BindsNoFunction
  size : f'.store.frames.size = f.store.frames.size
  declared : f'.store.declared = f.store.declared
  parent : ∀ id, f'.store.parent? id = f.store.parent? id

theorem without_comm {β : Type} (bindings : List (String × β)) (name other : String) :
    without (without bindings name) other = without (without bindings other) name := by
  simp only [without, List.filter_filter, Bool.and_comm]

theorem without_cons_of_ne {β : Type} (bindings : List (String × β)) {name : String}
    (different : name ≠ x) (b : β) :
    without ((name, b) :: bindings) x = (name, b) :: without bindings x := by
  simp [without, different]

/-- A step that does not bind the name leaves the other bindings alike. -/
theorem agreesBut_step (agrees : f.AgreesBut x f') {s : Step} (spares : s.Spares x) :
    (f.step hosts bound s).2.AgreesBut x (f'.step hosts bound s).2 := by
  have right : (f.step hosts bound s).2.KeepsRight := keepsRight_step agrees.right s
  have right' : (f'.step hosts bound s).2.KeepsRight := keepsRight_step agrees.right' s
  have inputs (name : String) : without (without f'.inputs name) x =
      without (without f.inputs name) x := by
    rw [without_comm, agrees.inputs, without_comm]
  have methods (name : String) : without (without f'.methods name) x =
      without (without f.methods name) x := by
    rw [without_comm, agrees.methods, without_comm]
  have kept {g g' : Formula} (isSame : g = { f with store := g.store, validated := g.validated })
      (isSame' : g' = { f' with store := g'.store, validated := g'.validated })
      (right : g.KeepsRight) (right' : g'.KeepsRight) : g.AgreesBut x g' := by
    refine ⟨?_, ?_, ?_, right, right'⟩
    · rw [isSame, isSame', agrees.same]
    · rw [isSame, isSame']
      exact agrees.inputs
    · rw [isSame, isSame']
      exact agrees.methods
  cases s with
  | setVariable name value =>
      have different : name ≠ x := spares
      refine ⟨?_, ?_, methods name, right, right'⟩
      · dsimp only [step, setVariable]
        rw [agrees.same]
      · simp only [step, setVariable, without_cons_of_ne _ different, inputs]
  | removeVariable name =>
      refine ⟨?_, inputs name, agrees.methods, right, right'⟩
      dsimp only [step, removeVariable, Prod.map, id]
      rw [agrees.same]
  | setMethod name method =>
      have different : name ≠ x := spares
      refine ⟨?_, inputs name, ?_, right, right'⟩
      · dsimp only [step, setMethod]
        rw [agrees.same]
      · simp only [step, setMethod, without_cons_of_ne _ different, methods]
  | setCancelled cancelled =>
      refine ⟨?_, agrees.inputs, agrees.methods, right, right'⟩
      dsimp only [step, setCancelled]
      rw [agrees.same]
  | resultType =>
      have after (g : Formula) : (g.step hosts bound .resultType).2 =
          { g with
            store := (g.step hosts bound .resultType).2.store
            validated := (g.step hosts bound .resultType).2.validated } := by
        simp only [step, resultType]
        cases g.validate <;> rfl
      exact kept (after f) (after f') right right'
  | calculate =>
      have after (g : Formula) : (g.step hosts bound .calculate).2 =
          { g with
            store := (g.step hosts bound .calculate).2.store
            validated := (g.step hosts bound .calculate).2.validated } := by
        have after : ∃ store validated, (g.calculate hosts bound).2 = { g with store, validated } :=
          after_calculate g
        rcases after with ⟨store, validated, after⟩
        rw [step, Prod.map_snd, after]
        rfl
      exact kept (after f) (after f') right right'
  | print | freeVariables | freeMethods | strings => exact kept rfl rfl right right'
  | rename | requote => exact spares.elim

theorem Follows.unaware (follows : f.Follows x f') :
    f.Unaware x (f.store.frames.size ≤ ·) f' where
  toAgreesBut := follows.toAgreesBut
  distinct := follows.distinct
  unused := follows.unused
  fresh _ := id
  alike := by
    refine ⟨follows.size, follows.declared, follows.parent, fun id name shown => ?_⟩
    have missing {store : Store} (small : store.frames.size ≤ id) : store.find? id name = none := by
      rw [Store.find?, Array.getElem?_eq_none small]
      rfl
    rw [missing (follows.size ▸ shown.live), missing shown.live]
  stored s id name b shown stored := by
    rw [Store.find?, Array.getElem?_eq_none shown.live] at stored
    cases stored
  bound s entry member := Value.Functions.mono (follows.plain entry member) fun _ => False.elim

theorem program_step {s : Step} (spares : s.Spares x) :
    (f.step hosts bound s).2.program = f.program := by
  cases s with
  | calculate =>
      have after : ∃ store validated, (f.calculate hosts bound).2 = { f with store, validated } :=
        after_calculate f
      rcases after with ⟨store, validated, after⟩
      rw [step, Prod.map_snd, after]
      rfl
  | resultType =>
      simp only [step, resultType]
      cases f.validate <;> rfl
  | rename | requote => exact spares.elim
  | setVariable | removeVariable | setMethod | setCancelled | print | freeVariables | freeMethods
  | strings => rfl

/-- A step answers the same on both. -/
theorem follows_step (follows : f.Follows x f') (handsOn : HandsOn hosts) {s : Step}
    (spares : s.Spares x) (binds : s.BindsNoFunction) :
    (f'.step hosts bound s).1 = (f.step hosts bound s).1 ∧
      (f.step hosts bound s).2.Follows x (f'.step hosts bound s).2 := by
  have agrees : (f.step hosts bound s).2.AgreesBut x (f'.step hosts bound s).2 :=
    agreesBut_step follows.toAgreesBut spares
  have distinct : (f.step hosts bound s).2.Distinct := distinct_step follows.distinct s
  have unused : x ∉ (f.step hosts bound s).2.program.names := by
    rw [program_step spares]
    exact follows.unused
  have plain : (f.step hosts bound s).2.BindsNoFunction := plain_step follows.plain binds
  have program : f'.program = f.program := follows.program_eq
  have follow (answer : (f'.step hosts bound s).1 = (f.step hosts bound s).1)
      (other : s ≠ .calculate) : (f'.step hosts bound s).1 = (f.step hosts bound s).1 ∧
        (f.step hosts bound s).2.Follows x (f'.step hosts bound s).2 := by
    refine ⟨answer, agrees, distinct, unused, plain, ?_, ?_, ?_⟩
    · rw [store_step other, store_step other, follows.size]
    · rw [store_step other, store_step other, follows.declared]
    · rw [store_step other, store_step other]
      exact follows.parent
  cases s with
  | calculate =>
      rcases follows.unaware.calculate handsOn with ⟨answer, alike⟩
      exact ⟨congrArg Answer.value answer, agrees, distinct, unused, plain, alike.size,
        alike.declared, alike.parent⟩
  | resultType => exact follow (congrArg Answer.type (follows.resultType_eq follows.unused)) (by simp)
  | removeVariable name =>
      have different : name ≠ x := spares
      have removed : f'.inputs.lookup name = f.inputs.lookup name := by
        rw [← lookup_filter different, ← lookup_filter different f.inputs]
        exact congrArg (List.lookup name) follows.inputs
      exact follow (congrArg Answer.removed removed) (by simp)
  | print | freeVariables | freeMethods | strings =>
      apply follow _ (by simp)
      simp only [step, Formula.print, Formula.freeVariables, Formula.freeMethods,
        Formula.strings, program]
  | setVariable | setMethod | setCancelled => exact follow rfl (by simp)
  | rename | requote => exact spares.elim

theorem answers_follows (follows : f.Follows x f') (handsOn : HandsOn hosts) {later : List Step}
    (spare : ∀ s ∈ later, s.Spares x ∧ s.BindsNoFunction) :
    f'.answers hosts bound later = f.answers hosts bound later := by
  induction later generalizing f f' with
  | nil => rfl
  | cons s rest inductionHypothesis =>
      rw [List.forall_mem_cons] at spare
      rcases follows_step follows handsOn spare.1.1 spare.1.2 with ⟨answer, follows⟩
      rw [answers, answers, answer, inductionHypothesis follows spare.2]

/-! ## Names that are not free -/

/-- A formula that declares a name, and uses another one. -/
def declaring : String :=
  "int x = y; x"

end Formula

end Formulae
