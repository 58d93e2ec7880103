import Formulae.Proofs.Run.Names
import Formulae.Proofs.Run.Unaware
import Formulae.Proofs.Session.Removal
import Formulae.Proofs.Tree.Declared

/-!
# Formulas that steps lead to

Whatever was done with a formula since it was read (`Formula.Reached`), its functions have
different numbers, what it keeps of checking is right, and the functions in its bindings and
in its store were declared in frames of the store (`Formula.Reached.known`).
-/

namespace Formulae

variable {f : Formula} {hosts : Hosts} {bound : Nat}

/-- The functions in the value were declared in frames of the store. -/
abbrev Value.Known (store : Store) (v : Value) : Prop :=
  v.Functions fun closure => closure.frame < store.frames.size

/-! ## Settings -/

theorem Setting.holds_of_isFor {s : Setting Ty} {q : TypedProgram} (isFor : s.IsFor q)
    (distinct : (q.functions.map Prod.fst).Nodup) : s.Holds q.functions :=
  fun _ member => Setting.body_of_isFor isFor distinct member

theorem Setting.closed_of_isFor {s : Setting Ty} {q : TypedProgram} (isFor : s.IsFor q)
    (distinct : (q.functions.map Prod.fst).Nodup) : s.Closed := by
  intro declaration
  rw [Setting.body, isFor]
  cases found : q.functions.lookup declaration with
  | none => exact List.forall_mem_nil _
  | some body =>
      rcases List.lookup_eq_some_iff.mp found with ⟨before, after, entries, -⟩
      have member : (declaration, body) ∈ q.functions := by simp [entries]
      exact fun function inside =>
        Setting.holds_of_isFor isFor distinct function (Stmt.functionsAll_inside _ member inside)

/-! ## Machines -/

namespace Machine

/-- Bind names in the global frame. -/
def bindGlobals (m : Machine) (values : List (String × Value)) : Machine :=
  values.foldl (fun m entry => m.defineGlobal entry.1 entry.2) m

variable {α : Type} {view : View} {s : Setting α} {m m' : Machine}

theorem bindGlobals_size (m : Machine) (values : List (String × Value)) :
    (m.bindGlobals values).env = m.env ∧
      (m.bindGlobals values).store.frames.size = m.store.frames.size := by
  induction values generalizing m with
  | nil => exact ⟨rfl, rfl⟩
  | cons entry rest inductionHypothesis =>
      rcases inductionHypothesis (m.defineGlobal entry.1 entry.2) with ⟨env, size⟩
      exact ⟨env, size.trans (Store.size_define _ _ _ _)⟩

theorem Alike.defineGlobal (alike : m.Alike view m')
    (inStore : m.env.global < m.store.frames.size) (name : String) (v : Value) :
    (m.defineGlobal name v).Alike view (m'.defineGlobal name v) := by
  refine ⟨?_, alike.env, alike.callers, alike.captured⟩
  rw [Machine.defineGlobal, Machine.defineGlobal, alike.env]
  exact alike.store.define inStore name _

/-- Bindings of the name of the view make no difference if the global frame is hidden. -/
theorem Alike.bindGlobals (alike : m.Alike view m')
    (inStore : m.env.global < m.store.frames.size) (hidden : view.hidden m.env.global)
    (values : List (String × Value)) :
    (m.bindGlobals (values.filter (·.1 != view.name))).Alike view (m'.bindGlobals values) := by
  induction values generalizing m m' with
  | nil => exact alike
  | cons entry rest inductionHypothesis =>
      by_cases isName : entry.1 = view.name
      · have unseen : ¬ view.Shows m'.env.global entry.1 :=
          fun shown => shown.plain (alike.env ▸ hidden) isName
        have inStore' : m'.env.global < m'.store.frames.size := by
          rw [alike.env, alike.store.size]
          exact inStore
        have same : m'.Alike view (m'.defineGlobal entry.1 entry.2) :=
          ⟨Store.alike_define inStore' unseen _, rfl, rfl, rfl⟩
        rw [List.filter_cons_of_neg (by simp [isName])]
        exact inductionHypothesis (alike.trans same) inStore hidden
      · rw [List.filter_cons_of_pos (by simp [isName])]
        apply inductionHypothesis (alike.defineGlobal inStore entry.1 entry.2) _ hidden
        rw [Machine.defineGlobal, Store.size_define]
        exact inStore

/-- Values bound in the global frame must be discreet where they are shown. -/
theorem Guarded.bindGlobals (guarded : m.Guarded view s)
    (inStore : m.env.global < m.store.frames.size) {values : List (String × Value)}
    (fine : ∀ entry ∈ values, view.Shows m.env.global entry.1 →
      entry.2.Discreet view s m.store) : (m.bindGlobals values).Guarded view s := by
  induction values generalizing m with
  | nil => exact guarded
  | cons entry rest inductionHypothesis =>
      rw [List.forall_mem_cons] at fine
      have size : (m.defineGlobal entry.1 entry.2).store.frames.size = m.store.frames.size :=
        Store.size_define _ _ _ _
      apply inductionHypothesis
      · exact ⟨fun id isNew => guarded.fresh id (size ▸ isNew),
          guarded.discreet.define _ fine.1 inStore⟩
      · rw [size]
        exact inStore
      · exact fun other member shown =>
          (fine.2 other member shown).extends (Store.extends_define _ _ _ _)

end Machine

namespace Formula

theorem machine_eq (f : Formula) : f.machine = (Machine.atop f.store).bindGlobals f.values :=
  rfl

theorem global_atop (store : Store) : (Machine.atop store).env.global = store.frames.size :=
  rfl

theorem size_atop (store : Store) :
    (Machine.atop store).store.frames.size = store.frames.size + 1 :=
  Store.size_push _ _

theorem size_machine (f : Formula) :
    f.machine.env.current = f.store.frames.size ∧
      f.machine.store.frames.size = f.store.frames.size + 1 := by
  rcases Machine.bindGlobals_size (Machine.atop f.store) f.values with ⟨env, size⟩
  exact ⟨congrArg Environment.current env, size.trans (size_atop f.store)⟩

/-- The machine for a calculation is guarded if what it is made of is discreet. -/
theorem guarded_machine {α : Type} {view : View} {s : Setting α}
    (fresh : ∀ id, f.store.frames.size < id → view.live id ∧ ¬ view.hidden id)
    (stored : f.store.Discreet view s) (bound : ∀ entry ∈ f.inputs, entry.2.Discreet view s f.store) :
    f.machine.Guarded view s := by
  have guarded : (Machine.atop f.store).Guarded view s := by
    refine ⟨fun id isNew => fresh id ?_, stored.push none⟩
    rw [size_atop] at isNew
    exact isNew
  rw [machine_eq]
  apply guarded.bindGlobals
  · rw [global_atop, size_atop]
    exact Nat.lt_succ_self _
  · intro entry member _
    apply Value.Discreet.extends _ (Store.extends_push f.store none)
    rcases List.mem_append.mp member with isInput | isMethod
    · exact bound entry isInput
    · rcases List.mem_map.mp isMethod with ⟨⟨name, method⟩, _, rfl⟩
      exact Value.functions_host method

/-! ## Steps -/

/-- A value that is bound is known at that time. -/
def Step.BindsKnown (f : Formula) : Step → Prop
  | .setVariable _ value => value.Known f.store
  | _ => True

/-- What can become of formulas that are read, with functions supplied from outside. -/
inductive Reached (hosts : Hosts) : Formula → Prop
  | read {source : String} {f : Formula} (read : ofSource source = .ok f) : Reached hosts f
  | step {f : Formula} (reached : Reached hosts f) (bound : Nat) (s : Step)
      (known : s.BindsKnown f) : Reached hosts (f.step hosts bound s).2

/-- All functions that are bound or stored are known. -/
structure Known (f : Formula) : Prop where
  stored : ∀ id name b, f.store.find? id name = some b → b.value.Known f.store
  bound : ∀ entry ∈ f.inputs, entry.2.Known f.store

/-- The declared functions have different numbers. -/
def Distinct (f : Formula) : Prop :=
  (f.program.functions.map Prod.fst).Nodup

/-- What is read has no bindings, nothing in its store, and the tree of its source. -/
theorem read_of_ofSource {source : String} (read : ofSource source = .ok f) :
    ∃ tokens output, Lexer.tokenize source = .ok tokens ∧
      Mode.program.parse tokens = .ok output ∧
      f = { source, names := Interner.empty.internAll tokens.texts, program := output.program } := by
  unfold ofSource at read
  cases lexed : Lexer.tokenize source with
  | error e =>
      rw [lexed] at read
      cases read
  | ok tokens =>
      rw [lexed] at read
      cases parsed : Parser.parse tokens with
      | error e =>
          simp only [Except.mapError, bind, Except.bind, parsed] at read
          cases read
      | ok output =>
          simp only [Except.mapError, bind, Except.bind, parsed] at read
          cases read
          exact ⟨tokens, output, rfl, parsed, rfl⟩

theorem distinct_of_ofSource {source : String} (read : ofSource source = .ok f) :
    f.Distinct := by
  rcases read_of_ofSource read with ⟨tokens, output, lexed, parsed, rfl⟩
  exact Mode.distinct_of_parse lexed parsed

theorem known_of_ofSource {source : String} (read : ofSource source = .ok f) : f.Known := by
  rcases read_of_ofSource read with ⟨tokens, output, lexed, parsed, rfl⟩
  refine ⟨fun id name b stored => ?_, nofun⟩
  simp [Store.empty, Store.find?] at stored

theorem distinct_step (distinct : f.Distinct) (s : Step) :
    (f.step hosts bound s).2.Distinct := by
  have same {g : Formula} (program : g.program = f.program) : g.Distinct := by
    rw [Distinct, program]
    exact distinct
  cases s with
  | rename r =>
      have numbers := Stmt.numbers_renameAll r [] f.program.body
      exact (congrArg List.Nodup numbers).mpr distinct
  | requote old new =>
      have numbers := Stmt.numbers_requoteAll old new f.program.body
      exact (congrArg List.Nodup numbers).mpr distinct
  | resultType =>
      simp only [step, resultType]
      cases f.validate <;> exact same rfl
  | calculate =>
      have after : ∃ store validated, (f.calculate hosts bound).2 = { f with store, validated } :=
        after_calculate f
      rcases after with ⟨store, validated, after⟩
      apply same
      rw [step, Prod.map_snd, after]
      rfl
  | setVariable | removeVariable | setMethod | setCancelled | print | freeVariables | freeMethods
  | strings => exact same rfl

/-! ## Calculations -/

/-- What checking finds in the present formula. -/
theorem check_of_validate (right : f.KeepsRight) {kept : Validated}
    (found : f.validate = .ok kept) :
    f.program.check (globals f.bindingTypes) = .ok kept.program := by
  rw [validate_eq right, validateAgainst] at found
  cases checked : f.program.check (globals f.bindingTypes) with
  | error e =>
      rw [checked] at found
      cases found
  | ok program =>
      rw [checked] at found
      cases found
      rfl

theorem distinct_of_check {globals : TypeEnv} {q : TypedProgram} (distinct : f.Distinct)
    (checked : f.program.check globals = .ok q) : (q.functions.map Prod.fst).Nodup := by
  have same := (Typing.meets_program globals (fun _ => false) f.program).of_ok checked
  exact same.1 ▸ distinct

/-- A view that hides nothing. -/
def everything : View :=
  ⟨"", fun _ => True, fun _ => False⟩

/-- If nothing is hidden, known functions are discreet. -/
theorem discreet_everything {α : Type} (s : Setting α) {store : Store} {v : Value}
    (known : v.Known store) : v.Discreet everything s store := by
  refine Value.Functions.mono known fun closure inStore => ⟨inStore, Store.inside_of_live fun _ _ => trivial, [everything.name],
    fun _ => Store.shields_of_visible fun _ _ => id, ?_⟩
  exact Stmt.notMem_namesAll (List.mem_append_right _ (List.mem_singleton_self _)) _

theorem known_of_discreet {α : Type} {view : View} {s : Setting α} {store : Store} {v : Value}
    (discreet : v.Discreet view s store) : v.Known store :=
  Value.Functions.mono discreet fun _ discreet => discreet.inStore

/-- A calculation makes known functions only. -/
theorem known_evaluate (known : f.Known) (distinct : f.Distinct) (right : f.KeepsRight)
    (handsOn : HandsOn hosts) {kept : Validated} (found : f.validate = .ok kept) :
    (f.evaluate hosts bound kept).2.Known ∧
      ∀ v, (f.evaluate hosts bound kept).1 = .ok v →
        v.Known (f.evaluate hosts bound kept).2.store := by
  have isFor : (f.setting hosts kept).IsFor kept.program := rfl
  have distinct := distinct_of_check distinct (check_of_validate right found)
  have guarded : f.machine.Guarded everything (f.setting hosts kept) :=
    guarded_machine (fun _ _ => ⟨trivial, id⟩)
      (fun id name b _ stored => discreet_everything _ (known.stored id name b stored))
      fun entry member => discreet_everything _ (known.bound entry member)
  rcases size_machine f with ⟨current, size⟩
  have declared : everything.name ∈ [everything.name] := List.mem_singleton_self _
  rcases Machine.run_alike handsOn (Setting.closed_of_isFor isFor distinct) bound
    (Setting.holds_of_isFor isFor distinct) (Stmt.notMem_namesAll declared kept.program.body)
    (Expr.notMem_namesOption (Stmt.subset_boundAfter _ _ declared) kept.program.tail)
    (.refl f.machine) guarded
    (by rw [current, size]; exact Nat.lt_succ_self _) (Store.inside_of_live fun _ _ => trivial)
    (fun _ => Store.shields_of_visible fun _ _ => id) with
    ⟨outcome, n, _, ran, _, _, guarded', result⟩
  have grown := (Machine.left_run (prepared_machine f).ready.guards (f.setting hosts kept) bound
    kept.program).1.frames
  rw [ran, size, Machine.size_release] at grown
  have wider {v : Value} (before : v.Known n.store) : v.Known n.release.store :=
    Value.Functions.mono before fun _ inStore => Nat.lt_of_lt_of_eq inStore n.size_release.symm
  rw [evaluate_eq, ran]
  refine ⟨⟨?_, ?_⟩, ?_⟩
  · intro id name b stored
    have discreet := guarded'.discreet id name b ⟨trivial, nofun⟩ (Machine.find?_release stored)
    exact wider (known_of_discreet discreet)
  · intro entry member
    refine Value.Functions.mono (known.bound entry member) fun _ inStore => ?_
    rw [n.size_release]
    exact Nat.lt_of_lt_of_le inStore (Nat.le_of_succ_le grown)
  · intro v isValue
    cases outcome with
    | error stop => cases isValue
    | ok _ =>
        cases isValue
        exact wider (known_of_discreet (result v rfl))

theorem known_step (known : f.Known) (distinct : f.Distinct) (right : f.KeepsRight)
    (handsOn : HandsOn hosts) {s : Step} (binds : s.BindsKnown f) :
    (f.step hosts bound s).2.Known := by
  have kept (name : String) : ∀ entry ∈ without f.inputs name, entry.2.Known f.store :=
    fun entry member => known.bound entry (List.mem_filter.mp member).1
  cases s with
  | setVariable name value => exact ⟨known.stored, List.forall_mem_cons.mpr ⟨binds, kept name⟩⟩
  | removeVariable name => exact ⟨known.stored, kept name⟩
  | setMethod name method => exact ⟨known.stored, kept name⟩
  | resultType =>
      simp only [step, resultType]
      cases f.validate <;> exact ⟨known.stored, known.bound⟩
  | calculate =>
      simp only [step, calculate]
      cases f.unbound? with
      | some e => exact known
      | none =>
          cases found : f.validate with
          | error e => exact ⟨known.stored, known.bound⟩
          | ok kept => exact (known_evaluate known distinct right handsOn found).1
  | rename | requote | setCancelled | print | freeVariables | freeMethods | strings =>
      exact ⟨known.stored, known.bound⟩

/-- What holds of formulas that are read and then used. -/
theorem Reached.known (handsOn : HandsOn hosts) (reached : Reached hosts f) :
    f.Known ∧ f.Distinct ∧ f.KeepsRight := by
  induction reached with
  | read read => exact ⟨known_of_ofSource read, distinct_of_ofSource read, keepsRight_of_ofSource read⟩
  | step reached bound s binds inductionHypothesis =>
      rcases inductionHypothesis with ⟨known, distinct, right⟩
      exact ⟨known_step known distinct right handsOn binds, distinct_step distinct s,
        keepsRight_step right s⟩

end Formula

end Formulae
