import Formulae.Proofs.Run.Renamed
import Formulae.Proofs.Session.Unused
import Formulae.Proofs.Typing.MirroredStmt

/-!
# Variables under another name

Renaming a variable that is bound from outside, and binding the new name to its value, changes
no calculation of a formula that declares no functions and does not mention the new name
(`Formula.Reached.calculate_renamed`).
-/

namespace Formulae

variable {r : Renaming}

/-- The errors are the same, or they report an assignment to the same final variable under its
old and its new name. -/
inductive FormulaError.Renamed (r : Renaming) : FormulaError → FormulaError → Prop
  | same (e : FormulaError) : Renamed r e e
  | type {e e' : TypeError} (renamed : e.Renamed r e') : Renamed r (.type e) (.type e')
  | stop {stop stop' : Stop} (renamed : stop.Renamed r stop') :
      Renamed r (.ofStop stop) (.ofStop stop')

namespace Formula

variable {f g : Formula} {hosts : Hosts} {bound : Nat} {name old new : String} {v : Value}

/-! ## Names that are bound once -/

/-- No name is bound twice, as variables or as methods. -/
def BoundOnce (f : Formula) : Prop :=
  (f.values.map Prod.fst).Nodup

theorem names_values (f : Formula) :
    f.values.map Prod.fst = f.inputs.map Prod.fst ++ f.methods.map Prod.fst := by
  rw [values, List.map_append, List.map_map]
  rfl

theorem names_without {β : Type} (bindings : List (String × β)) (name : String) :
    (without bindings name).map Prod.fst = (bindings.map Prod.fst).filter (· != name) := by
  rw [List.filter_map]
  rfl

theorem boundOnce_step (once : f.BoundOnce) (s : Step) : (f.step hosts bound s).2.BoundOnce := by
  have same {g : Formula} (inputs : g.inputs = f.inputs) (methods : g.methods = f.methods) :
      g.BoundOnce := by
    rw [BoundOnce, values, inputs, methods]
    exact once
  rw [BoundOnce, names_values] at once
  have others (name : String) : ((f.inputs.map Prod.fst).filter (· != name) ++
      (f.methods.map Prod.fst).filter (· != name)).Nodup := by
    rw [← List.filter_append]
    exact once.filter _
  have fresh (name : String) : name ∉ (f.inputs.map Prod.fst).filter (· != name) ++
      (f.methods.map Prod.fst).filter (· != name) := by
    rw [← List.filter_append]
    simp
  cases s with
  | setVariable name value =>
      rw [BoundOnce, names_values]
      simp only [step, setVariable, List.map_cons, names_without, List.cons_append]
      exact List.nodup_cons.mpr ⟨fresh name, others name⟩
  | removeVariable name =>
      rw [BoundOnce, names_values]
      simp only [step, removeVariable, Prod.map, id, names_without]
      exact once.sublist (List.filter_sublist.append_right _)
  | setMethod name method =>
      rw [BoundOnce, names_values]
      simp only [step, setMethod, List.map_cons, names_without]
      exact List.perm_middle.nodup_iff.mpr (List.nodup_cons.mpr ⟨fresh name, others name⟩)
  | resultType =>
      simp only [step, resultType]
      cases f.validate <;> exact same rfl rfl
  | calculate =>
      have after : ∃ store validated, (f.calculate hosts bound).2 = { f with store, validated } :=
        after_calculate f
      rcases after with ⟨store, validated, after⟩
      apply same
      · rw [step, Prod.map_snd, after]
        rfl
      · rw [step, Prod.map_snd, after]
        rfl
  | rename | requote | setCancelled | print | freeVariables | freeMethods | strings =>
      exact same rfl rfl

/-- What holds of formulas whatever the functions are that are supplied from outside. -/
theorem Reached.once (reached : Reached hosts f) : f.BoundOnce ∧ f.KeepsRight := by
  induction reached with
  | read read =>
      rcases fresh_of_ofSource read with ⟨inputs, methods, -⟩
      refine ⟨?_, keepsRight_of_ofSource read⟩
      rw [BoundOnce, names_values, inputs, methods]
      exact List.nodup_nil
  | step _ bound s _ inductionHypothesis =>
      exact ⟨boundOnce_step inductionHypothesis.1 s, keepsRight_step inductionHypothesis.2 s⟩

/-- The only binding of a name. -/
theorem filter_of_lookup {β : Type} {bindings : List (String × β)} {b : β}
    (once : (bindings.map Prod.fst).Nodup) (found : bindings.lookup name = some b) :
    bindings.filter (·.1 == name) = [(name, b)] := by
  induction bindings with
  | nil => cases found
  | cons entry rest inductionHypothesis =>
      obtain ⟨key, c⟩ := entry
      rw [List.map_cons, List.nodup_cons] at once
      rw [List.lookup_cons] at found
      by_cases isName : key = name
      · subst isName
        rw [beq_self_eq_true] at found
        cases found
        rw [List.filter_cons_of_pos (by simp), List.filter_eq_nil_iff.mpr]
        rintro ⟨other, d⟩ member isKey
        exact once.1 (List.mem_map.mpr ⟨_, member, beq_iff_eq.mp isKey⟩)
      · rw [beq_false_of_ne (Ne.symm isName)] at found
        rw [List.filter_cons_of_neg (by simpa using isName), inductionHypothesis once.2 found]

theorem filter_values (once : f.BoundOnce) (found : f.inputs.lookup name = some v) :
    f.values.filter (·.1 == name) = [(name, v)] := by
  apply filter_of_lookup once
  rw [values, List.lookup_append, found]
  rfl

theorem ne_of_unbound (unbound : f.isBound name = false) {entry : String × Value}
    (member : entry ∈ f.values) : entry.1 ≠ name := by
  rw [isBound, Bool.or_eq_false_iff, Option.isSome_eq_false_iff, Option.isNone_iff_eq_none,
    List.lookup_eq_none_iff] at unbound
  exact Ne.symm (bne_iff_ne.mp (unbound.1 entry member))

theorem filter_of_unbound (unbound : f.isBound name = false) :
    f.values.filter (·.1 == name) = [] :=
  List.filter_eq_nil_iff.mpr fun _ member isName =>
    ne_of_unbound unbound member (beq_iff_eq.mp isName)

/-- A variable under a name that was not bound comes on top of the other bindings. -/
theorem values_setVariable (unbound : f.isBound name = false) :
    (f.setVariable name v).values = (name, v) :: f.values := by
  have others : f.values.filter (·.1 != name) = f.values :=
    List.filter_eq_self.mpr fun _ member => bne_iff_ne.mpr (ne_of_unbound unbound member)
  rw [values, List.filter_append, List.filter_map] at others
  exact congrArg ((name, v) :: ·) others

/-! ## What a name that is bound once means -/

/-- Checking finds the type of its value. -/
theorem lookup_globals_of_filter (only : f.values.filter (·.1 == name) = [(name, v)]) :
    (globals f.bindingTypes).lookup name = some v.type := by
  have types : f.bindingTypes.filter (·.1 == name) = [(name, v.type)] := by
    have kept := filter_mergeSort f.values name
    rw [bindingTypes, List.filter_map]
    exact (congrArg (List.map _) (kept.trans only)).trans rfl
  rw [lookup_globals, types]
  exact TypeEnv.lookup_bind_self _ _ _

/-- Names with the same bindings have the same types. -/
theorem lookup_globals_congr
    (same : g.values.filter (·.1 == name) = f.values.filter (·.1 == name)) :
    (globals g.bindingTypes).lookup name = (globals f.bindingTypes).lookup name := by
  have types (g : Formula) : g.bindingTypes.filter (·.1 == name) =
      (g.values.filter (·.1 == name)).map fun entry => (entry.1, entry.2.type) := by
    rw [bindingTypes, List.filter_map, ← filter_mergeSort g.values name]
    rfl
  rw [lookup_globals, lookup_globals f.bindingTypes, types, types, same]

/-- What a frame binds to a name depends on the bindings of that name only. -/
theorem find?_bindAll (values : List (String × Value)) (name : String) {frame frame' : Frame}
    (same : frame.find? name = frame'.find? name) :
    (bindAll frame values).find? name =
      (bindAll frame' (values.filter (·.1 == name))).find? name := by
  induction values generalizing frame frame' with
  | nil => exact same
  | cons entry rest inductionHypothesis =>
      by_cases isName : entry.1 = name
      · rw [List.filter_cons_of_pos (by simp [isName])]
        apply inductionHypothesis
        dsimp only
        rw [isName, Frame.find?_define_self, Frame.find?_define_self]
      · rw [List.filter_cons_of_neg (by simp [isName])]
        apply inductionHypothesis
        dsimp only
        rw [Frame.find?_define_of_ne _ _ (Ne.symm isName), same]

/-- A run finds its value in the global frame. -/
theorem resolve?_machine (only : f.values.filter (·.1 == name) = [(name, v)]) :
    f.machine.store.resolve? f.machine.env.current name =
      some (f.store.frames.size, ⟨v, false⟩) := by
  have found : f.machine.store.frames[f.store.frames.size]? =
      some (bindAll (Frame.empty none) f.values) :=
    (machine_bindAll (found_atop f.store) f.values).2.2.1
  rw [(size_machine f).1]
  apply Store.resolve?_of_bound
  rw [Store.find?, found, Option.bind_some, find?_bindAll f.values name rfl, only]
  exact Frame.find?_define_self _ _ _

/-! ## The variable renamed -/

/-- The second formula is the first with a variable renamed that is bound to this value, and has
the value bound to the new name as well. -/
structure RenamedTo (r : Renaming) (v : Value) (f g : Formula) : Prop where
  same : g = { f with
    program := (f.program.rename r).2, inputs := g.inputs, methods := g.methods,
    validated := g.validated }
  ofVariables : r.role = .variable
  spared : r.new ∉ f.program.mentions
  old : f.values.filter (·.1 == r.old) = [(r.old, v)]
  new : f.isBound r.new = false
  values : g.values = (r.new, v) :: f.values
  right : f.KeepsRight
  right' : g.KeepsRight

/-- Both are the same value, or errors that are the same but for the name of the variable in
them. -/
inductive RenamedOutcome (r : Renaming) :
    Except FormulaError Value → Except FormulaError Value → Prop
  | ok (x : Value) : RenamedOutcome r (.ok x) (.ok x)
  | error {e e' : FormulaError} (renamed : e.Renamed r e') : RenamedOutcome r (.error e) (.error e')

theorem RenamedOutcome.eq_ok {x : Value} {outcome : Except FormulaError Value}
    (same : RenamedOutcome r (.ok x) outcome) : outcome = .ok x := by
  cases same
  rfl

namespace RenamedTo

variable (renamed : RenamedTo r v f g)
include renamed

theorem program_eq : g.program = (f.program.rename r).2 := by
  rw [renamed.same]

theorem store_eq : g.store = f.store := by
  rw [renamed.same]

theorem filter_new : f.values.filter (·.1 == r.new) = [] :=
  filter_of_unbound renamed.new

theorem filter_new' : g.values.filter (·.1 == r.new) = [(r.new, v)] := by
  rw [renamed.values, List.filter_cons_of_pos (by simp), renamed.filter_new]

theorem filter_of_ne (different : name ≠ r.new) :
    g.values.filter (·.1 == name) = f.values.filter (·.1 == name) := by
  rw [renamed.values, List.filter_cons_of_neg (by simpa using different.symm)]

theorem isBound_of_ne (different : name ≠ r.new) : g.isBound name = f.isBound name := by
  rw [isBound, isBound, renamed.values, List.lookup_cons, beq_false_of_ne different]

theorem isBound_old : f.isBound r.old = true := by
  have member : (r.old, v) ∈ f.values.filter (·.1 == r.old) :=
    renamed.old ▸ List.mem_singleton_self _
  rw [isBound, Bool.or_eq_true]
  left
  cases found : f.values.lookup r.old with
  | some _ => rfl
  | none =>
      have different := List.lookup_eq_none_iff.mp found _ (List.mem_filter.mp member).1
      exact absurd rfl (bne_iff_ne.mp different)

theorem isBound_new : g.isBound r.new = true := by
  rw [isBound, renamed.values, List.lookup_cons, beq_self_eq_true]
  rfl

/-- A use is of a name that is bound exactly if the renamed use is. -/
theorem isBound_use {use : Occurrence} (member : use ∈ f.program.free) :
    g.isBound (r.use use).name = f.isBound use.name := by
  by_cases matched : use.role = r.role ∧ use.name = r.old
  · rw [Renaming.use, if_pos matched, matched.2, renamed.isBound_old]
    exact renamed.isBound_new
  · rw [Renaming.use, if_neg matched]
    apply renamed.isBound_of_ne
    rintro isNew
    exact renamed.spared (isNew ▸ Program.mem_mentions_of_free member)

/-- The first free name that is not bound is the same. -/
theorem unbound?_eq : g.unbound? = f.unbound? := by
  have same : f.program.free.find? ((fun use => !g.isBound use.name) ∘ r.use) =
      f.program.free.find? fun use => !f.isBound use.name := by
    rw [← List.head?_filter, ← List.head?_filter]
    congr 1
    apply List.filter_congr
    intro use member
    exact congrArg not (renamed.isBound_use member)
  rw [unbound?, unbound?, renamed.program_eq, Program.free_rename renamed.spared, List.find?_map,
    same]
  cases found : f.program.free.find? fun use => !f.isBound use.name with
  | none => rfl
  | some use =>
      have unmatched : ¬ (use.role = r.role ∧ use.name = r.old) := by
        rintro ⟨-, isOld⟩
        have unbound := List.find?_some found
        rw [isOld, renamed.isBound_old] at unbound
        cases unbound
      rw [Option.map_some, Option.map_some, Option.map_some, Renaming.use, if_neg unmatched]

/-- Checking ends in the same way. -/
theorem check_mirrored : Typing.ProgramMirrored r (f.program.check (globals f.bindingTypes))
    (g.program.check (globals g.bindingTypes)) := by
  rw [renamed.program_eq]
  exact Typing.mirrors_program renamed.ofVariables
    (fun name different => lookup_globals_congr (renamed.filter_of_ne different))
    (lookup_globals_of_filter renamed.old) (lookup_globals_of_filter renamed.filter_new')
    renamed.spared

/-- The machines for a calculation are twins. -/
theorem twins : f.machine.Twins r f.store.frames.size v [] g.machine where
  alike := by
    have inStore :
        (Machine.atop f.store).env.global < (Machine.atop f.store).store.frames.size := by
      rw [global_atop, size_atop]
      exact Nat.lt_succ_self _
    have shown : g.values.filter (·.1 != r.new) = f.values := by
      rw [renamed.values, List.filter_cons_of_neg (by simp), List.filter_eq_self]
      exact fun _ member => bne_iff_ne.mpr (ne_of_unbound renamed.new member)
    have alike : ((Machine.atop f.store).bindGlobals (g.values.filter (·.1 != r.new))).Alike
        (.hiding r.new) ((Machine.atop f.store).bindGlobals g.values) :=
      (Machine.Alike.refl _).bindGlobals inStore trivial g.values
    rwa [shown, ← machine_eq, ← renamed.store_eq, ← machine_eq] at alike
  inStore := by
    rcases size_machine f with ⟨current, size⟩
    rw [current, size]
    exact Nat.lt_succ_self _
  renamed _ := by
    have isNew := resolve?_machine renamed.filter_new'
    rw [renamed.store_eq] at isNew
    exact ⟨resolve?_machine renamed.old, isNew⟩

/-- The bodies of functions, of which there are none, and all else that stays fixed during a
calculation are the same. -/
theorem setting_eq (hosts : Hosts) (noFunctions : f.program.functions = []) {kept kept' : Validated}
    (checked : f.program.check (globals f.bindingTypes) = .ok kept.program)
    (program : kept'.program = (kept.program.rename r).2) :
    (f.setting hosts kept).functions = [] ∧ g.setting hosts kept' = f.setting hosts kept := by
  have numbers := ((Typing.meets_program _ (fun _ => false) f.program).of_ok checked).1
  rw [noFunctions, List.map_nil, List.map_eq_nil_iff] at numbers
  have numbers' := Stmt.numbers_renameAll r [] kept.program.body
  have isNone : Stmt.functionsAll kept.program.body = [] := numbers
  rw [isNone, List.map_nil, List.map_eq_nil_iff] at numbers'
  have none' : (kept.program.rename r).2.functions = [] := numbers'
  refine ⟨numbers, ?_⟩
  rw [setting, setting, Program.setting, Program.setting, program, none', numbers, renamed.same]

/-- The checked formulas run in the same way. -/
theorem evaluate (noFunctions : f.program.functions = []) {kept kept' : Validated}
    (checked : f.program.check (globals f.bindingTypes) = .ok kept.program)
    (program : kept'.program = (kept.program.rename r).2) (spared : r.new ∉ kept.program.mentions) :
    RenamedOutcome r (f.evaluate hosts bound kept).1 (g.evaluate hosts bound kept').1 := by
  rcases renamed.setting_eq hosts noFunctions checked program with ⟨none, setting⟩
  rw [evaluate_eq, evaluate_eq, setting, program]
  dsimp only
  rcases Machine.run_renamed renamed.ofVariables none renamed.twins bound spared with
    ⟨x, ran, ran'⟩ | ⟨stop, stop', ran, ran', same⟩
  · rw [ran, ran']
    exact .ok x
  · rw [ran, ran']
    exact .error (.stop same)

theorem calculate (noFunctions : f.program.functions = []) :
    RenamedOutcome r (f.calculate hosts bound).1 (g.calculate hosts bound).1 := by
  have mirrored := renamed.check_mirrored
  unfold Formula.calculate
  rw [renamed.unbound?_eq]
  cases f.unbound? with
  | some e => exact .error (.same _)
  | none =>
      rw [validate_eq renamed.right, validate_eq renamed.right', validateAgainst, validateAgainst]
      revert mirrored
      generalize checked : f.program.check (globals f.bindingTypes) = ended,
        g.program.check (globals g.bindingTypes) = ended'
      intro mirrored
      cases mirrored with
      | error same => exact .error (.type same)
      | ok spared => exact renamed.evaluate noFunctions checked rfl spared

end RenamedTo

/-- Renaming a variable that is bound from outside, and binding the new name to its value, makes no
difference to calculations of a formula that declares no functions, if the new name is neither
bound nor built in and the formula does not mention it.  The old name may stay bound.  Only the
uses of the variable are renamed: a call of the old name calls it still, and what the formula
declares under it keeps it. -/
theorem Reached.calculate_renamed (reached : Reached hosts f)
    (noFunctions : f.program.functions = []) (isOld : f.inputs.lookup old = some v)
    (isNew : f.isBound new = false) (spared : new ∉ f.program.mentions) (bound : Nat) :
    RenamedOutcome ⟨.variable, old, new⟩ (f.calculate hosts bound).1
        (((f.rename ⟨.variable, old, new⟩).2.setVariable new v).calculate hosts bound).1 ∧
      (f.rename ⟨.variable, old, new⟩).2.program.free =
        f.program.free.map (Renaming.use ⟨.variable, old, new⟩) := by
  rcases reached.once with ⟨once, right⟩
  have right' : (f.after hosts bound
      [.rename ⟨.variable, old, new⟩, .setVariable new v]).KeepsRight := keepsRight_after right _
  have renamed : RenamedTo ⟨.variable, old, new⟩ v f
      ((f.rename ⟨.variable, old, new⟩).2.setVariable new v) :=
    { same := rfl
      ofVariables := rfl
      spared
      old := filter_values once isOld
      new := isNew
      values := values_setVariable isNew
      right
      right' }
  exact ⟨renamed.calculate noFunctions, Program.free_rename spared⟩

/-- A formula with a loop over a counter that is named as the variable that it uses. -/
def shadowing : String :=
  "for (mut int x = 0; x < 2; x += 1) { } x"

/-- The variable is renamed, and the counter is not. -/
theorem Reached.calculate_renamed_shadowing : ∃ f, ofSource shadowing = .ok f ∧
    ((((f.setVariable "x" (.int 5)).rename ⟨.variable, "x", "y"⟩).2.setVariable "y"
      (.int 5)).calculate noHosts 40).1 = .ok (.int 5) := by
  have facts : (ofSource shadowing).map (fun f =>
      (f.program.functions.length, f.program.mentions, (f.setVariable "x" (.int 5)).isBound "y",
        ((f.setVariable "x" (.int 5)).calculate noHosts 40).1)) =
      .ok (0, ["x", "x", "x", "x"], false, .ok (.int 5)) := by cbv
  cases read : ofSource shadowing with
  | error e =>
      rw [read] at facts
      cases facts
  | ok f =>
      rw [read, Except.map, Except.ok.injEq, Prod.mk.injEq, Prod.mk.injEq, Prod.mk.injEq] at facts
      rcases facts with ⟨plain, names, unbound, given⟩
      have reached : Reached noHosts (f.setVariable "x" (.int 5)) :=
        .step (.read read) 0 (.setVariable "x" (.int 5)) (Value.functions_of_isData rfl)
      have found : (f.setVariable "x" (.int 5)).inputs.lookup "x" = some (.int 5) := rfl
      have spared : "y" ∉ f.program.mentions := by
        rw [names]
        decide
      have same := (Reached.calculate_renamed reached (List.length_eq_zero_iff.mp plain) found
        unbound spared 40).1
      rw [given] at same
      exact ⟨f, rfl, same.eq_ok⟩

end Formula

end Formulae
