import Formulae.Proofs.Session.RenamedVariable
import Formulae.Proofs.Value.OwnType

/-!
# Types of what is bound from outside

A value that is bound from outside is bound with its own type for checking, and for runs as it
is.  So formulas see values of the types they were checked against, unless integers stand among
floats in an array of numbers (`Value.own_type_describes`): then an integer is read where
checking saw a float (`Value.own_type_misdescribes`).
-/

namespace Formulae

namespace Formula

variable {f : Formula} {hosts : Hosts} {name : String} {v : Value}

/-- A name stands for a value from outside, wherever a formula does not declare the name itself:
the formula is checked with this type for the name, and whatever statements of it have been
executed, the name reads as the value. -/
structure Supplies (f : Formula) (name : String) (type : Ty) (v : Value) : Prop where
  validated : ∀ kept, f.validate = .ok kept →
    f.program.check (globals f.bindingTypes) = .ok kept.program
  typed : ∀ (env : TypeEnv) (node : Typing.Bare),
    env.lookup name = (globals f.bindingTypes).lookup name →
      Typing.ident env node name = pure (.ident (node.typed type) name)
  read : ∀ {α : Type} (s : Setting α) (bound bound' : Nat) (stmts : List (Stmt α)) (node : Node α),
    Run.Leaves (fun m =>
        m.store.resolve? m.env.current name = m.store.resolve? m.env.global name →
          Run.eval s (bound' + 1) (.ident node name) m = .ok v m)
      (Run.execAll s bound stmts f.machine.pushScope)

/-- Statements that are executed do not change what is bound from outside. -/
theorem leaves_binding {α : Type} (s : Setting α) (bound : Nat) (stmts : List (Stmt α))
    (only : f.values.filter (·.1 == name) = [(name, v)]) :
    Run.Leaves (fun m => m.store.resolve? m.env.global name = some (m.env.global, ⟨v, false⟩))
      (Run.execAll s bound stmts f.machine.pushScope) := by
  have ready := (prepared_machine f).ready
  have bound' : f.machine.store.find? f.machine.env.global name = some ⟨v, false⟩ := by
    rw [← ready.current, (size_machine f).1]
    exact (Store.bound_of_resolve? (resolve?_machine only)).1
  have elsewhere : f.machine.pushScope.env.current ≠ f.machine.env.global := by
    rw [Machine.current_pushScope]
    exact (Nat.ne_of_lt ready.inStore).symm
  have keeps := (Run.keepsAll f.machine.env.global s bound).execAll stmts
  refine (keeps _ ready.guards.pushScope elsewhere).mono fun m left => ?_
  have sameGlobal : m.env.global = f.machine.pushScope.env.global :=
    congrArg Environment.global left.env
  apply Store.resolve?_of_bound
  rw [sameGlobal]
  exact (Machine.find?_of_same left.same name).trans ((Store.find?_push _ _ _ _).trans bound')

theorem Reached.supplies (reached : Reached hosts f) (found : f.values.lookup name = some v) :
    f.Supplies name v.type v where
  validated _ := check_of_validate reached.once.2
  typed env node same := by
    have only := filter_of_lookup reached.once.1 found
    rw [Typing.ident, Typing.nameType?, same, lookup_globals_of_filter only]
    rfl
  read s bound bound' stmts node := by
    have only := filter_of_lookup reached.once.1 found
    refine (leaves_binding s bound stmts only).mono fun m isBound same => ?_
    have isValue : m.lookup? name = some v := by
      rw [Machine.lookup?, Store.lookup?, same, isBound]
      rfl
    rw [Run.eval, Run.fetch, isValue]

end Formula

/-- A value in which there is no void is bound with a type that admits it, and that is exactly its
type unless integers and floats stand together in it; and wherever it is bound from outside,
formulas are checked with this type for its name and read the value itself. -/
theorem Value.own_type_describes {v : Value} (noVoid : v.hasNoVoid) :
    v.type.admits v ∧ (v.type.has v ↔ ¬ v.Blends) ∧
      ∀ {hosts : Hosts} {f : Formula} {name : String}, Formula.Reached hosts f →
        f.values.lookup name = some v → f.Supplies name v.type v :=
  ⟨type_admits_of_hasNoVoid noVoid, type_has_iff noVoid, fun reached => reached.supplies⟩

/-- A row with an integer beside a row with a float. -/
def Value.rows (x : Float) : Value :=
  .array [.array [.int 1], .array [.float x]]

/-- A row of integers and a row of floats have no type in common. -/
theorem Value.own_type_describes_rows : (rows 2.5).hasNoVoid ∧
    (rows 2.5).type = .arrayOf .mixed none ∧ ¬ (rows 2.5).Blends ∧
      ∃ f, Formula.ofSource "a[1]" = .ok f ∧
        (f.setVariable "a" (rows 2.5)).Supplies "a" (rows 2.5).type (rows 2.5) := by
  generalize (2.5 : Float) = x
  have noVoid : (rows x).hasNoVoid := by cbv
  rcases own_type_describes noVoid with ⟨-, exact, supplied⟩
  have has : (rows x).type.has (rows x) := by cbv
  refine ⟨noVoid, by cbv, exact.mp has, ?_⟩
  cases read : Formula.ofSource "a[1]" with
  | error e =>
      have reads : (Formula.ofSource "a[1]").toBool = true := by cbv
      rw [read] at reads
      cases reads
  | ok f =>
      have known : (rows x).Known f.store := by
        rintro part isPart closure rfl
        simp [rows, parts, partsAll] at isPart
      have reached : Formula.Reached Formula.noHosts (f.setVariable "a" (rows x)) :=
        .step (.read read) 0 (.setVariable "a" (rows x)) known
      exact ⟨f, rfl, supplied reached rfl⟩

/-- An integer beside a float. -/
def Value.mingled (x : Float) : Value :=
  .array [.int 1, .float x]

/-- An integer beside a float is read where checking saw a float. -/
theorem Value.own_type_misdescribes : (mingled 2.5).hasNoVoid ∧
    (mingled 2.5).type = .arrayOf .float none ∧ (mingled 2.5).type.has (mingled 2.5) = false ∧
      (Formula.ofSource "a[0]").map (fun f =>
        ((f.setVariable "a" (mingled 2.5)).resultType.1,
          ((f.setVariable "a" (mingled 2.5)).calculate Formula.noHosts 40).1)) =
        .ok (.ok .float, .ok (.int 1)) := by
  generalize (2.5 : Float) = x
  exact ⟨by cbv, by cbv, by cbv, by cbv⟩

end Formulae
