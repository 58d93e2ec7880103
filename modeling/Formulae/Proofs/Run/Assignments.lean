import Formulae.Proofs.Run.Names
import Formulae.Proofs.Run.Quiet
import Formulae.Proofs.Typing.Compound

/-!
# Assignments to a name

An assignment to a name with an operator does what the same assignment does when it is written
out, as long as its operand only looks at the machine: both leave the same value under the name, or
both fail in the same way (`Run.agree_compound`).  Checking accepts both but for mixed operands, and
the executions of what is checked agree but for string literals beside something mixed
(`Stmt.agree_of_checks`).
-/

namespace Formulae

variable {α : Type}

/-! ## Storing under a name -/

namespace Store

variable {store : Store} {id frame : Nat} {name : String} {old : Value}

theorem lookup?_of_place (found : store.place id name = .ok (frame, old)) :
    store.lookup? id name = some old := by
  unfold place at found
  unfold lookup?
  cases resolved : store.resolve? id name with
  | none => simp [resolved] at found
  | some place =>
      obtain ⟨frame', binding⟩ := place
      simp only [resolved] at found
      split at found
      · cases found
        rfl
      · cases found

theorem lookup?_write_of_place (found : store.place id name = .ok (frame, old)) (new : Value) :
    (store.write frame name new).lookup? id name = some new := by
  unfold place at found
  unfold lookup?
  rw [resolve?_write]
  cases resolved : store.resolve? id name with
  | none => simp [resolved] at found
  | some place =>
      obtain ⟨frame', binding⟩ := place
      simp only [resolved] at found
      split at found
      · cases found
        simp
      · cases found

end Store

/-- The machine after an assignment to a name. -/
def Machine.stored (m : Machine) (frame : Nat) (name : String) (value : Value) : Machine :=
  { m with store := m.store.write frame name value }

namespace Run

variable {s : Setting α} {m : Machine} {name : String} {frame : Nat} {old : Value}

theorem reaches_ident (found : m.store.place m.env.current name = .ok (frame, old))
    (node : Node α) : Reaches (fun bound => eval s bound (.ident node name)) m (.ok old) := by
  have isBound : m.lookup? name = some old := Store.lookup?_of_place found
  have fetched : fetch name (.unboundVariable name) node.span m = .ok old m := by
    rw [fetch, isBound]
  have reaches : Reaches (fun _ => fetch name (.unboundVariable name) node.span) m (.ok old) :=
    ⟨0, fun _ _ => fetched⟩
  exact reaches.deeper fun _ => rfl

theorem assign_of_place (found : m.store.place m.env.current name = .ok (frame, old))
    (base : Option Operator) (value : Value) (span : Span) :
    assign name [] base value span m =
      match Value.combined base value span old with
      | .ok new => .ok new (m.stored frame name new)
      | .error error => .error (.failed error) m := by
  unfold assign
  rw [found]
  dsimp only [Value.update]
  cases Value.combined base value span old <;> rfl

theorem eval_assignment {op : Operator} (assigns : op.isAssignment) (node target : Node α)
    (value : Expr α) (bound : Nat) :
    eval s (bound + 2) (.binary node op (.ident target name) value) = (do
      let v ← eval s (bound + 1) value
      assign name [] op.compoundBase v node.span) := by
  cases op <;> first | rfl | cases assigns

/-- How the assignment of a value ends. -/
def assigned (m : Machine) (frame : Nat) (name : String) :
    Except EvalError Value → EStateM.Result Stop Machine Flow
  | .ok new => .ok .next (m.stored frame name new)
  | .error error => .error (.failed error) m

/-- An assignment to a name stores what comes of its value, and if that fails it does nothing. -/
theorem exec_assignment (active : s.cancelled = false)
    (found : m.store.place m.env.current name = .ok (frame, old)) {op : Operator}
    (assigns : op.isAssignment) {value : Expr α} {outcome : Except EvalError Value}
    (reaches : Reaches (fun bound => eval s bound value) m outcome) (outer : StmtNode)
    (node target : Node α) :
    ∃ need, ∀ bound, need ≤ bound →
      exec s bound (.expr outer (.binary node op (.ident target name) value)) m =
        assigned m frame name
          (outcome.bind fun v => Value.combined op.compoundBase v node.span old) := by
  rcases reaches with ⟨need, reaches⟩
  refine ⟨need + 3, fun bound enough => ?_⟩
  obtain ⟨bound, rfl⟩ : ∃ less, bound = less + 3 := ⟨bound - 3, by omega⟩
  have evaluated : eval s (bound + 1) value m = settle outcome m := reaches (bound + 1) (by omega)
  have started : checkCancelled s outer.span = pure () := if_neg (ne_true_of_eq_false active)
  have executed : exec s (bound + 3) (.expr outer (.binary node op (.ident target name) value)) =
      (do
        checkCancelled s outer.span
        let _ ← eval s (bound + 2) (.binary node op (.ident target name) value)
        return .next) := rfl
  rw [executed, started, eval_assignment assigns, pure_bind, bind_assoc]
  change EStateM.bind _ _ m = _
  rw [EStateM.bind, evaluated]
  cases outcome with
  | error error => rfl
  | ok v =>
      change EStateM.bind _ _ m = _
      rw [EStateM.bind, assign_of_place found]
      dsimp only [Except.bind]
      cases Value.combined op.compoundBase v node.span old <;> rfl

theorem exec_of_cancelled (cancelled : s.cancelled) (stmt : Stmt α) {bound : Nat}
    (enough : 1 ≤ bound) : exec s bound stmt m = .error (.failed ⟨.cancelled, stmt.span⟩) m := by
  have stops : checkCancelled s stmt.span = fail .cancelled stmt.span := if_pos cancelled
  cases bound with
  | zero => omega
  | succ bound =>
      unfold exec
      rw [stops]
      rfl

theorem reaches_compoundBase (found : m.store.place m.env.current name = .ok (frame, old))
    {op base : Operator} (isCompound : op.compoundBase = some base) {value : Expr α}
    {outcome : Except EvalError Value}
    (reaches : Reaches (fun bound => eval s bound value) m outcome) (node operand : Node α) :
    Reaches (fun bound => eval s bound (.binary node base (.ident operand name) value)) m
      (outcome.bind fun v => Value.locate node.span (Value.binary base old v)) := by
  have located (result : Except EvalFault Value) :
      Reaches (fun _ => Run.located node.span result) m (Value.locate node.span result) := by
    cases result <;> exact ⟨0, fun _ _ => rfl⟩
  have combined : Reaches (fun bound => do
        let x ← eval s bound (.ident operand name)
        let y ← eval s bound value
        Run.located node.span (x.binary base y)) m
      (outcome.bind fun v => Value.locate node.span (Value.binary base old v)) := by
    apply (reaches_ident found operand).bind
    cases outcome with
    | error error => exact reaches.bind_error
    | ok v => exact reaches.bind (located _)
  refine combined.deeper fun bound => ?_
  cases op <;> cases isCompound <;> rfl

end Run

/-! ## Two ways to write an assignment -/

/-- With bounds that are large enough both statements leave the same value under the name, on the
same machine, or both fail in the same way and change nothing. -/
inductive Stmt.Agree (s s' : Setting α) (m : Machine) (name : String) (x x' : Stmt α) : Prop
  | stored {value : Value} {m' : Machine} (holds : m'.lookup? name = some value) (need : Nat)
      (ends : ∀ bound, need ≤ bound →
        Run.exec s bound x m = .ok .next m' ∧ Run.exec s' bound x' m = .ok .next m')
  | failed {fault : EvalFault} {span span' : Span} (need : Nat)
      (ends : ∀ bound, need ≤ bound →
        Run.exec s bound x m = .error (.failed ⟨fault, span⟩) m ∧
          Run.exec s' bound x' m = .error (.failed ⟨fault, span'⟩) m)

namespace Run

variable {s s' : Setting α} {m : Machine} {name : String} {frame : Nat} {old : Value}

theorem agree_of_akin {x x' : Stmt α} (found : m.store.place m.env.current name = .ok (frame, old))
    {outcome outcome' : Except EvalError Value} (akin : Akin outcome outcome') (need need' : Nat)
    (ends : ∀ bound, need ≤ bound → exec s bound x m = assigned m frame name outcome)
    (ends' : ∀ bound, need' ≤ bound → exec s' bound x' m = assigned m frame name outcome') :
    Stmt.Agree s s' m name x x' := by
  cases akin with
  | ok new =>
      have holds : (m.stored frame name new).lookup? name = some new :=
        Store.lookup?_write_of_place found new
      refine .stored holds (max need need') fun bound enough => ?_
      exact ⟨ends bound (by omega), ends' bound (by omega)⟩
  | error fault span span' =>
      exact .failed (max need need') fun bound enough =>
        ⟨ends bound (by omega), ends' bound (by omega)⟩

/-- Where the operands are evaluated alike, an assignment with an operator does what it does when
it is written out. -/
theorem agree_compound (sameCancelled : s'.cancelled = s.cancelled)
    (found : m.store.place m.env.current name = .ok (frame, old)) {op base : Operator}
    (isCompound : op.compoundBase = some base) {value value' : Expr α}
    (concurs : Concurs (fun bound => eval s bound value) (fun bound => eval s' bound value') m)
    (outer outer' : StmtNode) (node node' target target' inner operand : Node α) :
    Stmt.Agree s s' m name (.expr outer (.binary node op (.ident target name) value))
      (.expr outer' (.binary node' .assign (.ident target' name)
        (.binary inner base (.ident operand name) value'))) := by
  cases cancelled : s.cancelled with
  | true =>
      exact .failed 1 fun bound enough => ⟨exec_of_cancelled cancelled _ enough,
        exec_of_cancelled (sameCancelled.trans cancelled) _ enough⟩
  | false =>
      rcases concurs with ⟨outcome, outcome', akin, reaches, reaches'⟩
      have assigns := Operator.isAssignment_of_compoundBase isCompound
      have plain : Operator.assign.isAssignment := rfl
      have combined := reaches_compoundBase found isCompound reaches' inner operand
      rcases exec_assignment cancelled found assigns reaches outer node target with ⟨need, ends⟩
      rcases exec_assignment (sameCancelled.trans cancelled) found plain combined
        outer' node' target' with ⟨need', ends'⟩
      refine agree_of_akin found ?_ need need' ends ends'
      rw [isCompound]
      cases akin with
      | error fault span span' => exact .error fault span span'
      | ok v =>
          dsimp only [Except.bind, Value.combined, Operator.compoundBase]
          cases Value.binary base old v with
          | error fault => exact .error fault _ _
          | ok new => exact .ok new

theorem quiet_of_reads {s : Setting Ty} {m : Machine} {value read : TypedExpr}
    (reads : Typing.Reads value read) (quiet : value.Quiet s m) : read.Quiet s m := by
  rcases reads with rfl | literal
  · exact quiet
  · unfold Typing.calendarLiteral? at literal
    split at literal
    · rcases Option.map_eq_some_iff.mp literal with ⟨constant, -, rfl⟩
      exact quiet_constant _ constant
    · cases literal

end Run

namespace Stmt

open Typing

/-- An assignment to a variable with an operator is accepted wherever it is when it is written
out, unless its operand is mixed and the variable is not.  Where both are accepted, their
executions agree for each operand that only looks at the machine and is no literal for a date or a
duration beside something mixed. -/
theorem agree_of_checks {op base : Operator} (isCompound : op.compoundBase = some base)
    {env : TypeEnv} {name : String} {type : Ty} (bound : env.lookup name = some type)
    (writable : type.isFinal = false) {e e' : Expr Unit} (same : e'.bare = e.bare)
    (around : Surroundings) (outer outer' : StmtNode)
    (node node' target target' inner operand : Bare) (next next' : Nat) :
    ((∃ ended, (compoundAssignment outer node target op name e).check around env next
          = .ok ended) ↔
        (∃ ended, (writtenAssignment outer' node' target' inner operand base name e').check
          around env next' = .ok ended) ∧
        ∀ value stop, e.check env next = .ok (value, stop) →
          value.label.isMixed → type.isMixed) ∧
      ∀ x after stop x' after' stop',
        (compoundAssignment outer node target op name e).check around env next
          = .ok ((x, after), stop) →
        (writtenAssignment outer' node' target' inner operand base name e').check around env next'
          = .ok ((x', after'), stop') →
        after = env ∧ after' = env ∧
          ∀ (s s' : Setting Ty) (m : Machine) (frame : Nat) (old : Value),
            s'.cancelled = s.cancelled →
            m.store.place m.env.current name = .ok (frame, old) →
            (∀ value stop, e.check env next = .ok (value, stop) → value.Quiet s m ∧
              (readsCalendar base → type.leaf.isMixed → calendarLiteral? value = none)) →
            Agree s s' m name x x' := by
  refine ⟨checks_compoundAssignment_iff bound writable isCompound same, ?_⟩
  intro x after stop x' after' stop' checked checked'
  rcases exists_of_checks bound writable isCompound same checked checked' with
    ⟨value, stop, y, y', combined, isValue, reads, alike, isStmt, isStmt'⟩
  cases isStmt
  cases isStmt'
  refine ⟨rfl, rfl, fun s s' m frame old sameCancelled found operand => ?_⟩
  rcases operand value stop isValue with ⟨quiet, unmixed⟩
  have concurs := Run.concurs_eval s' (Run.quiet_of_reads reads quiet) (alike unmixed)
  exact Run.agree_compound sameCancelled found isCompound concurs _ _ _ _ _ _ _ _

/-- A statement at no place in particular. -/
def someStmt : StmtNode :=
  ⟨0, .point 0⟩

/-- An expression at no place in particular. -/
def someExpr : Bare :=
  ⟨0, .point 0, ()⟩

/-- A machine with a date that may be replaced. -/
def datedMachine : Machine :=
  bareMachine.define "x" ⟨.date ⟨0, 0, 0⟩, true⟩

/-- A string literal is read as a duration and added to a date. -/
theorem agree_of_checks_date : ∃ x x',
    let env := TypeEnv.empty.bind "x" (.basic .date false)
    let day : Expr Unit := .constant someExpr (.string "P1D")
    let s : Setting Ty := ⟨.empty, [], noHosts, defaultCallLimit, false⟩
    (compoundAssignment someStmt someExpr someExpr .addAssign "x" day).check .outside env 0
        = .ok ((x, env), 0) ∧
      (writtenAssignment someStmt someExpr someExpr someExpr someExpr .add "x" day).check
        .outside env 0 = .ok ((x', env), 0) ∧
      Agree s s datedMachine "x" x x' := by
  refine ⟨_, _, rfl, rfl, ?_⟩
  have isCompound : Operator.addAssign.compoundBase = some .add := rfl
  have alike := agree_of_checks isCompound
    (TypeEnv.lookup_bind_self .empty "x" (.basic .date false)) rfl
    (Eq.refl (Expr.constant someExpr (.string "P1D")).bare) .outside someStmt someStmt someExpr
    someExpr someExpr someExpr someExpr someExpr 0 0
  refine (alike.2 _ _ _ _ _ _ rfl rfl).2.2 _ _ datedMachine 0 (.date ⟨0, 0, 0⟩) rfl (by cbv) ?_
  rintro value stop checked
  cases checked
  refine ⟨Run.quiet_constant _ _, ?_⟩
  rintro - mixed
  cases mixed

/-- A mixed operand is refused by an assignment with an operator, and accepted with a cast when the
assignment is written out. -/
theorem disagree_of_isMixed :
    let env := (TypeEnv.empty.bind "x" (.basic .int false)).bind "m" Ty.mixed
    let m : Expr Unit := .ident someExpr "m"
    (∃ ended, (writtenAssignment someStmt someExpr someExpr someExpr someExpr .add "x" m).check
        .outside env 0 = .ok ended) ∧
      ¬ ∃ ended, (compoundAssignment someStmt someExpr someExpr .addAssign "x" m).check
        .outside env 0 = .ok ended := by
  refine ⟨⟨_, rfl⟩, ?_⟩
  rintro ⟨ended, checked⟩
  cases checked

end Stmt

end Formulae
