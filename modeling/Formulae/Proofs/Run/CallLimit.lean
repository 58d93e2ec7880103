import Formulae.Proofs.Run.Control
import Formulae.Proofs.Run.Recorded

/-!
# The limit on nested calls

A run with a record of its calls is the plain run, and says when the limit matters: never are
more calls under way than the limit allows, and the run ends as too deep exactly when a call
with the right number of arguments is attempted while that many are.  If that does not happen,
the run is the same with every larger limit (`Machine.limited_run`).
-/

namespace Formulae

/-- The same setting with another limit on nested calls. -/
def Setting.allowing {α : Type} (s : Setting α) (limit : Nat) : Setting α :=
  { s with callLimit := limit }

/-- The step stopped because calls were nested too deeply. -/
def Stop.isDepth : Stop → Bool
  | .failed ⟨.callDepth _, _⟩ => true
  | _ => false

theorem EvalFault.not_isDepth_of_isOfValues {fault : EvalFault} {span : Span}
    (isOfValues : fault.isOfValues) : (Stop.failed ⟨fault, span⟩).isDepth = false := by
  cases fault <;> first | rfl | cases isOfValues

/-! ## Records -/

open CallEvent (active refused)

namespace CallEvent

/-- The refused calls are the attempted ones with the right number of arguments that find so
many calls under way. -/
theorem mem_refused_iff {limit : Nat} {calls : List CallEvent} {span : Span} :
    span ∈ refused limit calls ↔ ∃ f args past, .attempted f args span :: past <:+ calls ∧
      args.length = f.params.length ∧ active past = limit := by
  induction calls with
  | nil => simp [refused]
  | cons event calls inductionHypothesis =>
      simp only [List.suffix_cons_iff, or_and_right, exists_or, ← inductionHypothesis]
      cases event with
      | attempted f args other =>
          rw [refused]
          split
          · next met =>
              rw [List.mem_cons]
              apply or_congr_left
              constructor
              · rintro rfl
                exact ⟨f, args, calls, rfl, met⟩
              · rintro ⟨_, _, _, same, _⟩
                cases same
                rfl
          · next unmet =>
              refine (or_iff_right ?_).symm
              rintro ⟨_, _, _, same, met⟩
              cases same
              exact unmet met
      | entered | left => simp [refused]

end CallEvent

namespace Record

/-- The record agrees with the machine on the calls under way, and never were there more than
the limit allows. -/
structure Within (limit : Nat) (w : Record) : Prop where
  counts : active w.calls = w.machine.callDepth
  within : ∀ moment, moment <:+ w.calls → active moment ≤ limit

/-- What a step leads to: as many calls are under way as before. -/
structure Settles (limit : Nat) (w w' : Record) : Prop where
  within : w'.Within limit
  depth : w'.machine.callDepth = w.machine.callDepth

variable {limit : Nat} {w w₁ w₂ : Record}

theorem Within.settles (within : w.Within limit) : w.Settles limit w :=
  ⟨within, rfl⟩

theorem Settles.trans (first : w.Settles limit w₁) (second : w₁.Settles limit w₂) :
    w.Settles limit w₂ :=
  ⟨second.within, second.depth.trans first.depth⟩

theorem Within.change (within : w.Within limit) {m : Machine}
    (depth : m.callDepth = w.machine.callDepth) : w.Settles limit { w with machine := m } :=
  ⟨⟨within.counts.trans depth.symm, within.within⟩, depth⟩

theorem Within.note (within : w.Within limit) {event : CallEvent} {m : Machine}
    (counts : active (event :: w.calls) = m.callDepth) (room : m.callDepth ≤ limit) :
    Within limit ⟨m, event :: w.calls⟩ where
  counts := counts
  within moment past := by
    rcases List.suffix_cons_iff.mp past with rfl | earlier
    · exact counts ▸ room
    · exact within.within moment earlier

end Record

namespace Recorded

variable {β γ : Type} {limit : Nat}

/-- How a step with a record compares to two plain ones, of which the second has a larger
limit: all of them end alike, or else the first two end as too deep and the record says where
the call was refused. -/
inductive Told (limit : Nat) (w : Record) :
    EStateM.Result Stop Record β → EStateM.Result Stop Machine β →
      EStateM.Result Stop Machine β → Prop
  | ok {result : β} {w' : Record} (settles : w.Settles limit w')
      (clear : refused limit w'.calls = []) :
      Told limit w (.ok result w') (.ok result w'.machine) (.ok result w'.machine)
  | error {stop : Stop} {w' : Record} (settles : w.Settles limit w')
      (clear : refused limit w'.calls = []) (other : stop.isDepth = false) :
      Told limit w (.error stop w') (.error stop w'.machine) (.error stop w'.machine)
  | tooDeep {span : Span} {w' : Record} {wider : EStateM.Result Stop Machine β}
      (settles : w.Settles limit w') (isRefused : refused limit w'.calls = [span]) :
      Told limit w (.error (.failed ⟨.callDepth limit, span⟩) w')
        (.error (.failed ⟨.callDepth limit, span⟩) w'.machine) wider

/-- Steps compare in this way from every record on in which no call was refused. -/
def Tells (limit : Nat) (x : Recorded β) (y wider : Run β) : Prop :=
  ∀ w : Record, w.Within limit → refused limit w.calls = [] →
    Told limit w (x w) (y w.machine) (wider w.machine)

theorem Told.after {w w₁ : Record} {x : EStateM.Result Stop Record β}
    {y wider : EStateM.Result Stop Machine β} (settles : w.Settles limit w₁)
    (told : Told limit w₁ x y wider) : Told limit w x y wider := by
  cases told with
  | ok later clear => exact .ok (settles.trans later) clear
  | error later clear other => exact .error (settles.trans later) clear other
  | tooDeep later isRefused => exact .tooDeep (settles.trans later) isRefused

theorem tells_pure (result : β) : Tells limit (pure result) (pure result) (pure result) :=
  fun _ within clear => .ok within.settles clear

theorem tells_exhausted : Tells limit (throw .exhausted : Recorded β) (throw .exhausted)
    (throw .exhausted) :=
  fun _ within clear => .error within.settles clear rfl

/-- The step calls nothing: it leaves the calls under way and does not fail for their number. -/
def Quiet (step : Run β) : Prop :=
  ∀ m : Machine,
    match step m with
    | .ok _ m' => m'.callDepth = m.callDepth
    | .error stop m' => m'.callDepth = m.callDepth ∧ stop.isDepth = false

theorem tells_lift {step : Run β} (quiet : Quiet step) : Tells limit (lift step) step step := by
  intro w within clear
  have ends := quiet w.machine
  unfold lift
  cases ran : step w.machine with
  | ok result m =>
      rw [ran] at ends
      exact .ok (within.change ends) clear
  | error stop m =>
      rw [ran] at ends
      exact .error (within.change ends.1) clear ends.2

theorem Told.bind {w : Record} {x : Recorded β} {y wider : Run β} {f : β → Recorded γ}
    {g wider' : β → Run γ} (first : Told limit w (x w) (y w.machine) (wider w.machine))
    (second : ∀ b, Tells limit (f b) (g b) (wider' b)) :
    Told limit w ((x >>= f) w) ((y >>= g) w.machine) ((wider >>= wider') w.machine) := by
  simp only [Bind.bind, EStateM.bind]
  generalize x w = x₁, y w.machine = y₁, wider w.machine = wider₁ at first
  cases first with
  | ok settles clear => exact (second _ _ settles.within clear).after settles
  | error settles clear other => exact .error settles clear other
  | tooDeep settles isRefused => exact .tooDeep settles isRefused

theorem Tells.bind {x : Recorded β} {y wider : Run β} {f : β → Recorded γ} {g wider' : β → Run γ}
    (first : Tells limit x y wider) (second : ∀ b, Tells limit (f b) (g b) (wider' b)) :
    Tells limit (x >>= f) (y >>= g) (wider >>= wider') :=
  fun w within clear => (first w within clear).bind second

theorem Tells.map {x : Recorded β} {y wider : Run β} (tells : Tells limit x y wider) (f : β → γ) :
    Tells limit (f <$> x) (f <$> y) (f <$> wider) :=
  tells.bind fun result => tells_pure (f result)

theorem tells_between {enter leave : Record → Record} {enter' leave' : Machine → Machine}
    {x : Recorded β} {y wider : Run β} {w : Record} (clear : refused limit (enter w).calls = [])
    (entered : (enter w).Within limit) (enters : (enter w).machine = enter' w.machine)
    (leaves : ∀ w₁, (enter w).Settles limit w₁ → w.Settles limit (leave w₁) ∧
      (leave w₁).machine = leave' w₁.machine ∧
      refused limit (leave w₁).calls = refused limit w₁.calls)
    (tells : Tells limit x y wider) :
    Told limit w (between enter leave x w) (Run.between enter' leave' y w.machine)
      (Run.between enter' leave' wider w.machine) := by
  have told := tells (enter w) entered clear
  rw [enters] at told
  unfold between Run.between
  generalize x (enter w) = x₁, y (enter' w.machine) = y₁, wider (enter' w.machine) = wider₁ at told
  cases told with
  | ok settles clear =>
      rcases leaves _ settles with ⟨left, machine, same⟩
      simp only [← machine]
      exact .ok left (same.trans clear)
  | error settles clear other =>
      rcases leaves _ settles with ⟨left, machine, same⟩
      simp only [← machine]
      exact .error left (same.trans clear) other
  | tooDeep settles isRefused =>
      rcases leaves _ settles with ⟨left, machine, same⟩
      simp only [← machine]
      exact .tooDeep left (same.trans isRefused)

theorem Tells.inScope {x : Recorded β} {y wider : Run β} (tells : Tells limit x y wider) :
    Tells limit (inScope x) (Run.inScope y) (Run.inScope wider) := by
  intro w within clear
  have entered : Record.Within limit { w with machine := w.machine.pushScope } :=
    (within.change (Machine.callDepth_pushScope _)).within
  apply tells_between clear entered rfl _ tells
  intro w₁ settles
  exact ⟨⟨⟨settles.within.counts, settles.within.within⟩, settles.depth⟩, rfl, rfl⟩

/-- A call, if there is room for one more. -/
theorem tells_inCall {x : Recorded β} {y wider : Run β} {w : Record} (frame : Nat)
    (within : w.Within limit) (clear : refused limit w.calls = [])
    (room : w.machine.callDepth < limit) (tells : Tells limit x y wider) :
    Told limit w (inCall frame x w) (Run.inCall frame y w.machine)
      (Run.inCall frame wider w.machine) := by
  have entered : Record.Within limit ⟨w.machine.enterCall frame, .entered :: w.calls⟩ := by
    have counts : active (.entered :: w.calls) = (w.machine.enterCall frame).callDepth := by
      rw [active, within.counts, Machine.callDepth_enterCall]
    exact within.note counts room
  apply tells_between clear entered rfl _ tells
  intro w₁ settles
  have depth : w₁.machine.callDepth = w.machine.callDepth + 1 := settles.depth
  have left : w₁.machine.leaveCall.callDepth = w.machine.callDepth := by
    unfold Machine.leaveCall
    cases callers : w₁.machine.callers with
    | nil => simp [Machine.callDepth, callers] at depth
    | cons env others =>
        rw [Machine.callDepth, callers, List.length_cons] at depth
        exact Nat.succ.inj depth
  have counts : active (.left :: w₁.calls) = w₁.machine.leaveCall.callDepth := by
    rw [active, settles.within.counts, depth, left, Nat.add_sub_cancel]
  exact ⟨⟨settles.within.note counts (left ▸ Nat.le_of_lt room), left⟩, rfl, rfl⟩

/-! ## Steps that call nothing -/

theorem quiet_fail {fault : EvalFault} {span : Span}
    (other : (Stop.failed ⟨fault, span⟩).isDepth = false) : Quiet (Run.fail fault span : Run β) :=
  fun _ => ⟨rfl, other⟩

theorem quiet_located (span : Span) {result : Except EvalFault β} {good : β → Prop}
    (ends : Ends good (fun fault => fault.isOfValues) result) :
    Quiet (Run.located span result) := by
  intro m
  cases result with
  | ok value => rfl
  | error fault => exact ⟨rfl, EvalFault.not_isDepth_of_isOfValues ends⟩

theorem quiet_checkCancelled {α : Type} (s : Setting α) (span : Span) :
    Quiet (Run.checkCancelled s span) := by
  intro m
  unfold Run.checkCancelled
  cases s.cancelled with
  | true => exact ⟨rfl, rfl⟩
  | false => rfl

theorem quiet_fetch (name : String) {missing : EvalFault} (span : Span)
    (other : (Stop.failed ⟨missing, span⟩).isDepth = false) :
    Quiet (Run.fetch name missing span) := by
  intro m
  unfold Run.fetch
  cases m.lookup? name with
  | some value => rfl
  | none =>
      cases Builtin.ofName? name with
      | some function => rfl
      | none => exact ⟨rfl, other⟩

theorem quiet_modify {change : Machine → Machine}
    (depth : ∀ m : Machine, (change m).callDepth = m.callDepth) :
    Quiet (modify change : Run Unit) :=
  depth

theorem quiet_define (name : String) (b : Binding) :
    Quiet (modify (·.define name b) : Run Unit) :=
  quiet_modify fun _ => rfl

theorem quiet_declare (declaration : Nat) (name : String) (label : Name) (params : List Param) :
    Quiet (modify (·.declare declaration name label params) : Run Unit) :=
  quiet_modify fun _ => rfl

theorem quiet_bindParams (params : List Param) (args : List Value) :
    Quiet (Run.bindParams params args) := by
  apply quiet_modify
  induction params.zip args with
  | nil => exact fun _ => rfl
  | cons entry rest inductionHypothesis =>
      intro m
      exact inductionHypothesis (m.define entry.1.name ⟨entry.2, entry.1.mutable⟩)

theorem quiet_cast (target : Ty) (v : Value) (span : Span) :
    Quiet (Run.located span (Value.cast target v)) :=
  quiet_located span (Value.gives_cast (fun _ _ => trivial) target (Run.every_true v))

theorem quiet_element (receiver subscript : Value) (span : Span) :
    Quiet (Run.located span (receiver.element subscript)) :=
  quiet_located span (Value.gives_element (fun _ _ => trivial) (Run.every_true receiver))

theorem quiet_loopItem (binder : Binder) (span : Span) (item : Value) :
    Quiet (Run.loopItem binder span item) := by
  unfold Run.loopItem
  split
  · exact quiet_cast _ _ _
  · exact fun _ => rfl

theorem quiet_assign (name : String) (path : List Value.Step) (base : Option Operator)
    (value : Value) (span : Span) : Quiet (Run.assign name path base value span) := by
  intro m
  unfold Run.assign
  cases m.store.place m.env.current name with
  | error refusal => cases refusal <;> exact ⟨rfl, rfl⟩
  | ok place =>
      obtain ⟨frame, old⟩ := place
      have stores (old : Value) :
          Value.GivesAt (fun _ => True) (Value.combined base value span old) :=
        Value.gives_combined (fun _ _ => trivial) old (Run.every_true value)
      have update := Value.ends_update (fun _ _ => trivial) (fun old _ => stores old) path
        (Run.every_true old)
      dsimp only
      cases ran : old.update (Value.combined base value span) path with
      | error e =>
          exact ⟨rfl, EvalFault.not_isDepth_of_isOfValues (update.of_error ran)⟩
      | ok change => rfl

/-! ## All steps at once -/

variable {α : Type} {s : Setting α} {more : Nat}

/-- Every step within a bound compares to the plain ones, of which the second has a limit of
`more`. -/
structure TellsAll (s : Setting α) (more bound : Nat) : Prop where
  eval : ∀ e, Tells s.callLimit (eval s bound e) (Run.eval s bound e)
    (Run.eval (s.allowing more) bound e)
  evalAll : ∀ es, Tells s.callLimit (evalAll s bound es) (Run.evalAll s bound es)
    (Run.evalAll (s.allowing more) bound es)
  evalCast : ∀ node operand target, Tells s.callLimit (evalCast s bound node operand target)
    (Run.evalCast s bound node operand target)
    (Run.evalCast (s.allowing more) bound node operand target)
  evalPath : ∀ target, Tells s.callLimit (evalPath s bound target) (Run.evalPath s bound target)
    (Run.evalPath (s.allowing more) bound target)
  evalCall : ∀ node callee args, Tells s.callLimit (evalCall s bound node callee args)
    (Run.evalCall s bound node callee args)
    (Run.evalCall (s.allowing more) bound node callee args)
  apply : ∀ label function args span, Tells s.callLimit (apply s bound label function args span)
    (Run.apply s bound label function args span)
    (Run.apply (s.allowing more) bound label function args span)
  enter : ∀ f args span, Tells s.callLimit (enter s bound f args span)
    (Run.enter s bound f args span) (Run.enter (s.allowing more) bound f args span)
  exec : ∀ stmt, Tells s.callLimit (exec s bound stmt) (Run.exec s bound stmt)
    (Run.exec (s.allowing more) bound stmt)
  execAll : ∀ stmts, Tells s.callLimit (execAll s bound stmts) (Run.execAll s bound stmts)
    (Run.execAll (s.allowing more) bound stmts)
  loop : ∀ tested cond step body, Tells s.callLimit (loop s bound tested cond step body)
    (Run.loop s bound tested cond step body)
    (Run.loop (s.allowing more) bound tested cond step body)
  loopItems : ∀ node binder body items,
    Tells s.callLimit (loopItems s bound node binder body items)
      (Run.loopItems s bound node binder body items)
      (Run.loopItems (s.allowing more) bound node binder body items)

variable {bound : Nat} (all : TellsAll s more bound)
include all

theorem tells_eval (e : Expr α) : Tells s.callLimit (eval s (bound + 1) e)
    (Run.eval s (bound + 1) e) (Run.eval (s.allowing more) (bound + 1) e) := by
  rw [eval.eq_def, Run.eval.eq_def, Run.eval.eq_def]
  dsimp only
  cases e with
  | ident node name => exact tells_lift (quiet_fetch _ _ rfl)
  | constant node value => exact tells_lift (quiet_located _ (Value.givesData_constant value))
  | unary node op operand =>
      exact (all.eval operand).bind fun v =>
        tells_lift (quiet_located _ (Value.givesData_unary op v))
  | binary node op left right =>
      have plain : Tells s.callLimit
          (do let x ← eval s bound left
              let y ← eval s bound right
              lift (Run.located node.span (x.binary op y)))
          (do let x ← Run.eval s bound left
              let y ← Run.eval s bound right
              Run.located node.span (x.binary op y))
          (do let x ← Run.eval (s.allowing more) bound left
              let y ← Run.eval (s.allowing more) bound right
              Run.located node.span (x.binary op y)) :=
        (all.eval left).bind fun x => (all.eval right).bind fun y =>
          tells_lift (quiet_located _ (Value.givesData_binary op x y))
      have assigns : Tells s.callLimit
          (assignment s bound node op.compoundBase left right)
          (Run.assignment s bound node op.compoundBase left right)
          (Run.assignment (s.allowing more) bound node op.compoundBase left right) :=
        (all.evalPath left).bind fun _ => (all.eval right).bind fun _ =>
          tells_lift (quiet_assign _ _ _ _ _)
      cases op
      case typeCast => exact all.evalCast node left right
      case and =>
        apply (all.eval left).bind
        intro x
        split
        · exact (all.eval right).bind fun _ => tells_pure _
        · exact tells_pure _
      case or =>
        apply (all.eval left).bind
        intro x
        split
        · exact tells_pure _
        · exact (all.eval right).bind fun _ => tells_pure _
      case assign | addAssign | subAssign | mulAssign | divAssign => exact assigns
      all_goals exact plain
  | ternary node cond thenBranch elseBranch =>
      apply (all.eval cond).bind
      intro c
      split
      · exact all.eval thenBranch
      · exact all.eval elseBranch
  | call node callee args => exact all.evalCall node callee args
  | array node items => exact (all.evalAll items).bind fun _ => tells_pure _
  | index node receiver subscript =>
      exact (all.eval receiver).bind fun _ => (all.eval subscript).bind fun _ =>
        tells_lift (quiet_element _ _ _)
  | typeLiteral node type => exact tells_lift (quiet_fail rfl)

theorem tells_evalAll (es : List (Expr α)) : Tells s.callLimit (evalAll s (bound + 1) es)
    (Run.evalAll s (bound + 1) es) (Run.evalAll (s.allowing more) (bound + 1) es) := by
  cases es with
  | nil => exact tells_pure _
  | cons e rest =>
      exact (all.eval e).bind fun _ => (all.evalAll rest).bind fun _ => tells_pure _

theorem tells_evalCast (node : Node α) (operand target : Expr α) :
    Tells s.callLimit (evalCast s (bound + 1) node operand target)
      (Run.evalCast s (bound + 1) node operand target)
      (Run.evalCast (s.allowing more) (bound + 1) node operand target) := by
  rw [evalCast.eq_def, Run.evalCast.eq_def, Run.evalCast.eq_def]
  dsimp only
  cases target with
  | typeLiteral _ type =>
      exact (all.eval operand).bind fun _ => tells_lift (quiet_cast _ _ _)
  | _ => exact tells_lift (quiet_fail rfl)

theorem tells_evalPath (target : Expr α) : Tells s.callLimit (evalPath s (bound + 1) target)
    (Run.evalPath s (bound + 1) target) (Run.evalPath (s.allowing more) (bound + 1) target) := by
  rw [evalPath.eq_def, Run.evalPath.eq_def, Run.evalPath.eq_def]
  dsimp only
  cases target with
  | ident _ name => exact tells_pure _
  | index node receiver subscript =>
      exact (all.evalPath receiver).bind fun _ => (all.eval subscript).bind fun _ => tells_pure _
  | _ => exact tells_lift (quiet_fail rfl)

theorem tells_evalCall (node : Node α) (callee : Expr α) (args : List (Expr α)) :
    Tells s.callLimit (evalCall s (bound + 1) node callee args)
      (Run.evalCall s (bound + 1) node callee args)
      (Run.evalCall (s.allowing more) (bound + 1) node callee args) := by
  have computed (callee : Expr α) : Tells s.callLimit
      (do let function ← eval s bound callee
          let values ← evalAll s bound args
          apply s bound "function" function values node.span)
      (do let function ← Run.eval s bound callee
          let values ← Run.evalAll s bound args
          Run.apply s bound "function" function values node.span)
      (do let function ← Run.eval (s.allowing more) bound callee
          let values ← Run.evalAll (s.allowing more) bound args
          Run.apply (s.allowing more) bound "function" function values node.span) :=
    (all.eval callee).bind fun _ => (all.evalAll args).bind fun _ => all.apply _ _ _ _
  rw [evalCall.eq_def, Run.evalCall.eq_def, Run.evalCall.eq_def]
  dsimp only
  cases callee with
  | ident calleeNode name =>
      exact (tells_lift (quiet_fetch _ _ rfl)).bind fun _ =>
        (all.evalAll args).bind fun _ => all.apply _ _ _ _
  | _ => exact computed _

theorem tells_apply (label : String) (function : Value) (args : List Value) (span : Span) :
    Tells s.callLimit (apply s (bound + 1) label function args span)
      (Run.apply s (bound + 1) label function args span)
      (Run.apply (s.allowing more) (bound + 1) label function args span) := by
  rw [apply.eq_def, Run.apply.eq_def, Run.apply.eq_def]
  dsimp only
  cases function with
  | function f =>
      cases f with
      | builtin f =>
          exact tells_lift (quiet_located _
            (Value.gives_call (fun _ _ => trivial) f fun v _ => Run.every_true v))
      | declared f => exact all.enter f args span
      | host f =>
          have same : (s.allowing more).hosts = s.hosts := rfl
          dsimp only
          rw [same]
          cases s.hosts f.handle args with
          | ok value => exact tells_pure _
          | error reason => exact tells_lift (quiet_fail rfl)
  | _ => exact tells_lift (quiet_fail rfl)

/-- A call is refused when as many calls are under way as the limit allows.  This is the only
place where the limit is looked at. -/
theorem tells_enter (roomy : s.callLimit ≤ more) (f : Closure) (args : List Value) (span : Span) :
    Tells s.callLimit (enter s (bound + 1) f args span) (Run.enter s (bound + 1) f args span)
      (Run.enter (s.allowing more) (bound + 1) f args span) := by
  intro w within clear
  have depth : w.machine.callDepth ≤ s.callLimit :=
    within.counts ▸ within.within _ (List.suffix_refl _)
  have noted : w.Settles s.callLimit ⟨w.machine, .attempted f args span :: w.calls⟩ :=
    ⟨within.note within.counts depth, rfl⟩
  rw [enter, Run.enter, Run.enter]
  by_cases count : args.length = f.params.length
  · simp only [ne_eq, count, not_true, if_false]
    change Told s.callLimit w
      ((if s.callLimit ≤ w.machine.callDepth then lift (Run.fail _ span) else _) ⟨w.machine, _⟩)
      ((if s.callLimit ≤ w.machine.callDepth then Run.fail _ span else _) w.machine)
      ((if more ≤ w.machine.callDepth then Run.fail _ span else _) w.machine)
    by_cases full : s.callLimit ≤ w.machine.callDepth
    · have isFull : active w.calls = s.callLimit :=
        within.counts.trans (Nat.le_antisymm depth full)
      have isRefused : refused s.callLimit (.attempted f args span :: w.calls) = [span] := by
        rw [refused, if_pos ⟨count, isFull⟩, clear]
      rw [if_pos full, if_pos full]
      exact .tooDeep noted isRefused
    · have clear' : refused s.callLimit (.attempted f args span :: w.calls) = [] := by
        rw [refused, if_neg, clear]
        exact fun met => full (within.counts ▸ Nat.le_of_eq met.2.symm)
      have body : Tells s.callLimit
          (do lift (Run.bindParams f.params args)
              execAll s bound (s.body f.declaration))
          (do Run.bindParams f.params args
              Run.execAll s bound (s.body f.declaration))
          (do Run.bindParams f.params args
              Run.execAll (s.allowing more) bound (s.body f.declaration)) :=
        (tells_lift (quiet_bindParams _ _)).bind fun _ => all.execAll _
      have wide : ¬ more ≤ w.machine.callDepth := fun deep => full (Nat.le_trans roomy deep)
      rw [if_neg full, if_neg full, if_neg wide]
      have called := tells_inCall f.frame noted.within clear' (Nat.lt_of_not_le full) body
      refine (called.bind fun flow => ?_).after noted
      cases flow with
      | ret _ | next => exact tells_pure _
      | brk | cont => exact tells_lift (quiet_fail rfl)
  · simp only [ne_eq, count, not_false_eq_true, if_true]
    have clear' : refused s.callLimit (.attempted f args span :: w.calls) = [] := by
      rw [refused, if_neg fun met => count met.1, clear]
    exact (tells_lift (quiet_fail rfl) _ noted.within clear').after noted

theorem tells_exec (stmt : Stmt α) : Tells s.callLimit (exec s (bound + 1) stmt)
    (Run.exec s (bound + 1) stmt) (Run.exec (s.allowing more) (bound + 1) stmt) := by
  rw [exec.eq_def, Run.exec.eq_def, Run.exec.eq_def]
  dsimp only
  apply (tells_lift (quiet_checkCancelled s _)).bind
  intro _
  cases stmt with
  | expr _ e => exact (all.eval e).bind fun _ => tells_pure _
  | varDecl node binder init =>
      exact (all.eval init).bind fun _ =>
        (tells_lift (quiet_define _ _)).bind fun _ => tells_pure _
  | ret _ value =>
      cases value with
      | none => exact tells_pure _
      | some e => exact (all.eval e).bind fun _ => tells_pure _
  | ifElse _ cond thenBranch elseBranch =>
      apply (all.eval cond).bind
      intro c
      split
      · exact (all.exec thenBranch).inScope
      · cases elseBranch with
        | none => exact tells_pure _
        | some other => exact (all.exec other).inScope
  | whileLoop _ cond body => exact all.loop true (some cond) none body
  | doWhile _ body cond => exact all.loop false (some cond) none body
  | forLoop _ init cond step body =>
      apply Tells.inScope
      cases init with
      | none => exact (tells_pure ()).bind fun _ => all.loop true cond step body
      | some first =>
          exact (all.exec first).bind fun _ =>
            (tells_pure ()).bind fun _ => all.loop true cond step body
  | forEach node binder iterable body =>
      apply (all.eval iterable).bind
      intro items
      cases items with
      | array items => exact all.loopItems node binder body items
      | _ => exact tells_lift (quiet_fail rfl)
  | brk _ => exact tells_pure _
  | cont _ => exact tells_pure _
  | block _ stmts => exact (all.execAll stmts).inScope
  | function node written name params body =>
      exact (tells_lift (quiet_declare _ _ _ _)).bind fun _ => tells_pure _

theorem tells_execAll (stmts : List (Stmt α)) : Tells s.callLimit (execAll s (bound + 1) stmts)
    (Run.execAll s (bound + 1) stmts) (Run.execAll (s.allowing more) (bound + 1) stmts) := by
  cases stmts with
  | nil => exact tells_pure _
  | cons stmt rest =>
      apply (all.exec stmt).bind
      intro flow
      cases flow with
      | next => exact all.execAll rest
      | _ => exact tells_pure _

theorem tells_loop (tested : Bool) (cond step : Option (Expr α)) (body : Stmt α) :
    Tells s.callLimit (loop s (bound + 1) tested cond step body)
      (Run.loop s (bound + 1) tested cond step body)
      (Run.loop (s.allowing more) (bound + 1) tested cond step body) := by
  rw [loop.eq_def, Run.loop.eq_def, Run.loop.eq_def]
  dsimp only
  apply (tells_lift (quiet_checkCancelled s _)).bind
  intro _
  -- The condition is tested in one of these cases only, and then they go on alike.
  cases cond <;> cases tested
  all_goals
    dsimp only
    first
    | apply (tells_pure true).bind
    | apply ((all.eval _).map Value.isTruthy).bind
    intro goesOn
    split
    · apply (all.exec body).inScope.bind
      intro flow
      cases flow with
      | brk | ret => exact tells_pure _
      | next | cont =>
          cases step with
          | none => exact all.loop true _ none body
          | some e => exact (all.eval e).bind fun _ => all.loop true _ (some e) body
    · exact tells_pure _

theorem tells_loopItems (node : StmtNode) (binder : Binder) (body : Stmt α)
    (items : List Value) : Tells s.callLimit (loopItems s (bound + 1) node binder body items)
      (Run.loopItems s (bound + 1) node binder body items)
      (Run.loopItems (s.allowing more) (bound + 1) node binder body items) := by
  cases items with
  | nil => exact tells_pure _
  | cons item rest =>
      rw [loopItems.eq_def, Run.loopItems.eq_def, Run.loopItems.eq_def]
      dsimp only
      apply (tells_lift (quiet_checkCancelled s _)).bind
      intro _
      apply (tells_lift (quiet_loopItem _ _ _)).bind
      intro value
      apply Tells.bind
      · exact ((tells_lift (quiet_define _ _)).bind fun _ => all.exec body).inScope
      · intro flow
        cases flow with
        | brk | ret => exact tells_pure _
        | next | cont => exact all.loopItems node binder body rest

omit all in
theorem tellsAll (roomy : s.callLimit ≤ more) (bound : Nat) : TellsAll s more bound := by
  induction bound with
  | zero =>
      constructor <;> intros <;> exact tells_exhausted
  | succ bound all =>
      exact ⟨tells_eval all, tells_evalAll all, tells_evalCast all, tells_evalPath all,
        tells_evalCall all, tells_apply all, tells_enter all roomy, tells_exec all,
        tells_execAll all, tells_loop all, tells_loopItems all⟩

omit all in
/-- A run compares in this way from a machine on in which no call is under way. -/
theorem told_program (roomy : s.callLimit ≤ more) (bound : Nat) (p : Program α) (w : Record)
    (within : w.Within s.callLimit) (clear : refused s.callLimit w.calls = []) :
    Told s.callLimit w (program s bound p w) (Run.program s bound p w.machine)
      (Run.program (s.allowing more) bound p w.machine) := by
  have all := tellsAll roomy bound
  apply tells_between clear within rfl
  · intro w₁ settles
    exact ⟨⟨⟨settles.within.counts, settles.within.within⟩, settles.depth⟩, rfl, rfl⟩
  · apply Tells.inScope
    apply (all.execAll p.body).bind
    intro flow
    cases flow with
    | next =>
        cases p.tail with
        | none => exact tells_pure _
        | some e => exact all.eval e
    | ret value => exact tells_pure _
    | brk | cont => exact tells_lift (quiet_fail rfl)

end Recorded

/-! ## Runs -/

/-- What the limit on nested calls does, for a run of a formula from a machine on in which no
call is under way.  The record is that of the run.  If the run does not end as too deep, a
larger limit gives the same run.  At no moment are more calls under way than the limit allows.
The run ends as too deep exactly at an attempted call with the right number of arguments that
finds as many calls under way. -/
theorem Machine.limited_run {α : Type} {m : Machine} (idle : m.callers = []) (s : Setting α)
    {more : Nat} (roomy : s.callLimit ≤ more) (bound : Nat) (p : Program α) :
    let outcome := m.run s bound p
    let recorded := Recorded.run m s bound p
    (recorded.1, recorded.2.machine) = outcome ∧
      ((∀ limit span, outcome.1 ≠ .error (.failed ⟨.callDepth limit, span⟩)) →
        m.run (s.allowing more) bound p = outcome) ∧
      (∀ moment, moment <:+ recorded.2.calls → active moment ≤ s.callLimit) ∧
      ∀ limit span, outcome.1 = .error (.failed ⟨.callDepth limit, span⟩) ↔
        limit = s.callLimit ∧ ∃ f args past,
          .attempted f args span :: past <:+ recorded.2.calls ∧
            args.length = f.params.length ∧ active past = s.callLimit := by
  have within : Record.Within s.callLimit ⟨m, []⟩ := by
    refine ⟨by simp [active, Machine.callDepth, idle], fun moment past => ?_⟩
    rw [List.suffix_nil.mp past]
    exact Nat.zero_le _
  have told := Recorded.told_program roomy bound p ⟨m, []⟩ within rfl
  simp only [← CallEvent.mem_refused_iff]
  unfold Machine.run Recorded.run
  generalize Recorded.program s bound p ⟨m, []⟩ = x, Run.program s bound p m = y,
    Run.program (s.allowing more) bound p m = wider at told
  cases told with
  | ok settles clear =>
      refine ⟨rfl, fun _ => rfl, settles.within.within, fun limit span => ?_⟩
      simp [clear]
  | error settles clear other =>
      refine ⟨rfl, fun _ => rfl, settles.within.within, fun limit span => ?_⟩
      simp only [clear, List.not_mem_nil, and_false, iff_false]
      intro same
      cases same
      cases other
  | tooDeep settles isRefused =>
      refine ⟨rfl, fun spared => absurd rfl (spared _ _), settles.within.within,
        fun limit span => ?_⟩
      simp [isRefused, eq_comm]

/-- A function that calls itself twice. -/
def countdown : String :=
  "int f(int n) \x7b if (n == 0) return 0; return f(n - 1); \x7d f(2)"

/-- With a limit of two the second inner call is refused; a limit of three is enough. -/
theorem Machine.limited_run_countdown : ∃ tokens output,
    Lexer.tokenize countdown = .ok tokens ∧ Mode.program.parse tokens = .ok output ∧
      let p := output.program
      let s := p.setting .empty noHosts
      (∃ f args past, .attempted f args ⟨44, 52⟩ :: past
          <:+ (Recorded.run bareMachine (s.allowing 2) 60 p).2.calls ∧
        args.length = f.params.length ∧ active past = 2) ∧
      (bareMachine.run (s.allowing 3) 60 p).1 = .ok (.int 0) ∧
      bareMachine.run (s.allowing 200) 60 p = bareMachine.run (s.allowing 3) 60 p := by
  have ends : (Lexer.tokenize countdown).toOption.bind
      (fun tokens => (Mode.program.parse tokens).toOption.map fun output =>
        let s := output.program.setting .empty noHosts
        ((bareMachine.run (s.allowing 2) 60 output.program).1,
          (bareMachine.run (s.allowing 3) 60 output.program).1))
      = some (.error (.failed ⟨.callDepth 2, ⟨44, 52⟩⟩), .ok (.int 0)) := by cbv
  rcases Option.bind_eq_some_iff.mp ends with ⟨tokens, lexed, ends⟩
  rcases Option.map_eq_some_iff.mp ends with ⟨output, parsed, ended⟩
  have idle : bareMachine.callers = [] := rfl
  have two := Machine.limited_run idle
    ((output.program.setting .empty noHosts).allowing 2) (Nat.le_refl 2) 60 output.program
  have three := Machine.limited_run idle
    ((output.program.setting .empty noHosts).allowing 3) (by decide : 3 ≤ 200) 60 output.program
  have refused := ((two.2.2.2 2 ⟨44, 52⟩).mp (congrArg Prod.fst ended)).2
  have enough : (bareMachine.run _ 60 output.program).1 = .ok (.int 0) := congrArg Prod.snd ended
  have spared (limit : Nat) (span : Span) :
      (bareMachine.run ((output.program.setting .empty noHosts).allowing 3) 60 output.program).1
        ≠ .error (.failed ⟨.callDepth limit, span⟩) := by
    rw [enough]
    simp
  exact ⟨tokens, output, eq_ok_of_toOption lexed, eq_ok_of_toOption parsed, refused, enough,
    three.2.1 spared⟩

end Formulae
