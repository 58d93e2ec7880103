import Formulae.Proofs.Run.Journal

/-!
# Journals change nothing

A run with a journal goes through the same machines as the plain run, with the same
results (`Logged.erases_program`).
-/

namespace Formulae.Logged

variable {β γ : Type}

/-- Without the journal the step is the plain one. -/
def Erases (x : Logged β) (y : Run β) : Prop :=
  ∀ w : World,
    match x w with
    | .ok result w' => y w.machine = .ok result w'.machine
    | .error stop w' => y w.machine = .error stop w'.machine

theorem erases_pure (result : β) : Erases (pure result) (pure result) :=
  fun _ => rfl

theorem erases_throw (stop : Stop) : Erases (throw stop : Logged β) (throw stop) :=
  fun _ => rfl

theorem erases_lift (step : Run β) : Erases (lift step) step := by
  intro w
  cases ran : step w.machine with
  | ok result m => simp only [lift, ran]
  | error stop m => simp only [lift, ran]

theorem Erases.bind {x : Logged β} {y : Run β} {f : β → Logged γ} {g : β → Run γ}
    (first : Erases x y) (second : ∀ result, Erases (f result) (g result)) :
    Erases (x >>= f) (y >>= g) := by
  intro w
  have same := first w
  simp only [Bind.bind, EStateM.bind]
  cases ran : x w with
  | ok result w' =>
      rw [ran] at same
      dsimp only at same ⊢
      rw [same]
      exact second result w'
  | error stop w' =>
      rw [ran] at same
      dsimp only at same ⊢
      rw [same]

theorem Erases.map {x : Logged β} {y : Run β} (erases : Erases x y) (f : β → γ) :
    Erases (f <$> x) (f <$> y) :=
  erases.bind fun result => erases_pure (f result)

/-- A step that only writes something down. -/
theorem Erases.noted {use : Use} {x : Logged β} {y : Run β} (erases : Erases x y) :
    Erases (note use >>= fun _ => x) y :=
  fun w => erases (w.note use)

theorem erases_make (declaration : Declaration) (change : Machine → Machine) :
    Erases (make declaration change) (modify change) :=
  fun _ => rfl

theorem erases_between (enter leave : Machine → Machine) {x : Logged β} {y : Run β}
    (erases : Erases x y) : Erases (between enter leave x) (Run.between enter leave y) := by
  intro w
  have same := erases { w with machine := enter w.machine }
  unfold between Run.between
  cases ran : x { w with machine := enter w.machine } with
  | ok result w' =>
      rw [ran] at same
      dsimp only at same ⊢
      rw [same]
  | error stop w' =>
      rw [ran] at same
      dsimp only at same ⊢
      rw [same]

theorem Erases.inScope {x : Logged β} {y : Run β} (erases : Erases x y) :
    Erases (inScope x) (Run.inScope y) :=
  erases_between _ _ erases

theorem Erases.inCall {frame : Nat} {x : Logged β} {y : Run β} (erases : Erases x y) :
    Erases (inCall frame x) (Run.inCall frame y) :=
  erases_between _ _ erases

theorem erases_fetch (use : Use) (missing : EvalFault) :
    Erases (fetch use missing) (Run.fetch use.name missing use.node.span) :=
  (erases_lift _).noted

theorem erases_bindParams (function position : Nat) (params : List Param) (args : List Value) :
    Erases (bindParams function position params args) (Run.bindParams params args) := by
  induction params generalizing position args with
  | nil => exact fun _ => rfl
  | cons param rest inductionHypothesis =>
      cases args with
      | nil => exact fun _ => rfl
      | cons arg others =>
          have first : Erases (make _ _) _ := erases_make
            ⟨function, some position, param.name, (Ty.ofExpr param.type).withFinal !param.mutable⟩
            (·.define param.name ⟨arg, param.mutable⟩)
          exact first.bind fun _ => inductionHypothesis (position + 1) others

/-! ## All steps at once -/

variable {s : Setting Ty}

/-- Every step within a bound is the plain one without its journal. -/
structure ErasesAll (s : Setting Ty) (bound : Nat) : Prop where
  eval : ∀ e, Erases (eval s bound e) (Run.eval s bound e)
  evalAll : ∀ es, Erases (evalAll s bound es) (Run.evalAll s bound es)
  evalCast : ∀ node operand target,
    Erases (evalCast s bound node operand target) (Run.evalCast s bound node operand target)
  evalPath : ∀ target, Erases (evalPath s bound target) (Run.evalPath s bound target)
  evalCall : ∀ node callee args,
    Erases (evalCall s bound node callee args) (Run.evalCall s bound node callee args)
  apply : ∀ label function args span,
    Erases (apply s bound label function args span) (Run.apply s bound label function args span)
  enter : ∀ f args span, Erases (enter s bound f args span) (Run.enter s bound f args span)
  exec : ∀ stmt, Erases (exec s bound stmt) (Run.exec s bound stmt)
  execAll : ∀ stmts, Erases (execAll s bound stmts) (Run.execAll s bound stmts)
  loop : ∀ tested cond step body,
    Erases (loop s bound tested cond step body) (Run.loop s bound tested cond step body)
  loopItems : ∀ node binder element body items,
    Erases (loopItems s bound node binder element body items)
      (Run.loopItems s bound node binder body items)

variable {bound : Nat} (all : ErasesAll s bound)
include all

theorem erases_eval (e : TypedExpr) : Erases (eval s (bound + 1) e) (Run.eval s (bound + 1) e) := by
  rw [eval.eq_def, Run.eval.eq_def]
  dsimp only
  cases e with
  | ident node name => exact erases_fetch ⟨node, name, .value⟩ _
  | constant node value => exact erases_lift _
  | unary node op operand => exact (all.eval operand).bind fun _ => erases_lift _
  | binary node op left right =>
      have plain : Erases
          (do let x ← eval s bound left
              let y ← eval s bound right
              lift (Run.located node.span (x.binary op y)))
          (do let x ← Run.eval s bound left
              let y ← Run.eval s bound right
              Run.located node.span (x.binary op y)) :=
        (all.eval left).bind fun _ => (all.eval right).bind fun _ => erases_lift _
      have assigns : Erases (assignment s bound node op.compoundBase left right)
          (Run.assignment s bound node op.compoundBase left right) :=
        (all.evalPath left).bind fun _ => (all.eval right).bind fun _ => (erases_lift _).noted
      cases op
      case typeCast => exact all.evalCast node left right
      case and =>
        apply (all.eval left).bind
        intro x
        split
        · exact (all.eval right).bind fun _ => erases_pure _
        · exact erases_pure _
      case or =>
        apply (all.eval left).bind
        intro x
        split
        · exact erases_pure _
        · exact (all.eval right).bind fun _ => erases_pure _
      case assign | addAssign | subAssign | mulAssign | divAssign => exact assigns
      all_goals exact plain
  | ternary node cond thenBranch elseBranch =>
      apply (all.eval cond).bind
      intro c
      split
      · exact all.eval thenBranch
      · exact all.eval elseBranch
  | call node callee args => exact all.evalCall node callee args
  | array node items => exact (all.evalAll items).bind fun _ => erases_pure _
  | index node receiver subscript =>
      exact (all.eval receiver).bind fun _ => (all.eval subscript).bind fun _ => erases_lift _
  | typeLiteral node type => exact erases_lift _

theorem erases_evalAll (es : List TypedExpr) :
    Erases (evalAll s (bound + 1) es) (Run.evalAll s (bound + 1) es) := by
  cases es with
  | nil => exact erases_pure _
  | cons e rest =>
      exact (all.eval e).bind fun _ => (all.evalAll rest).bind fun _ => erases_pure _

theorem erases_evalCast (node : Node Ty) (operand target : TypedExpr) :
    Erases (evalCast s (bound + 1) node operand target)
      (Run.evalCast s (bound + 1) node operand target) := by
  rw [evalCast.eq_def, Run.evalCast.eq_def]
  dsimp only
  cases target with
  | typeLiteral _ type => exact (all.eval operand).bind fun _ => erases_lift _
  | _ => exact erases_lift _

theorem erases_evalPath (target : TypedExpr) :
    Erases (evalPath s (bound + 1) target) (Run.evalPath s (bound + 1) target) := by
  rw [evalPath.eq_def, Run.evalPath.eq_def]
  dsimp only
  cases target with
  | ident _ name => exact erases_pure _
  | index node receiver subscript =>
      exact (all.evalPath receiver).bind fun _ => (all.eval subscript).bind fun _ => erases_pure _
  | _ => exact erases_lift _

theorem erases_evalCall (node : Node Ty) (callee : TypedExpr) (args : List TypedExpr) :
    Erases (evalCall s (bound + 1) node callee args)
      (Run.evalCall s (bound + 1) node callee args) := by
  have computed (callee : TypedExpr) : Erases
      (do let function ← eval s bound callee
          let values ← evalAll s bound args
          apply s bound "function" function values node.span)
      (do let function ← Run.eval s bound callee
          let values ← Run.evalAll s bound args
          Run.apply s bound "function" function values node.span) :=
    (all.eval callee).bind fun _ => (all.evalAll args).bind fun _ => all.apply _ _ _ _
  rw [evalCall.eq_def, Run.evalCall.eq_def]
  dsimp only
  cases callee with
  | ident calleeNode name =>
      exact (erases_fetch ⟨calleeNode, name, .callee⟩ _).bind fun _ =>
        (all.evalAll args).bind fun _ => all.apply _ _ _ _
  | _ => exact computed _

theorem erases_apply (label : String) (function : Value) (args : List Value) (span : Span) :
    Erases (apply s (bound + 1) label function args span)
      (Run.apply s (bound + 1) label function args span) := by
  rw [apply.eq_def, Run.apply.eq_def]
  dsimp only
  cases function with
  | function f =>
      cases f with
      | builtin f => exact erases_lift _
      | declared f => exact all.enter f args span
      | host f =>
          dsimp only
          cases s.hosts f.handle args with
          | ok value => exact erases_pure _
          | error reason => exact erases_lift _
  | _ => exact erases_lift _

theorem erases_enter (f : Closure) (args : List Value) (span : Span) :
    Erases (enter s (bound + 1) f args span) (Run.enter s (bound + 1) f args span) := by
  rw [enter_succ, Run.enter_succ]
  split
  · exact erases_lift _
  · intro w
    have rest : Erases (entered s bound f args span w.machine.callDepth)
        (Run.entered s bound f args span w.machine.callDepth) := by
      unfold entered Run.entered
      split
      · exact erases_lift _
      · apply Erases.bind
        · apply Erases.inCall
          exact (erases_bindParams _ _ _ _).bind fun _ => all.execAll _
        · intro flow
          cases flow <;> first | exact erases_pure _ | exact erases_lift _
    exact rest w

theorem erases_exec (stmt : TypedStmt) :
    Erases (exec s (bound + 1) stmt) (Run.exec s (bound + 1) stmt) := by
  rw [exec.eq_def, Run.exec.eq_def]
  dsimp only
  apply (erases_lift _).bind
  intro _
  cases stmt with
  | expr _ e => exact (all.eval e).bind fun _ => erases_pure _
  | varDecl node binder init =>
      exact (all.eval init).bind fun _ => (erases_make _ _).bind fun _ => erases_pure _
  | ret _ value =>
      cases value with
      | none => exact erases_pure _
      | some e => exact (all.eval e).bind fun _ => erases_pure _
  | ifElse _ cond thenBranch elseBranch =>
      apply (all.eval cond).bind
      intro c
      split
      · exact (all.exec thenBranch).inScope
      · cases elseBranch with
        | none => exact erases_pure _
        | some other => exact (all.exec other).inScope
  | whileLoop _ cond body => exact all.loop true (some cond) none body
  | doWhile _ body cond => exact all.loop false (some cond) none body
  | forLoop _ init cond step body =>
      apply Erases.inScope
      cases init with
      | none => exact (erases_pure ()).bind fun _ => all.loop true cond step body
      | some first =>
          exact (all.exec first).bind fun _ =>
            (erases_pure ()).bind fun _ => all.loop true cond step body
  | forEach node binder iterable body =>
      apply (all.eval iterable).bind
      intro items
      cases items with
      | array items => exact all.loopItems node binder _ body items
      | _ => exact erases_lift _
  | brk _ => exact erases_pure _
  | cont _ => exact erases_pure _
  | block _ stmts => exact (all.execAll stmts).inScope
  | function node written name params body =>
      exact (erases_make _ _).bind fun _ => erases_pure _

theorem erases_execAll (stmts : List TypedStmt) :
    Erases (execAll s (bound + 1) stmts) (Run.execAll s (bound + 1) stmts) := by
  cases stmts with
  | nil => exact erases_pure _
  | cons stmt rest =>
      apply (all.exec stmt).bind
      intro flow
      cases flow with
      | next => exact all.execAll rest
      | _ => exact erases_pure _

theorem erases_loop (tested : Bool) (cond step : Option TypedExpr) (body : TypedStmt) :
    Erases (loop s (bound + 1) tested cond step body)
      (Run.loop s (bound + 1) tested cond step body) := by
  rw [loop.eq_def, Run.loop.eq_def]
  dsimp only
  apply (erases_lift _).bind
  intro _
  -- The condition is tested in one of these cases only, and then they go on alike.
  cases cond <;> cases tested
  all_goals
    dsimp only
    first
    | apply (erases_pure true).bind
    | apply ((all.eval _).map Value.isTruthy).bind
    intro goesOn
    split
    · apply (all.exec body).inScope.bind
      intro flow
      cases flow with
      | brk | ret => exact erases_pure _
      | next | cont =>
          cases step with
          | none => exact all.loop true _ none body
          | some e => exact (all.eval e).bind fun _ => all.loop true _ (some e) body
    · exact erases_pure _

theorem erases_loopItems (node : StmtNode) (binder : Binder) (element : Ty) (body : TypedStmt)
    (items : List Value) :
    Erases (loopItems s (bound + 1) node binder element body items)
      (Run.loopItems s (bound + 1) node binder body items) := by
  cases items with
  | nil => exact erases_pure _
  | cons item rest =>
      rw [loopItems.eq_def, Run.loopItems.eq_def]
      dsimp only
      apply (erases_lift _).bind
      intro _
      apply (erases_lift _).bind
      intro value
      apply Erases.bind
      · exact ((erases_make _ _).bind fun _ => all.exec body).inScope
      · intro flow
        cases flow with
        | brk | ret => exact erases_pure _
        | next | cont => exact all.loopItems node binder element body rest

omit all in
theorem erasesAll (s : Setting Ty) (bound : Nat) : ErasesAll s bound := by
  induction bound with
  | zero =>
      constructor <;> intros <;> exact erases_throw _
  | succ bound all =>
      exact ⟨erases_eval all, erases_evalAll all, erases_evalCast all, erases_evalPath all,
        erases_evalCall all, erases_apply all, erases_enter all, erases_exec all,
        erases_execAll all, erases_loop all, erases_loopItems all⟩

omit all in
/-- A run with a journal is the plain run. -/
theorem erases_program (s : Setting Ty) (bound : Nat) (p : TypedProgram) :
    Erases (program s bound p) (Run.program s bound p) := by
  apply erases_between
  apply Erases.inScope
  apply ((erasesAll s bound).execAll p.body).bind
  intro flow
  cases flow with
  | next =>
      cases p.tail with
      | none => exact erases_pure _
      | some e => exact (erasesAll s bound).eval e
  | ret value => exact erases_pure _
  | brk | cont => exact erases_lift _

end Formulae.Logged
