import Formulae.Proofs.Run.Concludes
import Formulae.Proofs.Tree.Parts
import Formulae.Proofs.Typing.Placeless

/-!
# Expressions that only look at the machine

An expression that assigns nothing and calls built-in functions only is quiet.  Its evaluation
ends, leaves the machine alone, and depends neither on the setting nor on places and numbers
(`Run.concurs_eval`).
-/

namespace Formulae

/-! ## Steps side by side -/

namespace Run

variable {β γ : Type} {m : Machine} {step step' : Nat → Run β}

/-- The same result, or failures of one kind. -/
inductive Akin : Except EvalError β → Except EvalError β → Prop
  | ok (value : β) : Akin (.ok value) (.ok value)
  | error (fault : EvalFault) (span span' : Span) :
      Akin (.error ⟨fault, span⟩) (.error ⟨fault, span'⟩)

/-- With bounds that are large enough the steps end in the same way and change nothing. -/
def Concurs (step step' : Nat → Run β) (m : Machine) : Prop :=
  ∃ outcome outcome', Akin outcome outcome' ∧ Reaches step m outcome ∧ Reaches step' m outcome'

theorem concurs_pure (value : β) : Concurs (fun _ => pure value) (fun _ => pure value) m :=
  ⟨_, _, .ok value, ⟨0, fun _ _ => rfl⟩, ⟨0, fun _ _ => rfl⟩⟩

theorem concurs_fail (fault : EvalFault) (span span' : Span) :
    Concurs (fun _ => (fail fault span : Run β)) (fun _ => fail fault span') m :=
  ⟨_, _, .error fault span span', ⟨0, fun _ _ => rfl⟩, ⟨0, fun _ _ => rfl⟩⟩

theorem concurs_located (result : Except EvalFault β) (span span' : Span) :
    Concurs (fun _ => located span result) (fun _ => located span' result) m := by
  cases result with
  | ok value => exact concurs_pure value
  | error fault => exact concurs_fail fault span span'

theorem Concurs.bind {next next' : Nat → β → Run γ} (first : Concurs step step' m)
    (second : ∀ value, Reaches step m (.ok value) →
      Concurs (fun bound => next bound value) (fun bound => next' bound value) m) :
    Concurs (fun bound => step bound >>= next bound) (fun bound => step' bound >>= next' bound)
      m := by
  rcases first with ⟨outcome, outcome', akin, reaches, reaches'⟩
  cases akin with
  | error fault span span' =>
      exact ⟨_, _, .error fault span span', reaches.bind_error, reaches'.bind_error⟩
  | ok value =>
      rcases second value reaches with ⟨ended, ended', akin, further, further'⟩
      exact ⟨ended, ended', akin, reaches.bind further, reaches'.bind further'⟩

/-- A choice between two steps. -/
theorem Concurs.branch {cond cond' : Nat → Run Value} {other other' : Nat → Run β}
    (first : Concurs cond cond' m) (second : Concurs step step' m)
    (third : Concurs other other' m) :
    Concurs (fun bound => do if (← cond bound).isTruthy then step bound else other bound)
      (fun bound => do if (← cond' bound).isTruthy then step' bound else other' bound) m := by
  apply first.bind
  intro value _
  cases value.isTruthy with
  | true => exact second
  | false => exact third

theorem Concurs.deeper {outer outer' : Nat → Run β} (concurs : Concurs step step' m)
    (unfolds : ∀ bound, outer (bound + 1) m = step bound m)
    (unfolds' : ∀ bound, outer' (bound + 1) m = step' bound m) : Concurs outer outer' m := by
  rcases concurs with ⟨outcome, outcome', akin, reaches, reaches'⟩
  exact ⟨outcome, outcome', akin, reaches.deeper unfolds, reaches'.deeper unfolds'⟩

/-- What a name means depends on the machine only. -/
theorem concurs_fetch (name : String) (missing : EvalFault) (span span' : Span) :
    Concurs (fun _ => fetch name missing span) (fun _ => fetch name missing span') m := by
  have found {value : Value} (fetched : ∀ span, fetch name missing span m = .ok value m) :
      Concurs (fun _ => fetch name missing span) (fun _ => fetch name missing span') m :=
    ⟨_, _, .ok value, ⟨0, fun _ _ => fetched span⟩, ⟨0, fun _ _ => fetched span'⟩⟩
  cases bound : m.lookup? name with
  | some value =>
      apply found
      intro span
      rw [fetch, bound]
  | none =>
      cases isBuiltin : Builtin.ofName? name with
      | some function =>
          apply found
          intro span
          rw [fetch, bound, isBuiltin]
      | none =>
          have nothing (span : Span) : fetch name missing span m = fail missing span m := by
            rw [fetch, bound, isBuiltin]
            rfl
          exact ⟨_, _, .error missing span span', ⟨0, fun _ _ => nothing span⟩,
            ⟨0, fun _ _ => nothing span'⟩⟩

theorem fetch_of_fetch {name : String} {missing missing' : EvalFault} {span span' : Span}
    {value : Value} (fetched : fetch name missing span m = .ok value m) :
    fetch name missing' span' m = .ok value m := by
  unfold fetch at fetched ⊢
  cases bound : m.lookup? name with
  | some value => simpa [bound] using fetched
  | none =>
      cases isBuiltin : Builtin.ofName? name with
      | some function => simpa [bound, isBuiltin] using fetched
      | none => simp [bound, isBuiltin] at fetched

end Run

/-- The function is built in. -/
def Callable.isBuiltin : Callable → Bool
  | .builtin _ => true
  | .declared _ | .host _ => false

variable {α : Type}

/-- No expression of a list assigns anything, and none is a call of a function that a formula
declared or that was supplied from outside. -/
structure Run.Quiet (s : Setting α) (m : Machine) (es : List (Expr α)) : Prop where
  noAssignment : ∀ node op left right, .binary node op left right ∈ es → op.isAssignment = false
  noCall : ∀ node callee args, .call node callee args ∈ es → ∀ f,
    Reaches (fun bound => eval s bound callee) m (.ok (.function f)) → f.isBuiltin

/-- The expression has no assignment in it and calls built-in functions only. -/
abbrev Expr.Quiet (s : Setting α) (m : Machine) (e : Expr α) : Prop :=
  Run.Quiet s m e.exprs

namespace Run

variable {s s' : Setting α} {m : Machine} {es es' : List (Expr α)}

theorem Quiet.mono (quiet : Quiet s m es) (sub : es' ⊆ es) : Quiet s m es' where
  noAssignment node op left right member := quiet.noAssignment node op left right (sub member)
  noCall node callee args member := quiet.noCall node callee args (sub member)

theorem Quiet.parts {e : Expr α} (quiet : e.Quiet s m) : Quiet s m e.parts :=
  quiet.mono (List.subset_cons_self _ _)

theorem Quiet.append (quiet : Quiet s m (es ++ es')) : Quiet s m es ∧ Quiet s m es' :=
  ⟨quiet.mono (List.subset_append_left _ _), quiet.mono (List.subset_append_right _ _)⟩

theorem quiet_constant (node : Node α) (value : Constant) :
    (Expr.constant node value).Quiet s m where
  noAssignment _ _ _ _ member := nomatch List.mem_singleton.mp member
  noCall _ _ _ member := nomatch List.mem_singleton.mp member

theorem concurs_apply {value : Value} (builtin : ∀ f, value = .function f → f.isBuiltin)
    (label label' : String) (args : List Value) (span span' : Span) :
    Concurs (fun bound => apply s bound label value args span)
      (fun bound => apply s' bound label' value args span') m := by
  cases value with
  | function f =>
      cases f with
      | builtin f =>
          exact (concurs_located (f.call args) span span').deeper (fun _ => rfl) fun _ => rfl
      | declared f => cases builtin _ rfl
      | host f => cases builtin _ rfl
  | _ => exact (concurs_fail _ span span').deeper (fun _ => rfl) fun _ => rfl

/-- What a name that is called means is what it means elsewhere. -/
theorem Reaches.eval_ident {node : Node α} {name : String} {missing : EvalFault} {span : Span}
    {value : Value} (reaches : Reaches (fun _ => fetch name missing span) m (.ok value)) :
    Reaches (fun bound => eval s bound (.ident node name)) m (.ok value) := by
  rcases reaches with ⟨need, fetched⟩
  have found : Reaches (fun _ => fetch name (.unboundVariable name) node.span) m (.ok value) :=
    ⟨0, fun _ _ => fetch_of_fetch (fetched need (Nat.le_refl need))⟩
  exact found.deeper fun _ => rfl

theorem concurs_evalCall (node node' : Node α) {callee callee' : Expr α}
    {args args' : List (Expr α)} (same : callee.Resembles callee')
    (function : Concurs (fun bound => eval s bound callee) (fun bound => eval s' bound callee') m)
    (values : Concurs (fun bound => evalAll s bound args) (fun bound => evalAll s' bound args') m)
    (builtin : ∀ f, Reaches (fun bound => eval s bound callee) m (.ok (.function f)) →
      f.isBuiltin) :
    Concurs (fun bound => evalCall s bound node callee args)
      (fun bound => evalCall s' bound node' callee' args') m := by
  have applied (label : String) {f : Value}
      (reaches : Reaches (fun bound => eval s bound callee) m (.ok f)) :
      Concurs (fun bound => evalAll s bound args >>= (apply s bound label f · node.span))
        (fun bound => evalAll s' bound args' >>= (apply s' bound label f · node'.span)) m := by
    apply values.bind
    intro vs _
    apply concurs_apply
    rintro g rfl
    exact builtin g reaches
  cases callee with
  | ident calleeNode name =>
      rcases same.exists_ident with ⟨calleeNode', rfl⟩
      have fetched := concurs_fetch (m := m) name (.unresolvedMethod name) calleeNode.span
        calleeNode'.span
      have called := fetched.bind fun f reaches => applied name reaches.eval_ident
      exact called.deeper (fun _ => rfl) fun _ => rfl
  | _ =>
      have called := function.bind fun f reaches => applied "function" reaches
      cases callee' with
      | ident => cases same
      | _ => exact called.deeper (fun _ => rfl) fun _ => rfl

variable (s')

mutual

/-- The evaluation of a quiet expression ends and changes nothing, and what is like the expression
is evaluated in the same way. -/
theorem concurs_eval : ∀ {e e' : Expr α}, e.Quiet s m → e.Resembles e' →
    Concurs (fun bound => eval s bound e) (fun bound => eval s' bound e') m
  | .ident node name, _, quiet, same => by
      rcases same.exists_ident with ⟨node', rfl⟩
      exact (concurs_fetch name _ node.span node'.span).deeper (fun _ => rfl) fun _ => rfl
  | .constant node value, _, quiet, same => by
      rcases same.exists_constant with ⟨node', rfl⟩
      exact (concurs_located _ node.span node'.span).deeper (fun _ => rfl) fun _ => rfl
  | .typeLiteral node written, _, quiet, same => by
      rcases same.exists_typeLiteral with ⟨node', rfl⟩
      exact (concurs_fail _ node.span node'.span).deeper (fun _ => rfl) fun _ => rfl
  | .unary node op operand, _, quiet, same => by
      rcases same.exists_unary with ⟨node', operand', rfl, one⟩
      have evaluated := (concurs_eval quiet.parts one).bind fun v _ =>
        concurs_located (v.unary op) node.span node'.span
      exact evaluated.deeper (fun _ => rfl) fun _ => rfl
  | .binary node op left right, _, quiet, same => by
      rcases same.exists_binary with ⟨node', left', right', rfl, one, two⟩
      have noAssignment := quiet.noAssignment node op left right List.mem_cons_self
      rcases quiet.parts.append with ⟨leftQuiet, rightQuiet⟩
      have first := concurs_eval leftQuiet one
      have second := concurs_eval rightQuiet two
      have both := first.bind fun v _ => second.bind fun w _ =>
        concurs_located (v.binary op w) node.span node'.span
      -- The right operand of `and` and `or` comes down to its truth, where it is evaluated at all.
      have truth := second.bind fun w _ => concurs_pure (Value.bool w.isTruthy)
      cases op with
      | assign | addAssign | subAssign | mulAssign | divAssign => cases noAssignment
      | and =>
          exact (first.branch truth (concurs_pure (.bool false))).deeper (fun _ => rfl) fun _ => rfl
      | or =>
          exact (first.branch (concurs_pure (.bool true)) truth).deeper (fun _ => rfl) fun _ => rfl
      | typeCast =>
          have cast : Concurs (fun bound => evalCast s bound node left right)
              (fun bound => evalCast s' bound node' left' right') m := by
            cases right with
            | typeLiteral literal written =>
                rcases two.exists_typeLiteral with ⟨literal', rfl⟩
                have evaluated := first.bind fun v _ =>
                  concurs_located (Value.cast (Ty.ofExpr written) v) node.span node'.span
                exact evaluated.deeper (fun _ => rfl) fun _ => rfl
            | _ =>
                cases right' with
                | typeLiteral => cases two
                | _ =>
                    exact (concurs_fail _ node.span node'.span).deeper (fun _ => rfl) fun _ => rfl
          exact cast.deeper (fun _ => rfl) fun _ => rfl
      | _ => exact both.deeper (fun _ => rfl) fun _ => rfl
  | .ternary node cond thenBranch elseBranch, _, quiet, same => by
      rcases same.exists_ternary with ⟨node', cond', then', else', rfl, one, two, three⟩
      rcases quiet.parts.append with ⟨firstQuiet, elseQuiet⟩
      rcases Quiet.append firstQuiet with ⟨condQuiet, thenQuiet⟩
      have chosen := (concurs_eval condQuiet one).branch (concurs_eval thenQuiet two)
        (concurs_eval elseQuiet three)
      exact chosen.deeper (fun _ => rfl) fun _ => rfl
  | .index node receiver subscript, _, quiet, same => by
      rcases same.exists_index with ⟨node', receiver', subscript', rfl, one, two⟩
      rcases quiet.parts.append with ⟨receiverQuiet, subscriptQuiet⟩
      have evaluated := (concurs_eval receiverQuiet one).bind fun v _ =>
        (concurs_eval subscriptQuiet two).bind fun w _ =>
          concurs_located (v.element w) node.span node'.span
      exact evaluated.deeper (fun _ => rfl) fun _ => rfl
  | .array node items, _, quiet, same => by
      rcases same.exists_array with ⟨node', items', rfl, all⟩
      have evaluated := (concurs_evalAll quiet.parts all).bind fun vs _ =>
        concurs_pure (Value.array vs)
      exact evaluated.deeper (fun _ => rfl) fun _ => rfl
  | .call node callee args, _, quiet, same => by
      rcases same.exists_call with ⟨node', callee', args', rfl, one, all⟩
      have builtin := quiet.noCall node callee args List.mem_cons_self
      rcases quiet.parts.append with ⟨calleeQuiet, argsQuiet⟩
      have called := concurs_evalCall node node' one
        (concurs_eval calleeQuiet one) (concurs_evalAll argsQuiet all) builtin
      exact called.deeper (fun _ => rfl) fun _ => rfl

theorem concurs_evalAll : ∀ {es es' : List (Expr α)}, Quiet s m (Expr.exprsAll es) →
    Expr.ResemblesAll es es' →
    Concurs (fun bound => evalAll s bound es) (fun bound => evalAll s' bound es') m
  | [], _, quiet, all => by
      cases all.eq_nil
      exact (concurs_pure []).deeper (fun _ => rfl) fun _ => rfl
  | e :: rest, _, quiet, all => by
      rcases all.exists_cons with ⟨e', rest', rfl, one, others⟩
      rcases quiet.append with ⟨firstQuiet, restQuiet⟩
      have evaluated := (concurs_eval firstQuiet one).bind fun v _ =>
        (concurs_evalAll restQuiet others).bind fun vs _ => concurs_pure (v :: vs)
      exact evaluated.deeper (fun _ => rfl) fun _ => rfl

end

end Run

end Formulae
