import Formulae.Proofs.Typing.KeptNames

/-!
# Names that checking does not look up

A name that is not free in a formula may be bound from outside to anything, or not at all:
checking ends in the same way, with the same tree or the same error
(`Typing.check_congr_program`).
-/

namespace Formulae

universe u

variable {β γ δ ε : Type} {x : String} {bound bound' : List String} {env env' : TypeEnv}

namespace TypeEnv

/-- The environments give the same types to all names but `x`, and to `x` too if it is among
the names that are declared.  Their innermost frames are the same. -/
structure AlikeBut (x : String) (bound : List String) (env env' : TypeEnv) : Prop where
  top : env'.top = env.top
  lookup : ∀ name, (name = x → x ∈ bound) → env'.lookup name = env.lookup name

theorem AlikeBut.child (alike : AlikeBut x bound env env') :
    AlikeBut x bound env.child env'.child where
  top := rfl
  lookup name h := by
    rw [lookup_child, lookup_child]
    exact alike.lookup name h

theorem AlikeBut.bind (alike : AlikeBut x bound env env') (name : String) (type : Ty) :
    AlikeBut x (name :: bound) (env.bind name type) (env'.bind name type) where
  top := congrArg ((name, type) :: ·) alike.top
  lookup other h := by
    by_cases same : other = name
    · subst same
      rw [lookup_bind_self, lookup_bind_self]
    · rw [lookup_bind_of_ne _ _ same, lookup_bind_of_ne _ _ same]
      apply alike.lookup
      intro isX
      rcases List.mem_cons.mp (h isX) with isName | declared
      · exact absurd (isX.trans isName) same
      · exact declared

theorem AlikeBut.of_mem (alike : AlikeBut x bound env env') (h : x ∈ bound' → x ∈ bound) :
    AlikeBut x bound' env env' where
  top := alike.top
  lookup name isX := alike.lookup name fun same => h (isX same)

theorem alikeBut_child_of_lookup
    (same : ∀ name, name ≠ x → env'.lookup name = env.lookup name) :
    AlikeBut x [] env.child env'.child where
  top := rfl
  lookup name h := by
    rw [lookup_child, lookup_child]
    exact same name fun isX => nomatch h isX

end TypeEnv

namespace Check

/-- Two checks ended with the same error, or with results that are related and the same next
number. -/
inductive Related (related : β → γ → Prop) :
    Except TypeError (β × Nat) → Except TypeError (γ × Nat) → Prop
  | ok {value : β} {value' : γ} {next : Nat} (h : related value value') :
      Related related (.ok (value, next)) (.ok (value', next))
  | error (error : TypeError) : Related related (.error error) (.error error)

/-- Whichever number comes next, two checks end alike. -/
def Alike (related : β → γ → Prop) (x : Check β) (y : Check γ) : Prop :=
  ∀ next, Related related (x next) (y next)

variable {related : β → γ → Prop} {related' : δ → ε → Prop}

theorem alike_pure {value : β} {value' : γ} (h : related value value') :
    Alike related (pure value) (pure value') :=
  fun _ => .ok h

theorem alike_fail (fault : TypeFault) (span : Span) :
    Alike related (fail fault span) (fail fault span) :=
  fun _ => .error _

theorem alike_refl (x : Check β) : Alike Eq x x := by
  intro next
  cases x next with
  | error error => exact .error error
  | ok pair => exact .ok rfl

theorem Alike.bind {x : Check β} {y : Check γ} {f : β → Check δ} {g : γ → Check ε}
    (first : Alike related x y)
    (second : ∀ value value', related value value' → Alike related' (f value) (g value')) :
    Alike related' (x >>= f) (y >>= g) := by
  intro next
  have outcome := first next
  simp only [Bind.bind, StateT.bind, Except.bind]
  revert outcome
  generalize x next = ended, y next = ended'
  intro outcome
  cases outcome with
  | ok h => exact second _ _ h _
  | error error => exact .error error

theorem Alike.mono {x : Check β} {y : Check γ} {related' : β → γ → Prop}
    (alike : Alike related x y) (h : ∀ value value', related value value' → related' value value') :
    Alike related' x y := by
  intro next
  have outcome := alike next
  revert outcome
  generalize x next = ended, y next = ended'
  intro outcome
  cases outcome with
  | ok isRelated => exact .ok (h _ _ isRelated)
  | error error => exact .error error

/-- A step that is the same on both sides. -/
theorem Alike.after {x : Check β} {f : β → Check δ} {g : β → Check ε}
    (second : ∀ value, Alike related' (f value) (g value)) :
    Alike related' (x >>= f) (x >>= g) := by
  apply (alike_refl x).bind
  rintro value _ rfl
  exact second value

end Check

namespace Typing

open Check TypeEnv

/-! ## Expressions -/

theorem ident_congr (alike : AlikeBut x bound env env') (node : Bare) {name : String}
    (spared : x ∉ (Expr.ident node name).names bound) :
    ident env' node name = ident env node name := by
  have same : env'.lookup name = env.lookup name := by
    apply alike.lookup
    rintro rfl
    by_cases declared : name ∈ bound
    · exact declared
    · simp [Expr.names, Expr.free, Expr.occurrence, declared] at spared
  unfold ident nameType?
  rw [same]

mutual

theorem check_congr (alike : AlikeBut x bound env env') :
    ∀ e : Expr Unit, x ∉ e.names bound → e.check env' = e.check env
  | .ident node name, spared => by
      rw [Expr.check, Expr.check]
      exact ident_congr alike node spared
  | .constant _ _, _ | .typeLiteral _ _, _ => rfl
  | .unary node op operand, spared => by
      rw [Expr.check, Expr.check, check_congr alike operand spared]
  | .binary node op left right, spared => by
      rw [Expr.names_binary, List.mem_append, not_or] at spared
      rw [Expr.check.eq_def, Expr.check.eq_def env]
      simp only [check_congr alike left spared.1, check_congr alike right spared.2]
  | .ternary node cond thenBranch elseBranch, spared => by
      rw [Expr.names_ternary, List.mem_append, List.mem_append, not_or, not_or] at spared
      rw [Expr.check, Expr.check]
      simp only [check_congr alike cond spared.1.1, check_congr alike thenBranch spared.1.2,
        check_congr alike elseBranch spared.2]
  | .call node callee args, spared => by
      rw [Expr.names_call, List.mem_append, not_or] at spared
      rw [Expr.check, Expr.check]
      simp only [check_congr alike callee spared.1, checkAll_congr alike args spared.2,
        checkArgs_congr alike args spared.2]
  | .array node items, spared => by
      rw [Expr.check, Expr.check, checkAll_congr alike items spared]
  | .index node receiver subscript, spared => by
      rw [Expr.names_index, List.mem_append, not_or] at spared
      rw [Expr.check, Expr.check]
      simp only [check_congr alike receiver spared.1, check_congr alike subscript spared.2]

theorem checkAll_congr (alike : AlikeBut x bound env env') :
    ∀ es : List (Expr Unit), x ∉ Expr.namesAll bound es →
      Expr.checkAll env' es = Expr.checkAll env es
  | [], _ => rfl
  | e :: rest, spared => by
      rw [Expr.namesAll_cons, List.mem_append, not_or] at spared
      rw [Expr.checkAll, Expr.checkAll, check_congr alike e spared.1,
        checkAll_congr alike rest spared.2]

theorem checkArgs_congr (alike : AlikeBut x bound env env') :
    ∀ es : List (Expr Unit), x ∉ Expr.namesAll bound es →
      ∀ (signature : Signature) (name : String) (position : Nat),
        Expr.checkArgs env' signature name position es =
          Expr.checkArgs env signature name position es
  | [], _, _, _, _ => rfl
  | e :: rest, spared, signature, name, position => by
      rw [Expr.namesAll_cons, List.mem_append, not_or] at spared
      rw [Expr.checkArgs, Expr.checkArgs, check_congr alike e spared.1]
      simp only [checkArgs_congr alike rest spared.2]

end

/-! ## Statements -/

section

variable (alike : AlikeBut x bound env env')
include alike

theorem checkValue_congr {e : Expr Unit} (spared : x ∉ e.names bound) :
    e.checkValue env' = e.checkValue env := by
  rw [Expr.checkValue, Expr.checkValue, check_congr alike e spared]

theorem checkValueOption_congr {e : Option (Expr Unit)} (spared : x ∉ Expr.namesOption bound e) :
    Expr.checkValueOption env' e = Expr.checkValueOption env e := by
  cases e with
  | none => rfl
  | some e => rw [Expr.checkValueOption, Expr.checkValueOption, checkValue_congr alike spared]

theorem checkOption_congr {e : Option (Expr Unit)} (spared : x ∉ Expr.namesOption bound e) :
    Expr.checkOption env' e = Expr.checkOption env e := by
  cases e with
  | none => rfl
  | some e => rw [Expr.checkOption, Expr.checkOption, check_congr alike e spared]

theorem alike_declare (name : String) (type : Ty) (span : Span) :
    Alike (AlikeBut x (name :: bound)) (declare env name type span)
      (declare env' name type span) := by
  unfold declare declare? isLocal
  rw [alike.top]
  split
  · next after declared =>
      split at declared
      · cases declared
      · next fresh =>
          cases declared
          rw [if_neg fresh]
          exact alike_pure (alike.bind name type)
  · next undeclared =>
      split at undeclared
      · next taken =>
          rw [if_pos taken]
          exact alike_fail _ _
      · cases undeclared

end

theorem alike_declareParams (alike : AlikeBut x bound env env') (span : Span)
    (params : List Param) :
    Alike (AlikeBut x (params.map Param.name ++ bound)) (declareParams span env params)
      (declareParams span env' params) := by
  induction params generalizing env env' bound with
  | nil => exact alike_pure alike
  | cons param rest inductionHypothesis =>
      rw [declareParams, declareParams]
      apply (alike_declare alike _ _ _).bind
      intro inner inner' alike'
      apply (inductionHypothesis alike').mono
      exact fun _ _ after => after.of_mem (by simp [or_left_comm])

/-- The same typed statement, in environments that are alike. -/
def SameTyped (x : String) (bound : List String) (typed typed' : TypedStmt × TypeEnv) : Prop :=
  typed'.1 = typed.1 ∧ AlikeBut x bound typed.2 typed'.2

mutual

theorem alike_stmt {bound : List String} {env env' : TypeEnv} (alike : AlikeBut x bound env env')
    (around : Surroundings) : ∀ s : Stmt Unit, x ∉ s.names bound →
      Alike (SameTyped x (s.declared ++ bound)) (s.check around env) (s.check around env')
  | .expr node e, spared => by
      rw [Stmt.check, Stmt.check, check_congr alike e spared]
      exact Alike.after fun _ => alike_pure ⟨rfl, alike⟩
  | .varDecl node binder init, spared => by
      rw [Stmt.check, Stmt.check, checkValue_congr alike spared]
      apply Alike.after
      intro value
      apply Alike.after
      intro typed
      apply (alike_declare alike _ _ _).bind
      exact fun _ _ alike' => alike_pure ⟨rfl, alike'⟩
  | .ret node none, _ => by
      rw [Stmt.check, Stmt.check]
      exact Alike.after fun _ => alike_pure ⟨rfl, alike⟩
  | .ret node (some e), spared => by
      rw [Stmt.check, Stmt.check, checkValue_congr alike spared]
      apply Alike.after
      intro value
      exact Alike.after fun _ => alike_pure ⟨rfl, alike⟩
  | .ifElse node cond thenBranch elseBranch, spared => by
      rw [Stmt.names_ifElse, List.mem_append, List.mem_append, not_or, not_or] at spared
      rw [Stmt.check, Stmt.check, checkValue_congr alike spared.1.1]
      apply Alike.after
      intro c
      apply (alike_stmt alike.child around thenBranch spared.1.2).bind
      rintro ⟨y, _⟩ ⟨_, _⟩ ⟨rfl, _⟩
      apply (alike_branch alike around elseBranch spared.2).bind
      rintro z _ rfl
      exact alike_pure ⟨rfl, alike⟩
  | .whileLoop node cond body, spared => by
      rw [Stmt.names_whileLoop, List.mem_append, not_or] at spared
      rw [Stmt.check, Stmt.check, checkValue_congr alike spared.1]
      apply Alike.after
      intro c
      apply (alike_stmt alike.child around.loopBody body spared.2).bind
      rintro ⟨y, _⟩ ⟨_, _⟩ ⟨rfl, _⟩
      exact alike_pure ⟨rfl, alike⟩
  | .doWhile node body cond, spared => by
      rw [Stmt.names_doWhile, List.mem_append, not_or] at spared
      rw [Stmt.check, Stmt.check, checkValue_congr alike spared.2]
      apply Alike.after
      intro c
      apply (alike_stmt alike.child around.loopBody body spared.1).bind
      rintro ⟨y, _⟩ ⟨_, _⟩ ⟨rfl, _⟩
      exact alike_pure ⟨rfl, alike⟩
  | .forLoop node init cond step body, spared => by
      simp only [Stmt.names_forLoop, List.mem_append, not_or] at spared
      rcases spared with ⟨⟨⟨initSpared, condSpared⟩, stepSpared⟩, bodySpared⟩
      rw [Stmt.check, Stmt.check]
      apply (alike_init alike.child around init initSpared).bind
      rintro ⟨i, inner⟩ ⟨_, inner'⟩ ⟨rfl, alike'⟩
      dsimp only
      rw [checkValueOption_congr alike' condSpared, checkOption_congr alike' stepSpared]
      apply Alike.after
      intro c
      apply Alike.after
      intro n
      apply (alike_stmt alike'.child around.loopBody body bodySpared).bind
      rintro ⟨y, _⟩ ⟨_, _⟩ ⟨rfl, _⟩
      exact alike_pure ⟨rfl, alike⟩
  | .forEach node binder iterable body, spared => by
      rw [Stmt.names_forEach, List.mem_append, not_or] at spared
      rw [Stmt.check, Stmt.check, checkValue_congr alike spared.1]
      apply Alike.after
      intro xs
      apply Alike.after
      intro element
      apply Alike.after
      intro type
      apply (alike_declare alike.child _ _ _).bind
      intro inner inner' alike'
      apply (alike_stmt alike'.child around.loopBody body spared.2).bind
      rintro ⟨y, _⟩ ⟨_, _⟩ ⟨rfl, _⟩
      exact alike_pure ⟨rfl, alike⟩
  | .brk node, _ | .cont node, _ => by
      rw [Stmt.check, Stmt.check]
      exact Alike.after fun _ => alike_pure ⟨rfl, alike⟩
  | .block node stmts, spared => by
      rw [Stmt.check, Stmt.check]
      apply (alike_stmts alike.child around stmts spared).bind
      rintro ⟨typed, _⟩ ⟨_, _⟩ ⟨rfl, _⟩
      exact alike_pure ⟨rfl, alike⟩
  | .function node written name params body, spared => by
      rw [Stmt.check, Stmt.check]
      apply (alike_declare alike _ _ _).bind
      intro after after' alike'
      apply (alike_declareParams alike'.child _ params).bind
      intro inner inner' innerAlike
      apply (alike_stmts innerAlike _ body spared).bind
      rintro ⟨typed, _⟩ ⟨_, _⟩ ⟨rfl, _⟩
      exact Alike.after fun _ => alike_pure ⟨rfl, alike'⟩

theorem alike_branch {bound : List String} {env env' : TypeEnv}
    (alike : AlikeBut x bound env env') (around : Surroundings) :
    ∀ s : Option (Stmt Unit), x ∉ Stmt.namesOption bound s →
      Alike Eq (Stmt.checkOption around env s) (Stmt.checkOption around env' s)
  | none, _ => alike_pure rfl
  | some s, spared => by
      rw [Stmt.checkOption, Stmt.checkOption]
      apply (alike_stmt alike.child around s spared).bind
      rintro ⟨typed, _⟩ ⟨_, _⟩ ⟨rfl, _⟩
      exact alike_pure rfl

theorem alike_init {bound : List String} {env env' : TypeEnv}
    (alike : AlikeBut x bound env env') (around : Surroundings) :
    ∀ s : Option (Stmt Unit), x ∉ Stmt.namesOption bound s →
      Alike (fun typed typed' => typed'.1 = typed.1 ∧
          AlikeBut x (Stmt.declaredOption s ++ bound) typed.2 typed'.2)
        (Stmt.checkInit around env s) (Stmt.checkInit around env' s)
  | none, _ => alike_pure ⟨rfl, alike⟩
  | some s, spared => by
      rw [Stmt.checkInit, Stmt.checkInit]
      apply (alike_stmt alike around s spared).bind
      rintro ⟨typed, _⟩ ⟨_, _⟩ ⟨rfl, alike'⟩
      exact alike_pure ⟨rfl, alike'⟩

theorem alike_stmts {bound : List String} {env env' : TypeEnv}
    (alike : AlikeBut x bound env env') (around : Surroundings) :
    ∀ stmts : List (Stmt Unit), x ∉ Stmt.namesAll bound stmts →
      Alike (fun typed typed' => typed'.1 = typed.1 ∧
          AlikeBut x (Stmt.boundAfter bound stmts) typed.2 typed'.2)
        (Stmt.checkAll around env stmts) (Stmt.checkAll around env' stmts)
  | [], _ => alike_pure ⟨rfl, alike⟩
  | s :: rest, spared => by
      rw [Stmt.namesAll_cons, List.mem_append, not_or] at spared
      rw [Stmt.checkAll, Stmt.checkAll]
      apply (alike_stmt alike around s spared.1).bind
      rintro ⟨first, inner⟩ ⟨_, inner'⟩ ⟨rfl, alike'⟩
      apply (alike_stmts alike' around rest spared.2).bind
      rintro ⟨others, after⟩ ⟨_, after'⟩ ⟨rfl, alike''⟩
      exact alike_pure ⟨rfl, alike''⟩

end

/-! ## Formulas -/

/-- Checking a formula depends on the types of its free names only. -/
theorem check_congr_program {globals globals' : TypeEnv} {p : Program Unit}
    (same : ∀ name, name ≠ x → globals'.lookup name = globals.lookup name)
    (spared : x ∉ p.names) : p.check globals' = p.check globals := by
  rw [Program.names_eq, List.mem_append, not_or] at spared
  have checked : Alike Eq (p.checked globals) (p.checked globals') := by
    apply (alike_stmts (alikeBut_child_of_lookup same) .outside p.body spared.1).bind
    rintro ⟨body, env⟩ ⟨_, env'⟩ ⟨rfl, alike⟩
    dsimp only
    rw [checkOption_congr alike spared.2]
    exact Alike.after fun _ => alike_pure rfl
  have outcome := checked p.exprSize
  unfold Program.check StateT.run'
  revert outcome
  generalize p.checked globals p.exprSize = ended, p.checked globals' p.exprSize = ended'
  intro outcome
  cases outcome with
  | ok same =>
      rw [same]
  | error error => rfl

end Typing

end Formulae
