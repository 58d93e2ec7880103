import Formulae.Proofs.Tree.SideBySide
import Formulae.Typing.Expr

/-!
# Checking renamed expressions

Checking an expression in which a name bound from outside is renamed gives the renamed
expression, or the same error, if the new name has the type of the old one
(`Typing.mirrors_expr`).  Only an assignment to the variable itself is reported under its new
name.
-/

namespace Formulae

variable {α β γ δ ε : Type} {r : Renaming} {bound bound' : List String}
  {env env' : TypeEnv}

/-! ## Names -/

namespace Expr

@[simp]
theorem isPlace_rename (e : Expr α) (role : Role) :
    (e.rename r bound role).isPlace = e.isPlace := by
  cases e <;> rfl

/-- The variable below a renamed place is the same, or it is the renamed one. -/
theorem rootName_rename (bound : List String) : ∀ {role : Role} (e : Expr α),
    (e.rename r bound role).rootName = e.rootName ∨
      (e.rootName = r.old ∧ (e.rename r bound role).rootName = r.new)
  | role, .ident _ name => by
      by_cases matched : name ∉ bound ∧ role = r.role ∧ name = r.old
      · exact .inr ⟨matched.2.2, if_pos matched⟩
      · exact .inl (if_neg matched)
  | _, .index _ receiver _ => rootName_rename bound receiver
  | _, .constant .. | _, .unary .. | _, .binary .. | _, .ternary .. | _, .call .. | _, .array ..
  | _, .typeLiteral .. => .inl rfl

/-- A callee keeps its name when variables are renamed. -/
theorem calleeName_rename (ofVariables : r.role = .variable) (bound : List String) (e : Expr α) :
    (e.rename r bound .callee).calleeName = e.calleeName := by
  cases e with
  | ident _ name => exact Renaming.apply_callee ofVariables name
  | _ => rfl

end Expr

/-! ## Environments and errors -/

/-- The environments give the same types to all names but the new one, and as long as the old
name is not declared, the new one has the type of the old.  Their innermost frames are the
same. -/
structure TypeEnv.Renames (r : Renaming) (bound : List String) (env env' : TypeEnv) : Prop where
  top : env'.top = env.top
  lookup : ∀ name, name ≠ r.new → env'.lookup name = env.lookup name
  renamed : r.old ∉ bound → ∃ type, env.lookup r.old = some type ∧ env'.lookup r.new = some type

/-- The errors are the same, or they report an assignment to the same final variable under its
old and its new name. -/
inductive TypeError.Renamed (r : Renaming) : TypeError → TypeError → Prop
  | same (e : TypeError) : Renamed r e e
  | final (span : Span) : Renamed r ⟨.finalAssignment r.old, span⟩ ⟨.finalAssignment r.new, span⟩

namespace TypeEnv.Renames

variable (renames : env.Renames r bound env')
include renames

theorem child : env.child.Renames r bound env'.child where
  top := rfl
  lookup name different := by
    rw [lookup_child, lookup_child, renames.lookup name different]
  renamed undeclared := by
    rw [lookup_child, lookup_child]
    exact renames.renamed undeclared

theorem bind {name : String} (different : name ≠ r.new) (type : Ty) :
    (env.bind name type).Renames r (name :: bound) (env'.bind name type) where
  top := congrArg ((name, type) :: ·) renames.top
  lookup other notNew := by
    by_cases same : other = name
    · rw [same, lookup_bind_self, lookup_bind_self]
    · rw [lookup_bind_of_ne _ _ same, lookup_bind_of_ne _ _ same, renames.lookup other notNew]
  renamed undeclared := by
    rw [List.mem_cons, not_or] at undeclared
    rw [lookup_bind_of_ne _ _ different.symm, lookup_bind_of_ne _ _ undeclared.1]
    exact renames.renamed undeclared.2

theorem of_mem (h : r.old ∈ bound → r.old ∈ bound') : env.Renames r bound' env' :=
  { renames with
    renamed := fun undeclared => renames.renamed fun declared => undeclared (h declared) }

end TypeEnv.Renames

/-! ## Checks side by side -/

namespace Check

/-- Two checks ended with errors that are the same but for the renaming, or with results that
are related and the same next number. -/
inductive Mirrored (r : Renaming) (related : β → γ → Prop) :
    Except TypeError (β × Nat) → Except TypeError (γ × Nat) → Prop
  | ok {value : β} {value' : γ} {next : Nat} (h : related value value') :
      Mirrored r related (.ok (value, next)) (.ok (value', next))
  | error {e e' : TypeError} (renamed : e.Renamed r e') : Mirrored r related (.error e) (.error e')

/-- Whichever number comes next, two checks end alike but for the renaming. -/
def Mirrors (r : Renaming) (related : β → γ → Prop) (x : Check β) (y : Check γ) : Prop :=
  ∀ next, Mirrored r related (x next) (y next)

variable {related : β → γ → Prop} {related' : δ → ε → Prop}

theorem mirrors_pure {value : β} {value' : γ} (h : related value value') :
    Mirrors r related (pure value) (pure value') :=
  fun _ => .ok h

theorem mirrors_fail (fault : TypeFault) (span : Span) :
    Mirrors r related (fail fault span) (fail fault span) :=
  fun _ => .error (.same _)

theorem mirrors_refl (x : Check β) : Mirrors r Eq x x := by
  intro next
  cases x next with
  | error e => exact .error (.same e)
  | ok pair => exact .ok rfl

theorem Mirrors.bind {x : Check β} {y : Check γ} {f : β → Check δ} {g : γ → Check ε}
    (first : Mirrors r related x y)
    (second : ∀ value value', related value value' → Mirrors r related' (f value) (g value')) :
    Mirrors r related' (x >>= f) (y >>= g) := by
  intro next
  have outcome := first next
  simp only [Bind.bind, StateT.bind, Except.bind]
  revert outcome
  generalize x next = ended, y next = ended'
  intro outcome
  cases outcome with
  | ok h => exact second _ _ h _
  | error renamed => exact .error renamed

theorem Mirrors.mono {x : Check β} {y : Check γ} {related' : β → γ → Prop}
    (mirrors : Mirrors r related x y)
    (h : ∀ value value', related value value' → related' value value') :
    Mirrors r related' x y := by
  intro next
  have outcome := mirrors next
  revert outcome
  generalize x next = ended, y next = ended'
  intro outcome
  cases outcome with
  | ok isRelated => exact .ok (h _ _ isRelated)
  | error renamed => exact .error renamed

/-- A step that is the same on both sides. -/
theorem Mirrors.after {x : Check β} {f : β → Check δ} {g : β → Check ε}
    (second : ∀ value, Mirrors r related' (f value) (g value)) :
    Mirrors r related' (x >>= f) (x >>= g) := by
  apply (mirrors_refl x).bind
  rintro value _ rfl
  exact second value

end Check

namespace Typing

open Check TypeEnv

/-! ## Rules -/

section

variable {role : Role} {x x' y y' z z' : TypedExpr} {xs xs' : List TypedExpr}

theorem calendarLiteral_rename (e : TypedExpr) (role : Role) :
    calendarLiteral? (e.rename r bound role) = calendarLiteral? e := by
  cases e <;> rfl

/-- What a literal is read as has no names in it. -/
theorem renamed_calendarLiteral {literal : TypedExpr}
    (read : calendarLiteral? x = some literal) : literal.Renamed r bound role literal := by
  unfold calendarLiteral? at read
  split at read
  · rcases Option.map_eq_some_iff.mp read with ⟨value, -, rfl⟩
    exact Expr.renamed_constant _ _
  · cases read

theorem renamed_readFor (target : Ty) (renamed : x.Renamed r bound role x') :
    (readFor target x).Renamed r bound role (readFor target x') := by
  unfold readFor
  rw [renamed.eq, calendarLiteral_rename, ← renamed.eq]
  split
  · split
    · next literal read =>
        split
        · exact renamed_calendarLiteral read
        · exact renamed
    · exact renamed
  · exact renamed

theorem mirrors_insertCast (target : Ty) (renamed : x.Renamed r bound .variable x') :
    Mirrors r (Expr.Renamed r bound .variable) (insertCast target x) (insertCast target x') := by
  unfold insertCast
  rw [renamed.span_eq]
  split
  · exact mirrors_fail _ _
  · apply Mirrors.after
    intro moved
    apply Mirrors.after
    intro literal
    rw [renamed.node_eq]
    exact mirrors_pure ((renamed.withId moved).binary (Expr.renamed_typeLiteral _ _) _ _)

theorem mirrors_coerce (fit : Fit) (target : Ty) (renamed : x.Renamed r bound .variable x') :
    Mirrors r (Expr.Renamed r bound .variable) (coerce fit target x) (coerce fit target x') := by
  have read := renamed_readFor target renamed
  unfold coerce
  dsimp only
  rw [read.label_eq, read.span_eq]
  split
  · split
    · exact mirrors_insertCast target read
    · exact mirrors_pure read
  · split
    · exact mirrors_insertCast target read
    · exact mirrors_fail _ _

theorem mirrors_widen (target : Ty) (renamed : x.Renamed r bound .variable x') :
    Mirrors r (Expr.Renamed r bound .variable) (widen target x) (widen target x') := by
  unfold widen
  rw [renamed.label_eq]
  split
  · exact mirrors_insertCast target renamed
  · exact mirrors_pure renamed

theorem mirrors_requireValue (renamed : x.Renamed r bound role x') :
    Mirrors r (Expr.Renamed r bound role) (requireValue x) (requireValue x') := by
  unfold requireValue
  rw [renamed.label_eq, renamed.span_eq]
  split
  · exact mirrors_fail _ _
  · exact mirrors_pure renamed

/-- Checks that go on with a value go on alike. -/
theorem mirrors_value {first first' : Check TypedExpr} {f : TypedExpr → Check β}
    {g : TypedExpr → Check γ} {related : β → γ → Prop}
    (typed : Mirrors r (Expr.Renamed r bound role) first first')
    (rest : ∀ x x' : TypedExpr, x.Renamed r bound role x' → Mirrors r related (f x) (g x')) :
    Mirrors r related (do f (← requireValue (← first))) (do g (← requireValue (← first'))) :=
  typed.bind fun _ _ renamed => (mirrors_requireValue renamed).bind rest

theorem mirrors_ident (renames : env.Renames r bound env') (node : Bare) {name : String}
    (different : name ≠ r.new) :
    Mirrors r (Expr.Renamed r bound role) (ident env node name)
      (ident env' node (r.apply bound role name)) := by
  have spared (type : Ty) : r.new ∉ (Expr.ident (node.typed type) name).mentions :=
    fun member => different (List.mem_singleton.mp member).symm
  unfold ident nameType?
  by_cases matched : name ∉ bound ∧ role = r.role ∧ name = r.old
  · rcases renames.renamed (matched.2.2 ▸ matched.1) with ⟨type, isOld, isNew⟩
    rw [Renaming.apply_eq_new matched.1 matched.2, isNew, matched.2.2, isOld, ← matched.2.2]
    exact mirrors_pure ⟨by rw [Expr.rename, Renaming.apply_eq_new matched.1 matched.2], spared type⟩
  · have same : r.apply bound role name = name := if_neg matched
    rw [same, renames.lookup name different]
    split
    · next type _ => exact mirrors_pure ⟨by rw [Expr.rename, same], spared type⟩
    · exact mirrors_fail _ _

theorem mirrors_unary (node : Bare) (op : Operator) (renamed : x.Renamed r bound .variable x') :
    Mirrors r (Expr.Renamed r bound role) (Typing.unary node op x) (Typing.unary node op x') := by
  unfold Typing.unary
  rw [renamed.label_eq]
  split
  · exact mirrors_pure (renamed.unary _ _)
  · exact mirrors_fail _ _

/-- A literal in place of the operand that it may be read as. -/
theorem renamed_getD (renamed : x.Renamed r bound .variable x') :
    ((calendarLiteral? x).getD x).Renamed r bound .variable ((calendarLiteral? x').getD x') := by
  rw [renamed.eq, calendarLiteral_rename, ← renamed.eq]
  cases read : calendarLiteral? x with
  | none => exact renamed
  | some literal => exact renamed_calendarLiteral read

theorem renamed_operands (op : Operator) (first : x.Renamed r bound .variable x')
    (second : y.Renamed r bound .variable y') :
    (operands op x y).1.Renamed r bound .variable (operands op x' y').1 ∧
      (operands op x y).2.Renamed r bound .variable (operands op x' y').2 := by
  have left := renamed_getD first
  have right := renamed_getD second
  have isLeft : calendarLiteral? x' = calendarLiteral? x := by
    rw [first.eq, calendarLiteral_rename]
  have isRight : calendarLiteral? y' = calendarLiteral? y := by
    rw [second.eq, calendarLiteral_rename]
  rw [isLeft] at left
  rw [isRight] at right
  unfold operands calendarOperands?
  dsimp only
  rw [isLeft, isRight, left.label_eq, right.label_eq]
  split
  · split
    · exact ⟨first, second⟩
    · split
      · exact ⟨left, right⟩
      · exact ⟨first, second⟩
  · exact ⟨first, second⟩

theorem mirrors_binary (node : Bare) (op : Operator) (first : x.Renamed r bound .variable x')
    (second : y.Renamed r bound .variable y') :
    Mirrors r (Expr.Renamed r bound role) (Typing.binary node op x y)
      (Typing.binary node op x' y') := by
  rcases renamed_operands op first second with ⟨left, right⟩
  unfold Typing.binary
  dsimp only
  rw [left.label_eq, right.label_eq]
  split
  · exact mirrors_pure (left.binary right _ _)
  · exact mirrors_fail _ _

theorem mirrors_cast (node literal : Bare) (written : TypeExpr)
    (renamed : x.Renamed r bound .variable x') :
    Mirrors r (Expr.Renamed r bound role) (Typing.cast node literal written x)
      (Typing.cast node literal written x') := by
  have read := renamed_readFor (Ty.ofExpr written) renamed
  unfold Typing.cast
  dsimp only
  rw [read.label_eq]
  split
  · exact mirrors_pure (read.binary (Expr.renamed_typeLiteral _ _) _ _)
  · exact mirrors_fail _ _

theorem mirrors_assignable (node : Bare) (renamed : x.Renamed r bound .variable x') :
    Mirrors r (Expr.Renamed r bound .variable) (assignable node x) (assignable node x') := by
  unfold assignable
  rw [renamed.label_eq, renamed.eq]
  split
  · rcases Expr.rootName_rename bound x with same | ⟨isOld, isNew⟩
    · rw [same]
      exact mirrors_fail _ _
    · rw [isOld, isNew]
      exact fun _ => .error (.final _)
  · exact mirrors_pure ⟨rfl, renamed.spared⟩

theorem renamed_compoundOperand (base : Operator) (slot : Ty)
    (renamed : x.Renamed r bound .variable x') :
    (compoundOperand base slot x).Renamed r bound .variable (compoundOperand base slot x') := by
  unfold compoundOperand
  rw [renamed.label_eq, renamed.eq, calendarLiteral_rename, ← renamed.eq]
  split
  · exact renamed
  · split
    · next literal read =>
        split
        · exact renamed_calendarLiteral read
        · exact renamed
    · exact renamed

theorem mirrors_assignment (node : Bare) (op : Operator)
    (first : x.Renamed r bound .variable x') (second : y.Renamed r bound .variable y') :
    Mirrors r (Expr.Renamed r bound role) (assignment node op x y)
      (assignment node op x' y') := by
  unfold assignment
  split
  · unfold assign
    dsimp only
    rw [first.label_eq]
    apply (mirrors_coerce _ _ second).bind
    exact fun _ _ value => mirrors_pure (first.binary value _ _)
  · next base _ =>
      have value := renamed_compoundOperand base (x.label.withFinal true) second
      unfold compoundAssign
      dsimp only
      rw [first.label_eq, value.label_eq]
      split
      · exact mirrors_fail _ _
      · split
        · exact mirrors_pure (first.binary value _ _)
        · exact mirrors_fail _ _

theorem mirrors_ternary (node : Bare) (first : x.Renamed r bound .variable x')
    (second : y.Renamed r bound .variable y') (third : z.Renamed r bound .variable z') :
    Mirrors r (Expr.Renamed r bound role) (Typing.ternary node x y z)
      (Typing.ternary node x' y' z') := by
  unfold Typing.ternary
  dsimp only
  rw [second.label_eq, third.label_eq]
  split
  · exact mirrors_pure (first.ternary second third _)
  · split
    · apply (mirrors_widen _ third).bind
      exact fun _ _ widened => mirrors_pure (first.ternary second widened _)
    · split
      · apply (mirrors_widen _ second).bind
        exact fun _ _ widened => mirrors_pure (first.ternary widened third _)
      · exact mirrors_pure (first.ternary second third _)

theorem mirrors_widenAll (element : Ty) (renamed : Expr.RenamedAll r bound xs xs') :
    Mirrors r (Expr.RenamedAll r bound) (xs.mapM (widen element)) (xs'.mapM (widen element)) := by
  rcases renamed with ⟨rfl, spared⟩
  induction xs with
  | nil => exact mirrors_pure Expr.renamedAll_nil
  | cons x rest inductionHypothesis =>
      rw [Expr.mentionsAll, List.mem_append, not_or] at spared
      rw [Expr.renameAll, List.mapM_cons, List.mapM_cons]
      apply (mirrors_widen element ⟨rfl, spared.1⟩).bind
      intro first first' isFirst
      apply (inductionHypothesis spared.2).bind
      exact fun _ _ others => mirrors_pure (isFirst.cons others)

theorem mirrors_array (node : Bare) (renamed : Expr.RenamedAll r bound xs xs') :
    Mirrors r (Expr.Renamed r bound role) (Typing.array node xs) (Typing.array node xs') := by
  unfold Typing.array
  dsimp only
  rw [renamed.labels_eq, renamed.length_eq]
  apply (mirrors_widenAll _ renamed).bind
  exact fun _ _ widened => mirrors_pure (widened.array _)

theorem quotedIndex_rename (e : TypedExpr) (role : Role) :
    quotedIndex (e.rename r bound role) = quotedIndex e := by
  cases e <;> rfl

theorem mirrors_index (node : Bare) (first : x.Renamed r bound .variable x')
    (second : y.Renamed r bound .variable y') :
    Mirrors r (Expr.Renamed r bound role) (Typing.index node x y)
      (Typing.index node x' y') := by
  have quoted : quotedIndex y' = quotedIndex y := by rw [second.eq, quotedIndex_rename]
  unfold Typing.index
  rw [first.label_eq, first.span_eq, second.label_eq, quoted]
  split
  · split
    · exact mirrors_pure (first.index second _)
    · exact mirrors_fail _ _
  · exact mirrors_fail _ _

theorem mirrors_argument (signature : Signature) (name : String) (position : Nat)
    (renamed : x.Renamed r bound .variable x') :
    Mirrors r (Expr.Renamed r bound .variable) (argument signature name position x)
      (argument signature name position x') := by
  unfold argument
  rw [renamed.span_eq]
  split
  · exact mirrors_coerce _ _ renamed
  · exact mirrors_fail _ _

theorem mirrors_call (node : Bare) (signature : Signature) (name : String)
    (first : x.Renamed r bound .callee x') (second : Expr.RenamedAll r bound xs xs') :
    Mirrors r (Expr.Renamed r bound role) (Typing.call node signature name x xs)
      (Typing.call node signature name x' xs') := by
  unfold Typing.call
  dsimp only
  rw [second.labels_eq]
  split
  · exact mirrors_pure (first.call second _)
  · exact mirrors_fail _ _

end

/-! ## Expressions -/

mutual

theorem mirrors_expr (ofVariables : r.role = .variable) (renames : env.Renames r bound env') :
    ∀ (role : Role) (e : Expr Unit), r.new ∉ e.mentions →
      Mirrors r (Expr.Renamed r bound role) (e.check env) ((e.rename r bound role).check env')
  | _, .ident node name, spared => by
      rw [Expr.rename, Expr.check, Expr.check]
      exact mirrors_ident renames node fun isNew => spared (List.mem_singleton.mpr isNew.symm)
  | _, .constant _ _, _ => by
      rw [Expr.rename, Expr.check]
      exact mirrors_pure (Expr.renamed_constant _ _)
  | _, .typeLiteral _ _, _ => by
      rw [Expr.rename, Expr.check]
      exact mirrors_pure (Expr.renamed_typeLiteral _ _)
  | _, .unary node op operand, spared => by
      rw [Expr.rename, Expr.check, Expr.check]
      apply mirrors_value (mirrors_expr ofVariables renames _ operand spared)
      exact fun _ _ => mirrors_unary node op
  | _, .binary node op left right, spared => by
      rw [Expr.mentions, List.mem_append, not_or] at spared
      have first := mirrors_expr ofVariables renames .variable left spared.1
      have second := mirrors_expr ofVariables renames .variable right spared.2
      rw [Expr.rename, Expr.check.eq_def, Expr.check.eq_def env']
      dsimp only
      split
      · cases right with
        | typeLiteral literal written =>
            exact mirrors_value first fun _ _ => mirrors_cast node literal written
        | _ => exact mirrors_fail _ _
      · split
        · rw [Expr.isPlace_rename]
          split
          · apply mirrors_value first
            intro x x' isLeft
            apply (mirrors_assignable node isLeft).bind
            intro x x' place
            exact mirrors_value second fun _ _ => mirrors_assignment node op place
          · rw [Expr.span_rename]
            exact mirrors_fail _ _
        · apply mirrors_value first
          intro x x' isLeft
          exact mirrors_value second fun _ _ => mirrors_binary node op isLeft
  | _, .ternary node cond thenBranch elseBranch, spared => by
      simp only [Expr.mentions, List.mem_append, not_or] at spared
      rw [Expr.rename, Expr.check, Expr.check]
      apply mirrors_value (mirrors_expr ofVariables renames _ cond spared.1.1)
      intro c c' first
      apply mirrors_value (mirrors_expr ofVariables renames _ thenBranch spared.1.2)
      intro x x' second
      apply mirrors_value (mirrors_expr ofVariables renames _ elseBranch spared.2)
      exact fun _ _ => mirrors_ternary node first second
  | _, .call node callee args, spared => by
      rw [Expr.mentions, List.mem_append, not_or] at spared
      rw [Expr.rename, Expr.check, Expr.check]
      apply mirrors_value (mirrors_expr ofVariables renames _ callee spared.1)
      intro f f' isCallee
      rw [Expr.calleeName_rename ofVariables, Expr.length_renameAll, isCallee.label_eq,
        isCallee.span_eq]
      split
      · split
        · apply (mirrors_args ofVariables renames _ _ _ args spared.2).bind
          exact fun _ _ => mirrors_call node _ _ isCallee
        · exact mirrors_fail _ _
      · split
        · apply (mirrors_exprs ofVariables renames args spared.2).bind
          exact fun _ _ typedArgs => mirrors_pure (isCallee.call typedArgs _)
        · exact mirrors_fail _ _
  | _, .array node items, spared => by
      rw [Expr.rename, Expr.check, Expr.check]
      apply (mirrors_exprs ofVariables renames items spared).bind
      exact fun _ _ => mirrors_array node
  | _, .index node receiver subscript, spared => by
      rw [Expr.mentions, List.mem_append, not_or] at spared
      rw [Expr.rename, Expr.check, Expr.check]
      apply mirrors_value (mirrors_expr ofVariables renames _ receiver spared.1)
      intro x x' first
      apply mirrors_value (mirrors_expr ofVariables renames _ subscript spared.2)
      exact fun _ _ => mirrors_index node first

theorem mirrors_exprs (ofVariables : r.role = .variable) (renames : env.Renames r bound env') :
    ∀ es : List (Expr Unit), r.new ∉ Expr.mentionsAll es →
      Mirrors r (Expr.RenamedAll r bound) (Expr.checkAll env es)
        (Expr.checkAll env' (Expr.renameAll r bound es))
  | [], _ => mirrors_pure Expr.renamedAll_nil
  | e :: rest, spared => by
      rw [Expr.mentionsAll, List.mem_append, not_or] at spared
      rw [Expr.renameAll, Expr.checkAll, Expr.checkAll]
      apply mirrors_value (mirrors_expr ofVariables renames _ e spared.1)
      intro x x' first
      apply (mirrors_exprs ofVariables renames rest spared.2).bind
      exact fun _ _ others => mirrors_pure (first.cons others)

theorem mirrors_args (ofVariables : r.role = .variable) (renames : env.Renames r bound env')
    (signature : Signature) (name : String) : ∀ (position : Nat) (es : List (Expr Unit)),
      r.new ∉ Expr.mentionsAll es → Mirrors r (Expr.RenamedAll r bound)
        (Expr.checkArgs env signature name position es)
        (Expr.checkArgs env' signature name position (Expr.renameAll r bound es))
  | _, [], _ => mirrors_pure Expr.renamedAll_nil
  | position, e :: rest, spared => by
      rw [Expr.mentionsAll, List.mem_append, not_or] at spared
      rw [Expr.renameAll, Expr.checkArgs, Expr.checkArgs]
      apply mirrors_value (mirrors_expr ofVariables renames _ e spared.1)
      intro x x' isValue
      apply (mirrors_argument signature name position isValue).bind
      intro x x' first
      apply (mirrors_args ofVariables renames signature name (position + 1) rest spared.2).bind
      exact fun _ _ others => mirrors_pure (first.cons others)

end

end Typing

end Formulae
