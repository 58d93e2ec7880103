import Formulae.Proofs.Typing.Rules
import Formulae.Tree.Names

/-!
# Free names are what checking looks up

Two readings of one tree: `Program.free` lists the names a formula uses without
declaring them, by the names declared around each place, and checking looks every
name up in its environment.  They keep the same scopes (`Sees`), so checking finds
every listed name exactly if it is bound from outside or built in, and the one it
reports as unknown is listed (`looksUp_program`).
-/

namespace Formulae.Typing

open Check

variable {β γ : Type} {globals env : TypeEnv} {bound : List String}

/-- The name is bound from outside, or it is the name of a built-in function. -/
def Supplied (globals : TypeEnv) (name : String) : Prop :=
  (globals.lookup name).isSome ∨ (Builtin.ofName? name).isSome

/-- The environment binds the names declared and those bound from outside. -/
def Sees (globals : TypeEnv) (bound : List String) (env : TypeEnv) : Prop :=
  ∀ name, (env.lookup name).isSome ↔ name ∈ bound ∨ (globals.lookup name).isSome

/-- An unknown name is one of the uses, in the place reported, and nobody supplies
it. -/
def Blames (globals : TypeEnv) (uses : List Occurrence) (error : TypeError) : Prop :=
  ∀ name, error.fault = .unknownIdentifier name →
    ¬ Supplied globals name ∧ ∃ use ∈ uses, use.name = name ∧ use.span = error.span

/-- The check looks up these uses of names: it ends with a result, of which `result`
holds, only if all of them are supplied. -/
def LooksUp (globals : TypeEnv) (uses : List Occurrence) (x : Check β)
    (result : β → Prop := fun _ => True) : Prop :=
  Meets x (fun value => result value ∧ ∀ use ∈ uses, Supplied globals use.name)
    (Blames globals uses)

/-! ## Composition -/

section

variable {uses uses' : List Occurrence} {result : β → Prop} {result' : γ → Prop}

theorem Blames.mono {error : TypeError} (blames : Blames globals uses error)
    (more : ∀ use ∈ uses, use ∈ uses') : Blames globals uses' error := by
  intro name unknown
  rcases blames name unknown with ⟨missing, use, member, same⟩
  exact ⟨missing, use, more use member, same⟩

theorem looksUp_pure {value : β} (h : result value) :
    LooksUp globals [] (pure value) result :=
  meets_pure ⟨h, by simp⟩

theorem looksUp_fail {fault : TypeFault} {span : Span}
    (known : ∀ name, fault ≠ .unknownIdentifier name) :
    LooksUp globals uses (fail fault span : Check β) result :=
  meets_fail fun name unknown => absurd unknown (known name)

theorem looksUp_fresh : LooksUp globals [] fresh :=
  meets_fresh (by simp)

theorem LooksUp.bind {x : Check β} {f : β → Check γ}
    (first : LooksUp globals uses x result)
    (second : ∀ value, result value → LooksUp globals uses' (f value) result') :
    LooksUp globals (uses ++ uses') (x >>= f) result' := by
  apply Meets.bind
  · apply Meets.mono first (fun _ done => done)
    exact fun error blames => blames.mono fun use member => List.mem_append_left _ member
  · intro value ⟨holds, found⟩
    apply Meets.mono (second value holds)
    · rintro after ⟨holds', found'⟩
      refine ⟨holds', ?_⟩
      intro use member
      rcases List.mem_append.mp member with earlier | later
      · exact found use earlier
      · exact found' use later
    · exact fun error blames => blames.mono fun use member => List.mem_append_right _ member

theorem LooksUp.congr {x : Check β} (looksUp : LooksUp globals uses x result)
    (same : ∀ use, use ∈ uses ↔ use ∈ uses') : LooksUp globals uses' x result :=
  Meets.mono looksUp (fun _ done => ⟨done.1, fun use member => done.2 use ((same use).mpr member)⟩)
    fun _ blames => blames.mono fun use => (same use).mp

/-- A first step that looks nothing up. -/
theorem LooksUp.afterRule {x : Check β} {f : β → Check γ}
    (first : LooksUp globals [] x result)
    (second : ∀ value, result value → LooksUp globals uses (f value) result') :
    LooksUp globals uses (x >>= f) result' :=
  first.bind second

/-- A last step that looks nothing up. -/
theorem LooksUp.thenRule {x : Check β} {f : β → Check γ}
    (first : LooksUp globals uses x result)
    (second : ∀ value, result value → LooksUp globals [] (f value) result') :
    LooksUp globals uses (x >>= f) result' :=
  (first.bind second).congr (by simp)

end

/-! ## Scopes -/

theorem Sees.child (sees : Sees globals bound env) : Sees globals bound env.child := by
  intro name
  rw [TypeEnv.lookup_child]
  exact sees name

theorem Sees.bind (sees : Sees globals bound env) (name : String) (type : Ty) :
    Sees globals (name :: bound) (env.bind name type) := by
  intro other
  by_cases same : other = name
  · subst same
    simp [TypeEnv.lookup_bind_self]
  · rw [TypeEnv.lookup_bind_of_ne env type same, sees other]
    simp [same]

theorem Sees.congr {bound' : List String} (sees : Sees globals bound env)
    (same : ∀ name, name ∈ bound ↔ name ∈ bound') : Sees globals bound' env := by
  intro name
  rw [← same name]
  exact sees name

theorem sees_child_globals : Sees globals [] globals.child := by
  intro name
  simp [TypeEnv.lookup_child]

/-! ## Rules look nothing up -/

theorem Ordinary.looksUp {x : Check β} (ordinary : Ordinary x) : LooksUp globals [] x :=
  Meets.mono ordinary (fun _ _ => ⟨trivial, nofun⟩) fun error isOrdinary name unknown => by
    rw [unknown] at isOrdinary
    cases isOrdinary

theorem looksUp_insertCast (target : Ty) (e : TypedExpr) :
    LooksUp globals [] (insertCast target e) := by
  unfold insertCast
  split
  · exact looksUp_fail nofun
  · apply looksUp_fresh.afterRule
    intro moved _
    apply looksUp_fresh.afterRule
    exact fun literal _ => looksUp_pure trivial

theorem looksUp_coerce (fit : Fit) (target : Ty) (e : TypedExpr) :
    LooksUp globals [] (coerce fit target e) := by
  simp only [coerce]
  split
  · split
    · exact looksUp_insertCast _ _
    · exact looksUp_pure trivial
  · split
    · exact looksUp_insertCast _ _
    · exact looksUp_fail nofun

theorem looksUp_widen (target : Ty) (e : TypedExpr) : LooksUp globals [] (widen target e) := by
  unfold widen
  split
  · exact looksUp_insertCast _ _
  · exact looksUp_pure trivial

/-- A value that is looked at once it is known to be one. -/
theorem LooksUp.value {uses uses' : List Occurrence} {x : Check TypedExpr}
    {f : TypedExpr → Check γ} {result : γ → Prop} (first : LooksUp globals uses x)
    (second : ∀ e, LooksUp globals uses' (f e) result) :
    LooksUp globals (uses ++ uses') (x >>= fun e => requireValue e >>= f) result :=
  first.bind fun e _ => (ordinary_requireValue e).looksUp.afterRule fun value _ => second value

/-- The last value, which a rule takes up. -/
theorem LooksUp.lastValue {uses : List Occurrence} {x : Check TypedExpr}
    {f : TypedExpr → Check γ} {result : γ → Prop} (first : LooksUp globals uses x)
    (rule : ∀ e, LooksUp globals [] (f e) result) :
    LooksUp globals uses (x >>= fun e => requireValue e >>= f) result :=
  (first.value rule).congr (by simp)

theorem looksUp_assignment (node : Bare) (op : Operator) (target value : TypedExpr) :
    LooksUp globals [] (assignment node op target value) := by
  unfold assignment
  split
  · apply LooksUp.afterRule (looksUp_coerce _ _ _)
    exact fun _ _ => looksUp_pure trivial
  · exact (ordinary_compoundAssign node op _ target value).looksUp

theorem looksUp_ternary (node : Bare) (cond thenBranch elseBranch : TypedExpr) :
    LooksUp globals [] (ternary node cond thenBranch elseBranch) := by
  simp only [ternary]
  split
  · exact looksUp_pure trivial
  · split
    · apply LooksUp.afterRule (looksUp_widen _ _)
      exact fun _ _ => looksUp_pure trivial
    · split
      · apply LooksUp.afterRule (looksUp_widen _ _)
        exact fun _ _ => looksUp_pure trivial
      · exact looksUp_pure trivial

theorem looksUp_mapM {rule : β → Check γ} (looksUp : ∀ x, LooksUp globals [] (rule x))
    (xs : List β) : LooksUp globals [] (xs.mapM rule) := by
  induction xs with
  | nil => exact looksUp_pure trivial
  | cons x rest inductionHypothesis =>
      rw [List.mapM_cons]
      apply LooksUp.afterRule (looksUp x)
      intro _ _
      apply LooksUp.afterRule inductionHypothesis
      exact fun _ _ => looksUp_pure trivial

theorem looksUp_array (node : Bare) (items : List TypedExpr) :
    LooksUp globals [] (array node items) := by
  simp only [array]
  apply LooksUp.afterRule (looksUp_mapM (looksUp_widen _) items)
  exact fun _ _ => looksUp_pure trivial

theorem looksUp_argument (signature : Signature) (name : String) (position : Nat)
    (arg : TypedExpr) : LooksUp globals [] (argument signature name position arg) := by
  unfold argument
  split
  · exact looksUp_coerce _ _ _
  · exact looksUp_fail nofun

/-! ## Expressions -/

theorem looksUp_ident (sees : Sees globals bound env) (role : Role) (node : Bare)
    (name : String) :
    LooksUp globals (Expr.occurrence bound role node name) (ident env node name) := by
  have known : (nameType? env name).isSome ↔ name ∈ bound ∨ Supplied globals name := by
    simp only [nameType?, Option.isSome_or, Option.isSome_map, Bool.or_eq_true, sees name,
      Supplied, or_assoc]
  unfold ident
  cases found : nameType? env name with
  | none =>
      rw [found] at known
      have missing : name ∉ bound ∧ ¬ Supplied globals name := by simpa using known
      apply meets_fail
      rintro _ ⟨rfl⟩
      rw [Expr.occurrence, if_neg missing.1]
      exact ⟨missing.2, _, List.mem_singleton_self _, rfl, rfl⟩
  | some type =>
      rw [found] at known
      apply meets_pure
      refine ⟨trivial, ?_⟩
      intro use member
      rw [Expr.occurrence] at member
      split at member
      · cases member
      · next unbound =>
          rw [List.mem_singleton.mp member]
          exact (known.mp rfl).resolve_left unbound

mutual

theorem looksUp_expr (sees : Sees globals bound env) :
    ∀ (e : Expr Unit) (role : Role), LooksUp globals (e.free bound role) (e.check env)
  | .ident node name, role => looksUp_ident sees role node name
  | .constant _ _, _ | .typeLiteral _ _, _ => looksUp_pure trivial
  | .unary node op operand, _ => by
      rw [Expr.check, Expr.free]
      exact (looksUp_expr sees operand .variable).lastValue fun x =>
        (ordinary_unary node op x).looksUp
  | .binary node op left right, _ => by
      have first := looksUp_expr sees left .variable
      have second := looksUp_expr sees right .variable
      rw [Expr.check.eq_def, Expr.free]
      dsimp only
      split
      · split
        · exact first.value fun x => (ordinary_cast node _ _ x).looksUp
        · exact looksUp_fail nofun
      · split
        · split
          · apply first.value
            intro x
            apply LooksUp.afterRule (ordinary_assignable node x).looksUp
            exact fun target _ => second.lastValue (looksUp_assignment node op target)
          · exact looksUp_fail nofun
        · exact first.value fun x => second.lastValue fun y => (ordinary_binary node op x y).looksUp
  | .ternary node cond thenBranch elseBranch, _ => by
      rw [Expr.check, Expr.free, List.append_assoc]
      apply (looksUp_expr sees cond .variable).value
      intro c
      apply (looksUp_expr sees thenBranch .variable).value
      exact fun x => (looksUp_expr sees elseBranch .variable).lastValue (looksUp_ternary node c x)
  | .call node callee args, _ => by
      rw [Expr.check, Expr.free]
      apply (looksUp_expr sees callee .callee).value
      intro f
      split
      · split
        · exact (looksUp_args sees _ _ 0 args).thenRule fun xs _ =>
            (ordinary_call node _ _ f xs).looksUp
        · exact looksUp_fail nofun
      · split
        · exact (looksUp_exprs sees args).thenRule fun _ _ => looksUp_pure trivial
        · exact looksUp_fail nofun
  | .array node items, _ => by
      rw [Expr.check, Expr.free]
      exact (looksUp_exprs sees items).thenRule fun xs _ => looksUp_array node xs
  | .index node receiver subscript, _ => by
      rw [Expr.check, Expr.free]
      apply (looksUp_expr sees receiver .variable).value
      exact fun x => (looksUp_expr sees subscript .variable).lastValue fun y =>
        (ordinary_index node x y).looksUp

theorem looksUp_exprs (sees : Sees globals bound env) :
    ∀ es : List (Expr Unit), LooksUp globals (Expr.freeAll bound es) (Expr.checkAll env es)
  | [] => looksUp_pure trivial
  | e :: rest => by
      rw [Expr.checkAll, Expr.freeAll]
      apply (looksUp_expr sees e .variable).value
      exact fun _ => (looksUp_exprs sees rest).thenRule fun _ _ => looksUp_pure trivial

theorem looksUp_args (sees : Sees globals bound env) (signature : Signature) (name : String) :
    ∀ (position : Nat) (es : List (Expr Unit)),
      LooksUp globals (Expr.freeAll bound es) (Expr.checkArgs env signature name position es)
  | _, [] => looksUp_pure trivial
  | position, e :: rest => by
      rw [Expr.checkArgs, Expr.freeAll]
      apply (looksUp_expr sees e .variable).value
      intro x
      apply LooksUp.afterRule (looksUp_argument signature name position x)
      intro _ _
      exact (looksUp_args sees signature name (position + 1) rest).thenRule fun _ _ =>
        looksUp_pure trivial

end

/-! ## Statements -/

theorem looksUp_checkValue (sees : Sees globals bound env) (e : Expr Unit) :
    LooksUp globals (e.free bound .variable) (e.checkValue env) :=
  (looksUp_expr sees e .variable).thenRule fun value _ =>
    (ordinary_requireValue value).looksUp

theorem looksUp_checkValueOption (sees : Sees globals bound env) (e : Option (Expr Unit)) :
    LooksUp globals (Expr.freeOption bound e) (Expr.checkValueOption env e) := by
  cases e with
  | none => exact looksUp_pure trivial
  | some e => exact (looksUp_checkValue sees e).thenRule fun _ _ => looksUp_pure trivial

theorem looksUp_checkOption (sees : Sees globals bound env) (e : Option (Expr Unit)) :
    LooksUp globals (Expr.freeOption bound e) (Expr.checkOption env e) := by
  cases e with
  | none => exact looksUp_pure trivial
  | some e => exact (looksUp_expr sees e .variable).thenRule fun _ _ => looksUp_pure trivial

theorem looksUp_declare (sees : Sees globals bound env) (name : String) (type : Ty)
    (span : Span) :
    LooksUp globals [] (declare env name type span) (Sees globals (name :: bound)) := by
  unfold declare
  cases declared : env.declare? name type with
  | none => exact looksUp_fail nofun
  | some after =>
      unfold TypeEnv.declare? at declared
      split at declared
      · cases declared
      · cases declared
        exact looksUp_pure (sees.bind name type)

theorem looksUp_declareParams (sees : Sees globals bound env) (span : Span)
    (params : List Param) :
    LooksUp globals [] (declareParams span env params)
      (Sees globals (params.map Param.name ++ bound)) := by
  induction params generalizing env bound with
  | nil => exact looksUp_pure sees
  | cons param rest inductionHypothesis =>
      rw [declareParams]
      apply LooksUp.afterRule (looksUp_declare sees _ _ _)
      intro inner sees'
      have seen : Sees globals ((param :: rest).map Param.name ++ bound) =
          Sees globals (rest.map Param.name ++ param.name :: bound) := by
        funext env
        apply propext
        constructor <;> exact fun sees => sees.congr (by simp [or_left_comm])
      rw [seen]
      exact inductionHypothesis sees'

theorem looksUp_initial (written : Option TypeExpr) (value : TypedExpr) :
    LooksUp globals [] (initial written value) := by
  cases written with
  | none => exact looksUp_pure trivial
  | some written =>
      apply LooksUp.afterRule (looksUp_coerce _ _ _)
      exact fun _ _ => looksUp_pure trivial

theorem looksUp_returned (expected : Option Ty) (value : TypedExpr) :
    LooksUp globals [] (returned expected value) := by
  cases expected with
  | none => exact looksUp_pure trivial
  | some expected => exact looksUp_coerce _ _ _

mutual

theorem looksUp_stmt {bound : List String} {env : TypeEnv} (sees : Sees globals bound env)
    (around : Surroundings) :
    ∀ s : Stmt Unit, LooksUp globals (s.free bound) (s.check around env)
      fun checked => Sees globals (s.declared ++ bound) checked.2
  | .expr node e => by
      rw [Stmt.check, Stmt.free]
      exact (looksUp_expr sees e .variable).thenRule fun _ _ => looksUp_pure sees
  | .varDecl node binder init => by
      rw [Stmt.check, Stmt.free]
      apply (looksUp_checkValue sees init).thenRule
      intro value _
      apply LooksUp.afterRule (looksUp_initial binder.type value)
      intro typed _
      apply LooksUp.afterRule (looksUp_declare sees _ _ _)
      exact fun _ sees' => looksUp_pure sees'
  | .ret node none => by
      rw [Stmt.check, Stmt.free]
      apply LooksUp.afterRule (ordinary_returnsNothing _ _).looksUp
      exact fun _ _ => looksUp_pure sees
  | .ret node (some e) => by
      rw [Stmt.check, Stmt.free]
      apply (looksUp_checkValue sees e).thenRule
      intro value _
      apply LooksUp.afterRule (looksUp_returned around.returns value)
      exact fun _ _ => looksUp_pure sees
  | .ifElse node cond thenBranch elseBranch => by
      rw [Stmt.check, Stmt.free, List.append_assoc]
      apply (looksUp_checkValue sees cond).bind
      intro c _
      apply (looksUp_stmt sees.child around thenBranch).bind
      intro x _
      exact (looksUp_branch sees around elseBranch).thenRule fun _ _ => looksUp_pure sees
  | .whileLoop node cond body => by
      rw [Stmt.check, Stmt.free]
      apply (looksUp_checkValue sees cond).bind
      intro c _
      exact (looksUp_stmt sees.child _ body).thenRule fun _ _ => looksUp_pure sees
  | .doWhile node body cond => by
      have inOrder : LooksUp globals (cond.free bound .variable ++ body.free bound)
          (Stmt.check around env (.doWhile node body cond))
          fun checked => Sees globals bound checked.2 := by
        rw [Stmt.check]
        apply (looksUp_checkValue sees cond).bind
        intro c _
        exact (looksUp_stmt sees.child _ body).thenRule fun _ _ => looksUp_pure sees
      rw [Stmt.free]
      exact inOrder.congr (by simp [or_comm])
  | .forLoop node init cond step body => by
      rw [Stmt.check, Stmt.free, List.append_assoc, List.append_assoc]
      apply (looksUp_init sees.child around init).bind
      rintro ⟨i, inner⟩ sees'
      apply (looksUp_checkValueOption sees' cond).bind
      intro c _
      apply (looksUp_checkOption sees' step).bind
      intro n _
      exact (looksUp_stmt sees'.child _ body).thenRule fun _ _ => looksUp_pure sees
  | .forEach node binder iterable body => by
      rw [Stmt.check, Stmt.free]
      apply (looksUp_checkValue sees iterable).bind
      intro xs _
      apply LooksUp.afterRule (ordinary_elementType xs).looksUp
      intro element _
      apply LooksUp.afterRule (ordinary_itemType _ _ _).looksUp
      intro type _
      apply LooksUp.afterRule (looksUp_declare sees.child _ _ _)
      intro inner sees'
      exact (looksUp_stmt sees'.child _ body).thenRule fun _ _ => looksUp_pure sees
  | .brk node => by
      rw [Stmt.check, Stmt.free]
      exact (ordinary_loopControl _ _ _).looksUp.afterRule fun _ _ => looksUp_pure sees
  | .cont node => by
      rw [Stmt.check, Stmt.free]
      exact (ordinary_loopControl _ _ _).looksUp.afterRule fun _ _ => looksUp_pure sees
  | .block node stmts => by
      rw [Stmt.check, Stmt.free]
      exact (looksUp_stmts sees.child around stmts).thenRule fun _ _ => looksUp_pure sees
  | .function node written name params body => by
      rw [Stmt.check, Stmt.free]
      apply LooksUp.afterRule (looksUp_declare sees _ _ _)
      intro after sees'
      apply LooksUp.afterRule (looksUp_declareParams sees'.child _ params)
      intro inner sees''
      apply (looksUp_stmts sees'' _ body).thenRule
      intro checked _
      apply LooksUp.afterRule (ordinary_mustReturn _ _ _ _).looksUp
      exact fun _ _ => looksUp_pure sees'

theorem looksUp_branch {bound : List String} {env : TypeEnv} (sees : Sees globals bound env)
    (around : Surroundings) :
    ∀ s : Option (Stmt Unit),
      LooksUp globals (Stmt.freeOption bound s) (Stmt.checkOption around env s)
  | none => looksUp_pure trivial
  | some s => by
      rw [Stmt.checkOption, Stmt.freeOption]
      exact (looksUp_stmt sees.child around s).thenRule fun _ _ => looksUp_pure trivial

theorem looksUp_init {bound : List String} {env : TypeEnv} (sees : Sees globals bound env)
    (around : Surroundings) :
    ∀ s : Option (Stmt Unit),
      LooksUp globals (Stmt.freeOption bound s) (Stmt.checkInit around env s)
        fun checked => Sees globals (Stmt.declaredOption s ++ bound) checked.2
  | none => looksUp_pure sees
  | some s => by
      rw [Stmt.checkInit, Stmt.freeOption]
      exact (looksUp_stmt sees around s).thenRule fun _ sees' => looksUp_pure sees'

theorem looksUp_stmts {bound : List String} {env : TypeEnv} (sees : Sees globals bound env)
    (around : Surroundings) :
    ∀ stmts : List (Stmt Unit),
      LooksUp globals (Stmt.freeAll bound stmts) (Stmt.checkAll around env stmts)
        fun checked => Sees globals (Stmt.boundAfter bound stmts) checked.2
  | [] => looksUp_pure sees
  | s :: rest => by
      rw [Stmt.checkAll, Stmt.freeAll]
      apply (looksUp_stmt sees around s).bind
      intro first sees'
      exact (looksUp_stmts sees' around rest).thenRule fun _ sees'' => looksUp_pure sees''

end

/-! ## Formulas -/

/-- Checking looks up the free names of a formula, and no others from outside. -/
theorem looksUp_program (globals : TypeEnv) (p : Program Unit) :
    LooksUp globals p.free (p.checked globals) := by
  unfold Program.checked Program.free
  apply (looksUp_stmts sees_child_globals .outside p.body).bind
  rintro ⟨body, env⟩ sees
  exact (looksUp_checkOption sees p.tail).thenRule fun _ _ => looksUp_pure trivial

end Formulae.Typing
