import Formulae.Proofs.Tree.Declared
import Formulae.Proofs.Typing.Rules

/-!
# Checking keeps the free names

Checking wraps expressions in casts and reads some literals anew.  It changes no name and no
declaration, so a checked tree has the free names of the tree it was made of
(`Typing.sameNames_program`).
-/

namespace Formulae

open Check

universe u

variable {α β : Type}

namespace Expr

/-- The names used in an expression without being declared. -/
def names (bound : List String) (e : Expr α) : List String :=
  (e.free bound .variable).map Occurrence.name

/-- The names used in several expressions without being declared. -/
def namesAll (bound : List String) (es : List (Expr α)) : List String :=
  (freeAll bound es).map Occurrence.name

/-- The names used in an expression that may be missing without being declared. -/
def namesOption (bound : List String) (e : Option (Expr α)) : List String :=
  (freeOption bound e).map Occurrence.name

theorem notMem_namesOption {bound : List String} {name : String} (declared : name ∈ bound)
    (e : Option (Expr α)) : name ∉ namesOption bound e := by
  intro member
  rcases List.mem_map.mp member with ⟨use, free, rfl⟩
  exact undeclared_of_freeOption e free declared

/-- It makes no difference to the names whether the expression is called. -/
theorem map_name_free (bound : List String) (role : Role) (e : Expr α) :
    (e.free bound role).map Occurrence.name = e.names bound := by
  cases e with
  | ident node name =>
      simp only [names, free, occurrence]
      split <;> rfl
  | _ => rfl

theorem names_binary (bound : List String) (node : Node α) (op : Operator)
    (left right : Expr α) :
    (Expr.binary node op left right).names bound = left.names bound ++ right.names bound :=
  List.map_append

theorem names_index (bound : List String) (node : Node α) (receiver subscript : Expr α) :
    (Expr.index node receiver subscript).names bound =
      receiver.names bound ++ subscript.names bound :=
  List.map_append

theorem names_ternary (bound : List String) (node : Node α)
    (cond thenBranch elseBranch : Expr α) :
    (Expr.ternary node cond thenBranch elseBranch).names bound =
      cond.names bound ++ thenBranch.names bound ++ elseBranch.names bound := by
  simp only [names, free, List.map_append]

theorem names_call (bound : List String) (node : Node α) (callee : Expr α)
    (args : List (Expr α)) :
    (Expr.call node callee args).names bound = callee.names bound ++ namesAll bound args := by
  rw [names, free, List.map_append, map_name_free, namesAll]

theorem namesAll_cons (bound : List String) (e : Expr α) (rest : List (Expr α)) :
    namesAll bound (e :: rest) = e.names bound ++ namesAll bound rest :=
  List.map_append

theorem names_withId (bound : List String) (e : Expr α) (id : Nat) :
    (e.withId id).names bound = e.names bound := by
  cases e with
  | ident node name =>
      simp only [withId, names, free, occurrence]
      split <;> rfl
  | _ => rfl

/-- The second expression uses the same names as the first. -/
def SameNames (e : Expr α) (typed : Expr β) : Prop :=
  ∀ bound, typed.names bound = e.names bound

/-- Several expressions use the same names. -/
def SameNamesAll (es : List (Expr α)) (typed : List (Expr β)) : Prop :=
  ∀ bound, namesAll bound typed = namesAll bound es

/-- Expressions that may be missing use the same names. -/
def SameNamesOption (e : Option (Expr α)) (typed : Option (Expr β)) : Prop :=
  ∀ bound, namesOption bound typed = namesOption bound e

theorem SameNames.trans {γ : Type} {e : Expr α} {e' : Expr β} {e'' : Expr γ}
    (first : e.SameNames e') (second : e'.SameNames e'') : e.SameNames e'' :=
  fun bound => (second bound).trans (first bound)

theorem sameNames_refl (e : Expr α) : e.SameNames e :=
  fun _ => rfl

theorem SameNames.binary {left right : Expr α} {x y : Expr β} (same : left.SameNames x)
    (same' : right.SameNames y) (node : Node α) (node' : Node β) (op op' : Operator) :
    (Expr.binary node op left right).SameNames (.binary node' op' x y) :=
  fun bound => by rw [names_binary, names_binary, same bound, same' bound]

theorem SameNames.index {receiver subscript : Expr α} {x y : Expr β} (same : receiver.SameNames x)
    (same' : subscript.SameNames y) (node : Node α) (node' : Node β) :
    (Expr.index node receiver subscript).SameNames (.index node' x y) :=
  fun bound => by rw [names_index, names_index, same bound, same' bound]

theorem SameNames.ternary {cond thenBranch elseBranch : Expr α} {c x y : Expr β}
    (first : cond.SameNames c) (same : thenBranch.SameNames x) (same' : elseBranch.SameNames y)
    (node : Node α) (node' : Node β) :
    (Expr.ternary node cond thenBranch elseBranch).SameNames (.ternary node' c x y) :=
  fun bound => by rw [names_ternary, names_ternary, first bound, same bound, same' bound]

theorem SameNames.call {callee : Expr α} {args : List (Expr α)} {f : Expr β} {xs : List (Expr β)}
    (same : callee.SameNames f) (same' : SameNamesAll args xs) (node : Node α) (node' : Node β) :
    (Expr.call node callee args).SameNames (.call node' f xs) :=
  fun bound => by rw [names_call, names_call, same bound, same' bound]

theorem SameNames.option {e : Expr α} {x : Expr β} (same : e.SameNames x) :
    SameNamesOption (some e) (some x) :=
  same

theorem SameNames.cons {e : Expr α} {x : Expr β} {rest : List (Expr α)} {xs : List (Expr β)}
    (same : e.SameNames x) (same' : SameNamesAll rest xs) : SameNamesAll (e :: rest) (x :: xs) :=
  fun bound => by rw [namesAll_cons, namesAll_cons, same bound, same' bound]

end Expr

namespace Stmt

/-- The names used in a statement without being declared. -/
def names (bound : List String) (s : Stmt α) : List String :=
  (s.free bound).map Occurrence.name

/-- The names used in a statement that may be missing without being declared. -/
def namesOption (bound : List String) (s : Option (Stmt α)) : List String :=
  (freeOption bound s).map Occurrence.name

/-- The names used in several statements without being declared. -/
def namesAll (bound : List String) (stmts : List (Stmt α)) : List String :=
  (freeAll bound stmts).map Occurrence.name

theorem notMem_namesAll {bound : List String} {name : String} (declared : name ∈ bound)
    (stmts : List (Stmt α)) : name ∉ namesAll bound stmts := by
  intro member
  rcases List.mem_map.mp member with ⟨use, free, rfl⟩
  exact undeclared_of_freeAll stmts free declared

theorem names_ifElse (bound : List String) (node : StmtNode) (cond : Expr α)
    (thenBranch : Stmt α) (elseBranch : Option (Stmt α)) :
    (Stmt.ifElse node cond thenBranch elseBranch).names bound =
      cond.names bound ++ thenBranch.names bound ++ namesOption bound elseBranch := by
  simp only [names, free, List.map_append, Expr.names, namesOption]

theorem names_whileLoop (bound : List String) (node : StmtNode) (cond : Expr α) (body : Stmt α) :
    (Stmt.whileLoop node cond body).names bound = cond.names bound ++ body.names bound :=
  List.map_append

theorem names_doWhile (bound : List String) (node : StmtNode) (body : Stmt α) (cond : Expr α) :
    (Stmt.doWhile node body cond).names bound = body.names bound ++ cond.names bound :=
  List.map_append

theorem names_forLoop (bound : List String) (node : StmtNode) (init : Option (Stmt α))
    (cond step : Option (Expr α)) (body : Stmt α) :
    (Stmt.forLoop node init cond step body).names bound =
      namesOption bound init ++ Expr.namesOption (declaredOption init ++ bound) cond ++
        Expr.namesOption (declaredOption init ++ bound) step ++
        body.names (declaredOption init ++ bound) := by
  simp only [names, free, List.map_append, Expr.namesOption, namesOption]

theorem names_forEach (bound : List String) (node : StmtNode) (binder : Binder)
    (iterable : Expr α) (body : Stmt α) :
    (Stmt.forEach node binder iterable body).names bound =
      iterable.names bound ++ body.names (binder.name :: bound) :=
  List.map_append

theorem namesAll_cons (bound : List String) (s : Stmt α) (rest : List (Stmt α)) :
    namesAll bound (s :: rest) = s.names bound ++ namesAll (s.declared ++ bound) rest :=
  List.map_append

/-- The second statement declares and uses the same names as the first. -/
structure SameNames (s : Stmt α) (typed : Stmt β) : Prop where
  declared : typed.declared = s.declared
  names : ∀ bound, typed.names bound = s.names bound

/-- Statements that may be missing declare and use the same names. -/
structure SameNamesOption (s : Option (Stmt α)) (typed : Option (Stmt β)) : Prop where
  declared : declaredOption typed = declaredOption s
  names : ∀ bound, namesOption bound typed = namesOption bound s

/-- Several statements declare and use the same names. -/
structure SameNamesAll (stmts : List (Stmt α)) (typed : List (Stmt β)) : Prop where
  boundAfter : ∀ bound, boundAfter bound typed = boundAfter bound stmts
  names : ∀ bound, namesAll bound typed = namesAll bound stmts

end Stmt

/-- The free names of a formula. -/
def Program.names (p : Program α) : List String :=
  p.free.map Occurrence.name

theorem Program.names_eq (p : Program α) : p.names =
    Stmt.namesAll [] p.body ++ Expr.namesOption (Stmt.boundAfter [] p.body) p.tail :=
  List.map_append

namespace Typing

open Expr

/-! ## Rules -/

theorem sameNames_calendarLiteral {e literal : TypedExpr}
    (isLiteral : calendarLiteral? e = some literal) : e.SameNames literal := by
  unfold calendarLiteral? at isLiteral
  split at isLiteral
  · rcases Option.map_eq_some_iff.mp isLiteral with ⟨value, -, rfl⟩
    exact fun _ => rfl
  · cases isLiteral

theorem Reads.sameNames {e read : TypedExpr} (reads : Reads e read) : e.SameNames read := by
  rcases reads with rfl | literal
  · exact sameNames_refl read
  · exact sameNames_calendarLiteral literal

theorem sameNames_insertCast (target : Ty) (e : TypedExpr) :
    Meets (insertCast target e) e.SameNames fun _ => True := by
  unfold insertCast
  split
  · exact meets_fail trivial
  · apply (meets_rule _).bind
    intro moved _
    apply (meets_rule _).bind
    intro literal _
    apply meets_pure
    intro bound
    rw [names_binary, names_withId]
    exact List.append_nil _

theorem sameNames_coerce (fit : Fit) (target : Ty) (e : TypedExpr) :
    Meets (coerce fit target e) e.SameNames fun _ => True := by
  have read := (reads_readFor target e).sameNames
  have wrapped : Meets (insertCast target (readFor target e)) e.SameNames fun _ => True :=
    (sameNames_insertCast target _).mono (fun _ => read.trans) fun _ => id
  simp only [coerce]
  split
  · split
    · exact wrapped
    · exact meets_pure read
  · split
    · exact wrapped
    · exact meets_fail trivial

theorem sameNames_widen (target : Ty) (e : TypedExpr) :
    Meets (widen target e) e.SameNames fun _ => True := by
  unfold widen
  split
  · exact sameNames_insertCast target e
  · exact meets_pure (sameNames_refl e)

theorem sameNames_requireValue (e : TypedExpr) :
    Meets (requireValue e) e.SameNames fun _ => True := by
  unfold requireValue
  split
  · exact meets_fail trivial
  · exact meets_pure (sameNames_refl e)

theorem sameNames_mapM_widen (target : Ty) (items : List TypedExpr) :
    Meets (items.mapM (widen target)) (SameNamesAll items) fun _ => True := by
  induction items with
  | nil => exact meets_pure fun _ => rfl
  | cons e rest inductionHypothesis =>
      rw [List.mapM_cons]
      apply (sameNames_widen target e).bind
      intro x same
      apply inductionHypothesis.bind
      exact fun xs same' => meets_pure (same.cons same')

/-- A value that is looked at once it is known to be one. -/
theorem sameNames_value {γ : Type} {e : Expr Unit} {x : Check TypedExpr} {f : TypedExpr → Check γ}
    {result : γ → Prop} (first : Meets x e.SameNames fun _ => True)
    (second : ∀ value, e.SameNames value → Meets (f value) result fun _ => True) :
    Meets (x >>= fun typed => requireValue typed >>= f) result fun _ => True := by
  apply first.bind
  intro typed same
  apply (sameNames_requireValue typed).bind
  exact fun value same' => second value (same.trans same')

theorem sameNames_unary (node : Bare) (op : Operator) {e : Expr Unit} {operand : TypedExpr}
    (same : e.SameNames operand) :
    Meets (unary node op operand) (Expr.unary node op e).SameNames fun _ => True := by
  unfold unary
  split
  · exact meets_pure same
  · exact meets_fail trivial

section

variable {left right : Expr Unit} {x y : TypedExpr}

theorem sameNames_binary (node : Bare) (op : Operator) (same : left.SameNames x)
    (same' : right.SameNames y) :
    Meets (binary node op x y) (Expr.binary node op left right).SameNames fun _ => True := by
  have read := (reads_operands op x y).imp Reads.sameNames Reads.sameNames
  unfold binary
  dsimp only
  split
  · exact meets_pure ((same.trans read.1).binary (same'.trans read.2) _ _ _ _)
  · exact meets_fail trivial

theorem sameNames_cast (node literal : Bare) (written : TypeExpr) (same : left.SameNames x) :
    Meets (cast node literal written x)
      (Expr.binary node .typeCast left (.typeLiteral literal written)).SameNames fun _ => True := by
  simp only [cast]
  split
  · have read := (reads_readFor (Ty.ofExpr written) x).sameNames
    exact meets_pure ((same.trans read).binary (fun _ => rfl) _ _ _ _)
  · exact meets_fail trivial

theorem sameNames_assignable (node : Bare) (target : TypedExpr) :
    Meets (assignable node target) target.SameNames fun _ => True := by
  unfold assignable
  split
  · exact meets_fail trivial
  · exact meets_pure (sameNames_refl target)

theorem sameNames_assignment (node : Bare) (op : Operator) (same : left.SameNames x)
    (same' : right.SameNames y) :
    Meets (assignment node op x y) (Expr.binary node op left right).SameNames fun _ => True := by
  unfold assignment
  split
  · unfold assign
    apply (sameNames_coerce .accepted _ y).bind
    exact fun z coerced => meets_pure (same.binary (same'.trans coerced) _ _ _ _)
  · simp only [compoundAssign]
    split
    · exact meets_fail trivial
    · split
      · exact meets_pure (same.binary (same'.trans (reads_compoundOperand _ _ y).sameNames) _ _ _ _)
      · exact meets_fail trivial

theorem sameNames_ternary (node : Bare) {cond : Expr Unit} {c : TypedExpr}
    (first : cond.SameNames c) (same : left.SameNames x) (same' : right.SameNames y) :
    Meets (ternary node c x y) (Expr.ternary node cond left right).SameNames fun _ => True := by
  simp only [ternary]
  split
  · exact meets_pure (first.ternary same same' _ _)
  · split
    · apply (sameNames_widen _ y).bind
      exact fun z widened => meets_pure (first.ternary same (same'.trans widened) _ _)
    · split
      · apply (sameNames_widen _ x).bind
        exact fun z widened => meets_pure (first.ternary (same.trans widened) same' _ _)
      · exact meets_pure (first.ternary same same' _ _)

theorem sameNames_index (node : Bare) (same : left.SameNames x) (same' : right.SameNames y) :
    Meets (index node x y) (Expr.index node left right).SameNames fun _ => True := by
  unfold index
  split
  · split
    · exact meets_pure (same.index same' _ _)
    · exact meets_fail trivial
  · exact meets_fail trivial

theorem sameNames_array (node : Bare) {items : List (Expr Unit)} {xs : List TypedExpr}
    (same : SameNamesAll items xs) :
    Meets (array node xs) (Expr.array node items).SameNames fun _ => True := by
  simp only [array]
  apply (sameNames_mapM_widen _ xs).bind
  exact fun ys widened => meets_pure fun bound => (widened bound).trans (same bound)

theorem sameNames_argument (signature : Signature) (name : String) (position : Nat)
    (same : left.SameNames x) :
    Meets (argument signature name position x) left.SameNames fun _ => True := by
  unfold argument
  split
  · exact (sameNames_coerce _ _ x).mono (fun _ => same.trans) fun _ => id
  · exact meets_fail trivial

theorem sameNames_call (node : Bare) (signature : Signature) (name : String)
    {args : List (Expr Unit)} {xs : List TypedExpr} (same : left.SameNames x)
    (same' : SameNamesAll args xs) :
    Meets (call node signature name x xs) (Expr.call node left args).SameNames fun _ => True := by
  simp only [call]
  split
  · exact meets_pure (same.call same' _ _)
  · exact meets_fail trivial

end

/-! ## Expressions -/

variable (env : TypeEnv)

mutual

theorem sameNames_expr : ∀ e : Expr Unit, Meets (e.check env) e.SameNames fun _ => True
  | .ident node name => by
      rw [Expr.check]
      unfold ident
      split
      · apply meets_pure
        intro bound
        simp only [names, Expr.free, occurrence]
        split <;> rfl
      · exact meets_fail trivial
  | .constant _ _ | .typeLiteral _ _ => meets_pure fun _ => rfl
  | .unary node op operand => by
      rw [Expr.check]
      exact sameNames_value (sameNames_expr operand) fun _ same => sameNames_unary node op same
  | .binary node op left right => by
      rw [Expr.check.eq_def]
      dsimp only
      split
      · next isCast =>
          subst isCast
          split
          · exact sameNames_value (sameNames_expr left) fun _ same => sameNames_cast node _ _ same
          · exact meets_fail trivial
      · split
        · split
          · apply sameNames_value (sameNames_expr left)
            intro x same
            apply (sameNames_assignable node x).bind
            intro target same'
            exact sameNames_value (sameNames_expr right) fun _ =>
              sameNames_assignment node op (same.trans same')
          · exact meets_fail trivial
        · apply sameNames_value (sameNames_expr left)
          intro x same
          exact sameNames_value (sameNames_expr right) fun _ => sameNames_binary node op same
  | .ternary node cond thenBranch elseBranch => by
      rw [Expr.check]
      apply sameNames_value (sameNames_expr cond)
      intro c first
      apply sameNames_value (sameNames_expr thenBranch)
      intro x same
      exact sameNames_value (sameNames_expr elseBranch) fun _ =>
        sameNames_ternary node first same
  | .call node callee args => by
      rw [Expr.check]
      apply sameNames_value (sameNames_expr callee)
      intro f same
      split
      · split
        · exact (sameNames_args _ _ 0 args).bind fun xs same' =>
            sameNames_call node _ _ same same'
        · exact meets_fail trivial
      · split
        · exact (sameNames_exprs args).bind fun xs same' => meets_pure (same.call same' _ _)
        · exact meets_fail trivial
  | .array node items => by
      rw [Expr.check]
      exact (sameNames_exprs items).bind fun xs same => sameNames_array node same
  | .index node receiver subscript => by
      rw [Expr.check]
      apply sameNames_value (sameNames_expr receiver)
      intro x same
      exact sameNames_value (sameNames_expr subscript) fun _ => sameNames_index node same

theorem sameNames_exprs : ∀ es : List (Expr Unit),
    Meets (Expr.checkAll env es) (SameNamesAll es) fun _ => True
  | [] => meets_pure fun _ => rfl
  | e :: rest => by
      rw [Expr.checkAll]
      apply sameNames_value (sameNames_expr e)
      intro x same
      exact (sameNames_exprs rest).bind fun xs same' => meets_pure (same.cons same')

theorem sameNames_args (signature : Signature) (name : String) :
    ∀ (position : Nat) (es : List (Expr Unit)),
      Meets (Expr.checkArgs env signature name position es) (SameNamesAll es) fun _ => True
  | _, [] => meets_pure fun _ => rfl
  | position, e :: rest => by
      rw [Expr.checkArgs]
      apply sameNames_value (sameNames_expr e)
      intro x same
      apply (sameNames_argument signature name position same).bind
      intro y same'
      exact (sameNames_args signature name (position + 1) rest).bind fun ys same'' =>
        meets_pure (same'.cons same'')

end

/-! ## Statements -/

theorem sameNames_checkValue (e : Expr Unit) :
    Meets (e.checkValue env) e.SameNames fun _ => True := by
  apply (sameNames_expr env e).bind
  exact fun x same => (sameNames_requireValue x).mono (fun _ => same.trans) fun _ => id

theorem sameNames_checkValueOption : ∀ e : Option (Expr Unit),
    Meets (Expr.checkValueOption env e) (Expr.SameNamesOption e) fun _ => True
  | none => meets_pure fun _ => rfl
  | some e => (sameNames_checkValue env e).bind fun _ same => meets_pure same.option

theorem sameNames_checkOption : ∀ e : Option (Expr Unit),
    Meets (Expr.checkOption env e) (Expr.SameNamesOption e) fun _ => True
  | none => meets_pure fun _ => rfl
  | some e => (sameNames_expr env e).bind fun _ same => meets_pure same.option

theorem sameNames_initial {e : Expr Unit} {value : TypedExpr} (same : e.SameNames value) :
    ∀ written : Option TypeExpr,
      Meets (initial written value) (fun typed => e.SameNames typed.1) fun _ => True
  | none => meets_pure same
  | some _ => (sameNames_coerce _ _ value).bind fun _ coerced => meets_pure (same.trans coerced)

theorem sameNames_returned {e : Expr Unit} {value : TypedExpr} (same : e.SameNames value)
    (expected : Option Ty) : Meets (returned expected value) e.SameNames fun _ => True := by
  cases expected with
  | none => exact meets_pure same
  | some _ => exact (sameNames_coerce _ _ value).mono (fun _ => same.trans) fun _ => id

mutual

theorem sameNames_stmt (around : Surroundings) (env : TypeEnv) : ∀ s : Stmt Unit,
    Meets (s.check around env) (fun typed => s.SameNames typed.1) fun _ => True
  | .expr node e => by
      rw [Stmt.check]
      exact (sameNames_expr env e).bind fun _ same => meets_pure ⟨rfl, same⟩
  | .varDecl node binder init => by
      rw [Stmt.check]
      apply (sameNames_checkValue env init).bind
      intro value same
      apply (sameNames_initial same binder.type).bind
      intro typed same'
      exact (meets_rule _).bind fun _ _ => meets_pure ⟨rfl, same'⟩
  | .ret node none => by
      rw [Stmt.check]
      exact (meets_rule _).bind fun _ _ => meets_pure ⟨rfl, fun _ => rfl⟩
  | .ret node (some e) => by
      rw [Stmt.check]
      apply (sameNames_checkValue env e).bind
      intro value same
      exact (sameNames_returned same around.returns).bind fun _ same' => meets_pure ⟨rfl, same'⟩
  | .ifElse node cond thenBranch elseBranch => by
      rw [Stmt.check]
      apply (sameNames_checkValue env cond).bind
      intro c same
      apply (sameNames_stmt around env.child thenBranch).bind
      rintro ⟨x, _⟩ thenSame
      apply (sameNames_branch around env elseBranch).bind
      intro y elseSame
      refine meets_pure ⟨rfl, fun bound => ?_⟩
      rw [Stmt.names_ifElse, Stmt.names_ifElse, same bound, thenSame.names, elseSame.names]
  | .whileLoop node cond body => by
      rw [Stmt.check]
      apply (sameNames_checkValue env cond).bind
      intro c same
      apply (sameNames_stmt around.loopBody env.child body).bind
      rintro ⟨x, _⟩ bodySame
      refine meets_pure ⟨rfl, fun bound => ?_⟩
      rw [Stmt.names_whileLoop, Stmt.names_whileLoop, same bound, bodySame.names]
  | .doWhile node body cond => by
      rw [Stmt.check]
      apply (sameNames_checkValue env cond).bind
      intro c same
      apply (sameNames_stmt around.loopBody env.child body).bind
      rintro ⟨x, _⟩ bodySame
      refine meets_pure ⟨rfl, fun bound => ?_⟩
      rw [Stmt.names_doWhile, Stmt.names_doWhile, same bound, bodySame.names]
  | .forLoop node init cond step body => by
      rw [Stmt.check]
      apply (sameNames_init around env.child init).bind
      rintro ⟨i, inner⟩ initSame
      apply (sameNames_checkValueOption inner cond).bind
      intro c condSame
      apply (sameNames_checkOption inner step).bind
      intro n stepSame
      apply (sameNames_stmt around.loopBody inner.child body).bind
      rintro ⟨x, _⟩ bodySame
      refine meets_pure ⟨rfl, fun bound => ?_⟩
      rw [Stmt.names_forLoop, Stmt.names_forLoop, initSame.declared, initSame.names,
        condSame, stepSame, bodySame.names]
  | .forEach node binder iterable body => by
      rw [Stmt.check]
      apply (sameNames_checkValue env iterable).bind
      intro xs same
      apply (meets_rule _).bind
      intro element _
      apply (meets_rule _).bind
      intro type _
      apply (meets_rule _).bind
      intro inner _
      apply (sameNames_stmt around.loopBody inner.child body).bind
      rintro ⟨x, _⟩ bodySame
      refine meets_pure ⟨rfl, fun bound => ?_⟩
      rw [Stmt.names_forEach, Stmt.names_forEach, same bound, bodySame.names]
  | .brk node | .cont node => by
      rw [Stmt.check]
      exact (meets_rule _).bind fun _ _ => meets_pure ⟨rfl, fun _ => rfl⟩
  | .block node stmts => by
      rw [Stmt.check]
      exact (sameNames_stmts around env.child stmts).bind fun _ same =>
        meets_pure ⟨rfl, same.names⟩
  | .function node written name params body => by
      rw [Stmt.check]
      apply (meets_rule _).bind
      intro after _
      apply (meets_rule _).bind
      intro inner _
      apply (sameNames_stmts (.functionBody (Ty.ofExpr written)) inner body).bind
      rintro ⟨typed, _⟩ same
      exact (meets_rule _).bind fun _ _ => meets_pure ⟨rfl, fun _ => same.names _⟩

theorem sameNames_branch (around : Surroundings) (env : TypeEnv) : ∀ s : Option (Stmt Unit),
    Meets (Stmt.checkOption around env s) (Stmt.SameNamesOption s) fun _ => True
  | none => meets_pure ⟨rfl, fun _ => rfl⟩
  | some s => by
      rw [Stmt.checkOption]
      exact (sameNames_stmt around env.child s).bind fun _ same =>
        meets_pure ⟨same.declared, same.names⟩

theorem sameNames_init (around : Surroundings) (env : TypeEnv) : ∀ s : Option (Stmt Unit),
    Meets (Stmt.checkInit around env s) (fun typed => Stmt.SameNamesOption s typed.1)
      fun _ => True
  | none => meets_pure ⟨rfl, fun _ => rfl⟩
  | some s => by
      rw [Stmt.checkInit]
      exact (sameNames_stmt around env s).bind fun _ same =>
        meets_pure ⟨same.declared, same.names⟩

theorem sameNames_stmts (around : Surroundings) (env : TypeEnv) : ∀ stmts : List (Stmt Unit),
    Meets (Stmt.checkAll around env stmts) (fun typed => Stmt.SameNamesAll stmts typed.1)
      fun _ => True
  | [] => meets_pure ⟨fun _ => rfl, fun _ => rfl⟩
  | s :: rest => by
      rw [Stmt.checkAll]
      apply (sameNames_stmt around env s).bind
      rintro ⟨first, inner⟩ same
      apply (sameNames_stmts around inner rest).bind
      rintro ⟨others, _⟩ same'
      apply meets_pure
      constructor
      · intro bound
        have first : first.declared ++ bound = s.declared ++ bound := by rw [same.declared]
        exact (same'.boundAfter _).trans (congrArg (Stmt.boundAfter · rest) first)
      · intro bound
        rw [Stmt.namesAll_cons, Stmt.namesAll_cons, same.names, same.declared, same'.names]

end

/-- A checked formula has the free names of the formula. -/
theorem sameNames_program (globals : TypeEnv) (p : Program Unit) :
    Meets (p.checked globals)
      (fun q => q.names = p.names) fun _ => True := by
  apply (sameNames_stmts .outside globals.child p.body).bind
  rintro ⟨body, env⟩ same
  apply (sameNames_checkOption env p.tail).bind
  intro tail same'
  apply meets_pure
  rw [Program.names_eq, Program.names_eq, same.names, same.boundAfter, same']

end Typing

end Formulae
