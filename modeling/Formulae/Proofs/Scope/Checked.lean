import Formulae.Proofs.Scope.Meaning
import Formulae.Proofs.Typing.Rules
import Formulae.Tree.Basic

/-!
# Checking and meanings

The meaning of a name is the binding that checking found for it: the environment in
which an expression is checked binds the names that are declared in its scopes, with
the types of their declarations (`Scope.Models`).  So in a checked formula the type of
each use of a name is that of the declaration it means, and only variables that are
not final are assigned to (`Program.resolutions_checked`).
-/

namespace Formulae

open Check Typing

variable {globals env : TypeEnv} {hosts : String → Bool} {scope : Scope}

/-- The type of a use is that of what it means, and it is not final if the use is the
target of an assignment. -/
structure Resolution.Checked (globals : TypeEnv) (hosts : String → Bool) (r : Resolution) :
    Prop where
  type :
    match r.meaning with
    | .declared declaration =>
        declaration.name = r.use.name ∧ declaration.type = r.use.node.label
    | .host =>
        hosts r.use.name = true ∧ nameType? globals r.use.name = some r.use.node.label
    | .builtin =>
        hosts r.use.name = false ∧ nameType? globals r.use.name = some r.use.node.label
  writable : r.use.usage = .target → r.use.node.label.isFinal = false

/-- The environment binds the names declared in the scopes, and beyond them those bound
from outside. -/
def Scope.Models (globals : TypeEnv) (scope : Scope) (env : TypeEnv) : Prop :=
  ∀ name, env.lookup name =
    ((scope.declaration? name).map Declaration.type).or (globals.lookup name)

namespace Scope

/-! ## Scopes and environments -/

theorem name_of_declaration? {name : String} {declaration : Declaration} :
    ∀ {scope : Scope}, scope.declaration? name = some declaration → declaration.name = name
  | [], found => nomatch found
  | frame :: outer, found => by
      rw [declaration?, Option.or_eq_some_iff] at found
      rcases found with here | ⟨_, further⟩
      · exact Declaration.name_of_find? here
      · exact name_of_declaration? further

theorem declaration?_capture (scope : Scope) (name : String) :
    scope.capture.declaration? name = scope.declaration? name := by
  induction scope with
  | nil => rfl
  | cons frame outer inductionHypothesis =>
      exact congrArg ((Declaration.find? frame.seen name).or ·) inductionHypothesis

theorem declaration?_declare {frame : ScopeFrame} {outer : Scope} (declaration : Declaration)
    (name : String) :
    (declare declaration (frame :: outer)).declaration? name =
      if declaration.name = name then some declaration
      else declaration? name (frame :: outer) := by
  simp only [declare, declaration?, Declaration.find?_cons]
  by_cases same : declaration.name = name
  · simp only [if_pos same, Option.some_or]
  · simp only [if_neg same]

theorem Models.child (models : scope.Models globals env) : scope.Models globals env.child := by
  intro name
  rw [TypeEnv.lookup_child]
  exact models name

theorem Models.enter (models : scope.Models globals env) (declarations : List Declaration) :
    (scope.enter declarations).Models globals env :=
  models

theorem Models.capture (models : scope.Models globals env) :
    scope.capture.Models globals env := by
  intro name
  rw [declaration?_capture]
  exact models name

theorem Models.declare (models : scope.Models globals env) (inside : scope ≠ [])
    (declaration : Declaration) :
    (scope.declare declaration).Models globals (env.bind declaration.name declaration.type) := by
  intro name
  cases scope with
  | nil => exact absurd rfl inside
  | cons frame outer =>
      rw [declaration?_declare]
      by_cases same : declaration.name = name
      · subst same
        simp [TypeEnv.lookup_bind_self]
      · rw [TypeEnv.lookup_bind_of_ne _ _ (Ne.symm same), if_neg same]
        exact models name

end Scope

/-! ## Expressions -/

/-- The uses of names in the expression are checked, however it is used. -/
def Expr.UsesChecked (globals : TypeEnv) (hosts : String → Bool) (scope : Scope)
    (e : TypedExpr) : Prop :=
  ∀ usage, (usage = .target → e.label.isFinal = false) →
    ∀ r ∈ e.resolutions hosts scope usage, r.Checked globals hosts

/-- The uses of names in the expressions are checked. -/
def Expr.UsesCheckedAll (globals : TypeEnv) (hosts : String → Bool) (scope : Scope)
    (es : List TypedExpr) : Prop :=
  ∀ r ∈ Expr.resolutionsAll hosts scope es, r.Checked globals hosts

namespace Expr

theorem UsesChecked.value {e : TypedExpr} (checked : e.UsesChecked globals hosts scope) :
    ∀ r ∈ e.resolutions hosts scope .value, r.Checked globals hosts :=
  checked .value nofun

theorem usesChecked_constant (node : Node Ty) (value : Constant) :
    (Expr.constant node value).UsesChecked globals hosts scope :=
  fun _ _ _ member => nomatch member

theorem UsesChecked.withId {e : TypedExpr} (checked : e.UsesChecked globals hosts scope)
    (id : Nat) : (e.withId id).UsesChecked globals hosts scope := by
  cases e with
  | ident node name =>
      intro usage writable r member
      cases List.mem_singleton.mp member
      have same := checked usage writable _ (List.mem_singleton_self _)
      exact ⟨same.type, same.writable⟩
  | _ => exact checked

theorem usesChecked_cast {e : TypedExpr} (checked : e.UsesChecked globals hosts scope)
    (node literal : Node Ty) (written : TypeExpr) :
    (Expr.binary node .typeCast e (.typeLiteral literal written)).UsesChecked globals hosts
      scope := by
  intro usage _ r member
  rw [resolutions, List.mem_append] at member
  exact member.elim (checked.value r) nofun

theorem usesChecked_of_calendarLiteral {e literal : TypedExpr}
    (reads : calendarLiteral? e = some literal) :
    literal.UsesChecked globals hosts scope := by
  unfold calendarLiteral? at reads
  split at reads
  · rcases Option.map_eq_some_iff.mp reads with ⟨value, _, rfl⟩
    exact usesChecked_constant _ _
  · cases reads

theorem usesCheckedAll_cons {e : TypedExpr} {rest : List TypedExpr} :
    UsesCheckedAll globals hosts scope (e :: rest) ↔
      (∀ r ∈ e.resolutions hosts scope .value, r.Checked globals hosts) ∧
        UsesCheckedAll globals hosts scope rest := by
  simp only [UsesCheckedAll, resolutionsAll, List.mem_append, or_imp, forall_and]

theorem usesCheckedAll_of_forall {es : List TypedExpr}
    (checked : ∀ e ∈ es, e.UsesChecked globals hosts scope) :
    UsesCheckedAll globals hosts scope es := by
  induction es with
  | nil => exact nofun
  | cons e rest inductionHypothesis =>
      rw [List.forall_mem_cons] at checked
      exact usesCheckedAll_cons.mpr ⟨checked.1.value, inductionHypothesis checked.2⟩

end Expr

namespace Typing

open Expr

/-- The check ends with an expression in which the uses of names are checked, or with
any error. -/
abbrev Checks (globals : TypeEnv) (hosts : String → Bool) (scope : Scope) (x : Check TypedExpr) :
    Prop :=
  Meets x (UsesChecked globals hosts scope) fun _ => True

theorem checks_ident (models : scope.Models globals env) (node : Bare) (name : String) :
    Checks globals hosts scope (ident env node name) := by
  unfold ident
  cases found : nameType? env name with
  | none => exact meets_fail trivial
  | some type =>
      apply meets_pure
      intro usage writable r member
      cases List.mem_singleton.mp member
      refine ⟨?_, writable⟩
      rw [nameType?, models name] at found
      dsimp only [Scope.meaning]
      cases declared : scope.declaration? name with
      | some declaration =>
          rw [declared] at found
          exact ⟨Scope.name_of_declaration? declared, Option.some.inj found⟩
      | none =>
          rw [declared] at found
          cases hosts name with
          | true => exact ⟨rfl, found⟩
          | false => exact ⟨rfl, found⟩

/-! ## Rules keep what is checked -/

section

variable {e left right : TypedExpr} (checked : e.UsesChecked globals hosts scope)
  (leftChecked : left.UsesChecked globals hosts scope)
  (rightChecked : right.UsesChecked globals hosts scope)

include checked in
theorem usesChecked_of_reads {read : TypedExpr} (reads : Reads e read) :
    read.UsesChecked globals hosts scope := by
  rcases reads with rfl | literal
  · exact checked
  · exact usesChecked_of_calendarLiteral literal

include checked in
theorem checks_insertCast (target : Ty) : Checks globals hosts scope (insertCast target e) := by
  unfold insertCast
  split
  · exact meets_fail trivial
  · apply Meets.bind (meets_fresh (fun _ => trivial))
    intro moved _
    apply Meets.bind (meets_fresh (fun _ => trivial))
    intro literal _
    exact meets_pure (usesChecked_cast (checked.withId moved) _ _ _)

include checked in
theorem checks_coerce (fit : Fit) (target : Ty) :
    Checks globals hosts scope (coerce fit target e) := by
  have read := usesChecked_of_reads checked (reads_readFor target e)
  simp only [coerce]
  split
  · split
    · exact checks_insertCast read target
    · exact meets_pure read
  · split
    · exact checks_insertCast read target
    · exact meets_fail trivial

include checked in
theorem checks_widen (target : Ty) : Checks globals hosts scope (widen target e) := by
  unfold widen
  split
  · exact checks_insertCast checked target
  · exact meets_pure checked

include checked in
theorem checks_requireValue : Checks globals hosts scope (requireValue e) := by
  unfold requireValue
  split
  · exact meets_fail trivial
  · exact meets_pure checked

include checked in
theorem checks_unary (node : Bare) (op : Operator) :
    Checks globals hosts scope (unary node op e) := by
  unfold unary
  split
  · exact meets_pure fun _ _ => checked.value
  · exact meets_fail trivial

include leftChecked rightChecked in
theorem checks_binary (node : Bare) {op : Operator} (plain : op.isAssignment = false) :
    Checks globals hosts scope (binary node op left right) := by
  rcases reads_operands op left right with ⟨readsLeft, readsRight⟩
  have first := usesChecked_of_reads leftChecked readsLeft
  have second := usesChecked_of_reads rightChecked readsRight
  unfold binary
  dsimp only
  split
  · apply meets_pure
    intro usage _ r member
    rw [resolutions, plain, List.mem_append] at member
    exact member.elim (first.value r) (second.value r)
  · exact meets_fail trivial

include checked in
theorem checks_cast (node literal : Bare) (written : TypeExpr) :
    Checks globals hosts scope (cast node literal written e) := by
  simp only [cast]
  split
  · exact meets_pure (usesChecked_cast (usesChecked_of_reads checked (reads_readFor _ e)) _ _ _)
  · exact meets_fail trivial

include leftChecked rightChecked in
theorem usesChecked_assignment {op : Operator} (assigns : op.isAssignment)
    (writable : left.label.isFinal = false) (node : Node Ty) :
    (Expr.binary node op left right).UsesChecked globals hosts scope := by
  intro usage _ r member
  rw [resolutions, assigns, List.mem_append] at member
  exact member.elim (leftChecked .target (fun _ => writable) r) (rightChecked.value r)

include leftChecked rightChecked in
theorem checks_assignment {op : Operator} (assigns : op.isAssignment)
    (writable : left.label.isFinal = false) (node : Bare) :
    Checks globals hosts scope (assignment node op left right) := by
  unfold assignment
  split
  · apply (checks_coerce rightChecked _ _).bind
    intro value valueChecked
    exact meets_pure (usesChecked_assignment leftChecked valueChecked rfl writable _)
  · simp only [compoundAssign]
    split
    · exact meets_fail trivial
    · split
      · apply meets_pure
        exact usesChecked_assignment leftChecked (usesChecked_of_reads rightChecked
          (reads_compoundOperand _ _ right))
          assigns writable _
      · exact meets_fail trivial

include checked leftChecked rightChecked in
theorem checks_ternary (node : Bare) : Checks globals hosts scope (ternary node e left right) := by
  have joined {x y : TypedExpr} (first : x.UsesChecked globals hosts scope)
      (second : y.UsesChecked globals hosts scope) (node : Node Ty) :
      (Expr.ternary node e x y).UsesChecked globals hosts scope := by
    intro usage _ r member
    rw [resolutions, List.mem_append, List.mem_append] at member
    rcases member with (member | member) | member
    · exact checked.value r member
    · exact first.value r member
    · exact second.value r member
  simp only [ternary]
  split
  · exact meets_pure (joined leftChecked rightChecked _)
  · split
    · apply (checks_widen rightChecked _).bind
      exact fun value valueChecked => meets_pure (joined leftChecked valueChecked _)
    · split
      · apply (checks_widen leftChecked _).bind
        exact fun value valueChecked => meets_pure (joined valueChecked rightChecked _)
      · exact meets_pure (joined leftChecked rightChecked _)

theorem isFinal_of_element? {receiver subscript type : Ty}
    (found : Ty.binaryResult? .index receiver subscript = some type) :
    type.isFinal = receiver.isFinal := by
  have taken : receiver.element? subscript = some type := by
    unfold Ty.binaryResult? at found
    split at found
    · cases found
    · exact found
  unfold Ty.element? at taken
  split at taken <;> cases taken
  · next element _ _ _ => cases element <;> rfl
  · next element _ _ _ => cases element <;> rfl
  · rfl
  · rfl

include leftChecked rightChecked in
theorem checks_index (node : Bare) : Checks globals hosts scope (index node left right) := by
  unfold index
  split
  · split
    · next type found =>
        apply meets_pure
        intro usage writable r member
        rw [resolutions, List.mem_append] at member
        rcases member with member | member
        · apply leftChecked usage.ofArray ?_ r member
          intro isTarget
          cases usage with
          | target => exact (isFinal_of_element? found).symm.trans (writable rfl)
          | value | callee => cases isTarget
        · exact rightChecked.value r member
    · exact meets_fail trivial
  · exact meets_fail trivial

include checked in
theorem checks_argument (signature : Signature) (name : String) (position : Nat) :
    Checks globals hosts scope (argument signature name position e) := by
  unfold argument
  split
  · exact checks_coerce checked _ _
  · exact meets_fail trivial

end

theorem meets_mapM_widen (type : Ty) {es : List TypedExpr}
    (checked : ∀ e ∈ es, e.UsesChecked globals hosts scope) :
    Meets (es.mapM (widen type)) (UsesCheckedAll globals hosts scope) fun _ => True := by
  induction es with
  | nil => exact meets_pure nofun
  | cons e rest inductionHypothesis =>
      rw [List.mapM_cons]
      apply (checks_widen (checked e List.mem_cons_self) type).bind
      intro first firstChecked
      apply (inductionHypothesis fun e member => checked e (List.mem_cons_of_mem _ member)).bind
      intro others othersChecked
      exact meets_pure (usesCheckedAll_cons.mpr ⟨firstChecked.value, othersChecked⟩)

theorem checks_array (node : Bare) {items : List TypedExpr}
    (checked : ∀ e ∈ items, e.UsesChecked globals hosts scope) :
    Checks globals hosts scope (array node items) := by
  simp only [array]
  apply (meets_mapM_widen _ checked).bind
  exact fun items' itemsChecked => meets_pure fun _ _ => itemsChecked

theorem usesChecked_call {callee : TypedExpr} {args : List TypedExpr}
    (calleeChecked : callee.UsesChecked globals hosts scope)
    (argsChecked : UsesCheckedAll globals hosts scope args) (node : Node Ty) :
    (Expr.call node callee args).UsesChecked globals hosts scope := by
  intro usage _ r member
  rw [resolutions, List.mem_append] at member
  exact member.elim (calleeChecked .callee nofun r) (argsChecked r)

theorem checks_call (node : Bare) (signature : Signature) (name : String) {callee : TypedExpr}
    {args : List TypedExpr} (calleeChecked : callee.UsesChecked globals hosts scope)
    (argsChecked : UsesCheckedAll globals hosts scope args) :
    Checks globals hosts scope (call node signature name callee args) := by
  simp only [call]
  split
  · exact meets_pure (usesChecked_call calleeChecked argsChecked _)
  · exact meets_fail trivial

/-! ## Expressions -/

/-- Checked expressions that have values, taken up by a rule. -/
theorem Checks.value {γ : Type} {x : Check TypedExpr} {f : TypedExpr → Check γ}
    {result : γ → Prop} (first : Checks globals hosts scope x)
    (second : ∀ e : TypedExpr, e.UsesChecked globals hosts scope →
      Meets (f e) result fun _ => True) :
    Meets (x >>= fun e => requireValue e >>= f) result fun _ => True :=
  first.bind fun _ checked => (checks_requireValue checked).bind second

mutual

theorem checks_expr (models : scope.Models globals env) :
    ∀ e : Expr Unit, Checks globals hosts scope (e.check env)
  | .ident node name => checks_ident models node name
  | .constant _ _ => meets_pure (usesChecked_constant _ _)
  | .typeLiteral _ _ => meets_pure fun _ _ _ member => nomatch member
  | .unary node op operand => by
      rw [Expr.check]
      exact (checks_expr models operand).value fun _ checked => checks_unary checked node op
  | .binary node op left right => by
      have first := checks_expr models left
      have second := checks_expr models right
      rw [Expr.check.eq_def]
      dsimp only
      split
      · split
        · exact first.value fun _ checked => checks_cast checked node _ _
        · exact meets_fail trivial
      · split
        · next assigns =>
            split
            · apply first.value
              intro target targetChecked
              unfold assignable
              split
              · exact meets_fail trivial
              · next writable =>
                  exact second.value fun _ checked =>
                    checks_assignment targetChecked checked assigns (eq_false_of_ne_true writable)
                      node
            · exact meets_fail trivial
        · next plain =>
            apply first.value
            intro x leftChecked
            exact second.value fun _ rightChecked =>
              checks_binary leftChecked rightChecked node (eq_false_of_ne_true plain)
  | .ternary node cond thenBranch elseBranch => by
      rw [Expr.check]
      apply (checks_expr models cond).value
      intro c condChecked
      apply (checks_expr models thenBranch).value
      intro x thenChecked
      exact (checks_expr models elseBranch).value fun _ elseChecked =>
        checks_ternary condChecked thenChecked elseChecked node
  | .call node callee args => by
      rw [Expr.check]
      apply (checks_expr models callee).value
      intro f calleeChecked
      split
      · split
        · apply (checks_args models _ _ 0 args).bind
          exact fun _ argsChecked => checks_call node _ _ calleeChecked argsChecked
        · exact meets_fail trivial
      · split
        · apply (checks_exprs models args).bind
          intro xs checked
          apply meets_pure (usesChecked_call calleeChecked ?_ _)
          exact usesCheckedAll_of_forall checked
        · exact meets_fail trivial
  | .array node items => by
      rw [Expr.check]
      exact (checks_exprs models items).bind fun _ checked => checks_array node checked
  | .index node receiver subscript => by
      rw [Expr.check]
      apply (checks_expr models receiver).value
      intro x receiverChecked
      exact (checks_expr models subscript).value fun _ subscriptChecked =>
        checks_index receiverChecked subscriptChecked node

theorem checks_exprs (models : scope.Models globals env) :
    ∀ es : List (Expr Unit), Meets (Expr.checkAll env es)
      (fun typed => ∀ e ∈ typed, e.UsesChecked globals hosts scope) fun _ => True
  | [] => meets_pure nofun
  | e :: rest => by
      rw [Expr.checkAll]
      apply (checks_expr models e).value
      intro first checked
      apply (checks_exprs models rest).bind
      exact fun others othersChecked => meets_pure (List.forall_mem_cons.mpr ⟨checked, othersChecked⟩)

theorem checks_args (models : scope.Models globals env) (signature : Signature) (name : String) :
    ∀ (position : Nat) (es : List (Expr Unit)),
      Meets (Expr.checkArgs env signature name position es)
        (UsesCheckedAll globals hosts scope) fun _ => True
  | _, [] => meets_pure nofun
  | position, e :: rest => by
      rw [Expr.checkArgs]
      apply (checks_expr models e).value
      intro x checked
      apply (checks_argument checked signature name position).bind
      intro first firstChecked
      apply (checks_args models signature name (position + 1) rest).bind
      exact fun others othersChecked =>
        meets_pure (usesCheckedAll_cons.mpr ⟨firstChecked.value, othersChecked⟩)

end

end Typing

end Formulae
