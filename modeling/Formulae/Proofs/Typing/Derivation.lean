import Formulae.Proofs.Tree.Parts
import Formulae.Proofs.Ty.Acceptance
import Formulae.Proofs.Ty.Written
import Formulae.Proofs.Typing.Rules

/-!
# The types of a checked expression form a derivation

In a checked expression the type of every part follows from the types of its own parts by
the rule for its form (`Expr.Derives`), casts that checking inserted included
(`Typing.derives_expr`).
-/

namespace Formulae

/-! ## Rules -/

namespace Expr

/-- A place of a type takes the value: it accepts the type of the value, or the value was
mixed and is cast to just the type of the place, which no place accepts because it speaks of
void. -/
inductive TakenBy (target : Ty) : TypedExpr → Prop
  | accepted {e : TypedExpr} (accepts : target.accepts e.label) : TakenBy target e
  | cast {node : Node Ty} {operand literal : TypedExpr} (void : target.mentionsVoid)
      (wasMixed : operand.label.isMixed) (same : node.label = target.withFinal true) :
      TakenBy target (.binary node .typeCast operand literal)

/-- The expression has a value. -/
def HasValue (e : TypedExpr) : Prop :=
  e.label.isVoid = false

/-- The type of the expression follows from those of its parts. -/
inductive Derives : TypedExpr → Prop
  | ident (node : Node Ty) (name : String) : Derives (.ident node name)
  | constant {node : Node Ty} {value : Constant} (result : node.label = value.type) :
      Derives (.constant node value)
  | unary {node : Node Ty} {op : Operator} {operand : TypedExpr}
      (result : Ty.unaryResult? op operand.label = some node.label) :
      Derives (.unary node op operand)
  | binary {node : Node Ty} {op : Operator} {left right : TypedExpr} (noCast : op ≠ .typeCast)
      (noAssignment : op.isAssignment = false)
      (result : Ty.binaryResult? op left.label right.label = some node.label) :
      Derives (.binary node op left right)
  | cast {node literal : Node Ty} {operand : TypedExpr} {written : TypeExpr}
      (target : literal.label = .typeLiteral node.label true)
      (castable : operand.label.castableTo node.label) :
      Derives (.binary node .typeCast operand (.typeLiteral literal written))
  | assign {node : Node Ty} {target value : TypedExpr} (writable : target.label.isFinal = false)
      (slot : node.label = target.label.withFinal true) (taken : value.TakenBy node.label) :
      Derives (.binary node .assign target value)
  | compound {node : Node Ty} {op base : Operator} {target value : TypedExpr} {combined : Ty}
      (writable : target.label.isFinal = false) (isCompound : op.compoundBase = some base)
      (slot : node.label = target.label.withFinal true)
      (result : Ty.binaryResult? base node.label value.label = some combined)
      (accepts : node.label.accepts combined) :
      Derives (.binary node op target value)
  | ternary {node : Node Ty} {cond thenBranch elseBranch : TypedExpr}
      (joined : node.label = thenBranch.label.join elseBranch.label) (condValue : cond.HasValue)
      (thenValue : thenBranch.HasValue) (elseValue : elseBranch.HasValue) :
      Derives (.ternary node cond thenBranch elseBranch)
  | call {node : Node Ty} {callee : TypedExpr} {args : List TypedExpr} {signature : Signature}
      (isFunction : callee.label.signature? = some signature)
      (arity : signature.acceptsArity args.length)
      (result : signature.result? (args.map label) = some node.label)
      (taken : ∀ position arg, args[position]? = some arg →
        ∃ param, signature.param? position = some param ∧ arg.TakenBy param) :
      Derives (.call node callee args)
  | callMixed {node : Node Ty} {callee : TypedExpr} {args : List TypedExpr}
      (wasMixed : callee.label.isMixed) (result : node.label = Ty.mixed)
      (values : ∀ arg ∈ args, arg.HasValue) :
      Derives (.call node callee args)
  | array {node : Node Ty} {items : List TypedExpr}
      (result : node.label
        = .arrayOf ((Ty.common? (items.map label)).getD Ty.mixed) (some items.length))
      (values : ∀ item ∈ items, item.HasValue) :
      Derives (.array node items)
  | index {node : Node Ty} {receiver subscript : TypedExpr}
      (result : Ty.binaryResult? .index receiver.label subscript.label = some node.label) :
      Derives (.index node receiver subscript)
  | typeLiteral {node : Node Ty} {written : TypeExpr} {named : Ty}
      (result : node.label = .typeLiteral named true) (same : named.plain = Ty.ofExpr written) :
      Derives (.typeLiteral node written)

theorem Derives.withId {e : TypedExpr} (derives : e.Derives) (id : Nat) :
    (e.withId id).Derives := by
  cases derives with
  | ident => exact .ident _ _
  | constant result => exact .constant result
  | unary result => exact .unary result
  | binary noCast noAssignment result => exact .binary noCast noAssignment result
  | cast target castable => exact .cast target castable
  | assign writable slot taken => exact .assign writable slot taken
  | compound writable isCompound slot result accepts =>
      exact .compound writable isCompound slot result accepts
  | ternary joined condValue thenValue elseValue =>
      exact .ternary joined condValue thenValue elseValue
  | call isFunction arity result taken => exact .call isFunction arity result taken
  | callMixed wasMixed result values => exact .callMixed wasMixed result values
  | array result values => exact .array result values
  | index result => exact .index result
  | typeLiteral result same => exact .typeLiteral result same

/-- The expression and all its parts derive. -/
def Derived (e : TypedExpr) : Prop :=
  ∀ x ∈ e.exprs, x.Derives

/-- The expressions and all their parts derive. -/
def DerivedAll (es : List TypedExpr) : Prop :=
  ∀ x ∈ exprsAll es, x.Derives

theorem Derived.root {e : TypedExpr} (derived : e.Derived) : e.Derives :=
  derived e List.mem_cons_self

theorem derived_iff {e : TypedExpr} : e.Derived ↔ e.Derives ∧ ∀ x ∈ e.parts, x.Derives :=
  List.forall_mem_cons

theorem derivedAll_cons {e : TypedExpr} {rest : List TypedExpr} :
    DerivedAll (e :: rest) ↔ e.Derived ∧ DerivedAll rest :=
  List.forall_mem_append

theorem derivedAll_iff {es : List TypedExpr} : DerivedAll es ↔ ∀ e ∈ es, e.Derived := by
  induction es with
  | nil => exact ⟨nofun, nofun⟩
  | cons e rest inductionHypothesis =>
      rw [derivedAll_cons, inductionHypothesis, List.forall_mem_cons]

theorem Derived.withId {e : TypedExpr} (derived : e.Derived) (id : Nat) :
    (e.withId id).Derived := by
  rw [derived_iff] at *
  refine ⟨derived.1.withId id, ?_⟩
  have same : (e.withId id).parts = e.parts := by cases e <;> rfl
  rw [same]
  exact derived.2

theorem label_withId (e : TypedExpr) (id : Nat) : (e.withId id).label = e.label := by
  cases e <;> rfl

theorem derived_binary {node : Node Ty} {op : Operator} {left right : TypedExpr}
    (derives : (Expr.binary node op left right).Derives) (leftDerived : left.Derived)
    (rightDerived : right.Derived) : (Expr.binary node op left right).Derived :=
  derived_iff.mpr ⟨derives, List.forall_mem_append.mpr ⟨leftDerived, rightDerived⟩⟩

theorem derived_typeLiteral {node : Node Ty} {written : TypeExpr} {named : Ty}
    (result : node.label = .typeLiteral named true) (same : named.plain = Ty.ofExpr written) :
    (Expr.typeLiteral node written).Derived :=
  derived_iff.mpr ⟨.typeLiteral result same, nofun⟩

end Expr

namespace Typing

open Check Expr

section

variable {e left right : TypedExpr} (derived : e.Derived) (leftDerived : left.Derived)
  (rightDerived : right.Derived)

/-! ## Literals -/

theorem derived_of_calendarLiteral {literal : TypedExpr}
    (reads : calendarLiteral? e = some literal) : literal.Derived := by
  unfold calendarLiteral? at reads
  split at reads
  · rcases Option.map_eq_some_iff.mp reads with ⟨value, _, rfl⟩
    exact derived_iff.mpr ⟨.constant rfl, nofun⟩
  · cases reads

include derived in
theorem derived_of_reads {read : TypedExpr} (reads : Reads e read) : read.Derived := by
  rcases reads with rfl | literal
  · exact derived
  · exact derived_of_calendarLiteral literal

/-! ## Casts -/

include derived in
/-- An inserted cast is to the type of its place. -/
theorem derives_insertCast {target : Ty} (castable : e.label.castableTo target) :
    Meets (insertCast target e)
      (fun cast => cast.Derived ∧ cast.label = target.withFinal true ∧
        (e.label.isMixed → cast.TakenBy target)) fun _ => True := by
  unfold insertCast
  split
  · exact meets_fail trivial
  · next written found =>
      apply (meets_fresh (fun _ => trivial)).bind
      intro moved _
      apply (meets_fresh (fun _ => trivial)).bind
      intro literal _
      apply meets_pure
      refine ⟨derived_binary (.cast rfl ?_) (derived.withId moved) (derived_typeLiteral rfl ?_),
        rfl, fun wasMixed => ?_⟩
      · rw [label_withId, Ty.castableTo_withFinal]
        exact castable
      · rw [Ty.plain_withFinal, Ty.ofExpr_of_toExpr? found]
      · cases void : target.mentionsVoid with
        | true => exact .cast void (by rwa [label_withId]) rfl
        | false =>
            apply TakenBy.accepted
            rw [Expr.label, Expr.node, Ty.accepts_withFinal_right]
            exact Ty.accepts_self void

include derived in
theorem derives_coerce (fit : Fit) (target : Ty) :
    Meets (coerce fit target e)
      (fun x => x.Derived ∧ (fit = .accepted → x.TakenBy target)) fun _ => True := by
  have read := derived_of_reads derived (reads_readFor target e)
  simp only [coerce]
  split
  · next accepts =>
      split
      · next converts =>
          apply (derives_insertCast read (Ty.castableTo_of_accepts accepts)).mono
          · rintro x ⟨xDerived, type, _⟩
            refine ⟨xDerived, fun _ => .accepted ?_⟩
            rw [type, Ty.accepts_withFinal_right]
            exact Ty.accepts_self_of_convertsFrom converts
          · exact fun _ _ => trivial
      · exact meets_pure ⟨read, fun _ => .accepted accepts⟩
  · split
    · next casts =>
        rw [Bool.and_eq_true, Bool.or_eq_true, decide_eq_true_eq] at casts
        apply (derives_insertCast read casts.2).mono
        · rintro x ⟨xDerived, _, taken⟩
          refine ⟨xDerived, fun isAccepted => taken ?_⟩
          rcases casts.1 with isCastable | wasMixed
          · rw [isAccepted] at isCastable
            cases isCastable
          · exact wasMixed
        · exact fun _ _ => trivial
    · exact meets_fail trivial

include derived in
theorem derives_widen {target : Ty}
    (castable : target.convertsFrom e.label → e.label.castableTo target) :
    Meets (widen target e) (fun x => x.Derived ∧ x.label = target.stored e.label)
      fun _ => True := by
  unfold widen Ty.stored
  split
  · next converts =>
      apply (derives_insertCast derived (castable converts)).mono
      · exact fun x ⟨xDerived, type, _⟩ => ⟨xDerived, type⟩
      · exact fun _ _ => trivial
  · exact meets_pure ⟨derived, rfl⟩

end

theorem meets_requireValue (e : TypedExpr) :
    Meets (requireValue e) (fun x => x = e ∧ x.HasValue) fun _ => True := by
  unfold requireValue
  split
  · exact meets_fail trivial
  · next hasValue => exact meets_pure ⟨rfl, eq_false_of_ne_true hasValue⟩

/-- Expressions with a property that have values, taken up by a rule. -/
theorem meets_value {γ : Type} {x : Check TypedExpr} {f : TypedExpr → Check γ}
    {property : TypedExpr → Prop} {result : γ → Prop} (first : Meets x property fun _ => True)
    (second : ∀ e : TypedExpr, property e → e.HasValue → Meets (f e) result fun _ => True) :
    Meets (x >>= fun e => requireValue e >>= f) result fun _ => True :=
  first.bind fun e holds => (meets_requireValue e).bind fun _ ⟨same, hasValue⟩ =>
    second _ (same ▸ holds) hasValue

/-! ## Rules -/

section

variable {e left right : TypedExpr}

theorem derives_ident (env : TypeEnv) (node : Bare) (name : String) :
    Meets (ident env node name) Derived fun _ => True := by
  unfold ident
  split
  · exact meets_pure (derived_iff.mpr ⟨.ident _ _, nofun⟩)
  · exact meets_fail trivial

theorem derives_unary (derived : e.Derived) (node : Bare) (op : Operator) :
    Meets (unary node op e) Derived fun _ => True := by
  unfold unary
  split
  · next type found => exact meets_pure (derived_iff.mpr ⟨.unary found, derived⟩)
  · exact meets_fail trivial

theorem derives_binary (leftDerived : left.Derived) (rightDerived : right.Derived) (node : Bare)
    {op : Operator} (noCast : op ≠ .typeCast) (noAssignment : op.isAssignment = false) :
    Meets (binary node op left right) Derived fun _ => True := by
  rcases reads_operands op left right with ⟨readsLeft, readsRight⟩
  have left' := derived_of_reads leftDerived readsLeft
  have right' := derived_of_reads rightDerived readsRight
  unfold binary
  dsimp only
  split
  · next type found =>
      exact meets_pure (derived_binary (.binary noCast noAssignment found) left' right')
  · exact meets_fail trivial

theorem derives_cast (derived : e.Derived) (node literal : Bare) (written : TypeExpr) :
    Meets (cast node literal written e) Derived fun _ => True := by
  simp only [cast]
  split
  · next castable =>
      exact meets_pure (derived_binary (.cast rfl castable) (derived_of_reads derived (reads_readFor _ e))
        (derived_typeLiteral rfl (Ty.plain_ofExpr written)))
  · exact meets_fail trivial

theorem derives_assignment (leftDerived : left.Derived) (rightDerived : right.Derived)
    (writable : left.label.isFinal = false) (node : Bare) (op : Operator) :
    Meets (assignment node op left right) Derived fun _ => True := by
  unfold assignment
  split
  · apply (derives_coerce rightDerived _ _).bind
    rintro value ⟨valueDerived, taken⟩
    exact meets_pure (derived_binary (.assign writable rfl (taken rfl)) leftDerived valueDerived)
  · next base isCompound =>
      simp only [compoundAssign]
      split
      · exact meets_fail trivial
      · next combined found =>
          split
          · next accepts =>
              exact meets_pure (derived_binary (.compound writable isCompound rfl found accepts)
                leftDerived (derived_of_reads rightDerived (reads_compoundOperand _ _ right)))
          · exact meets_fail trivial

theorem hasValue_stored {target : Ty} {x : TypedExpr} (hasValue : e.HasValue)
    (type : x.label = target.stored e.label) : x.HasValue := by
  unfold HasValue at *
  rw [type]
  unfold Ty.stored
  split
  · next converts =>
      rw [Ty.isVoid_withFinal]
      cases target with
      | basic a => cases a <;> first | rfl | (cases label : e.label <;> rw [label] at converts <;> cases converts)
      | _ => rfl
  · exact hasValue

theorem derives_ternary {cond : TypedExpr} (condDerived : cond.Derived)
    (leftDerived : left.Derived) (rightDerived : right.Derived) (condValue : cond.HasValue)
    (leftValue : left.HasValue) (rightValue : right.HasValue) (node : Bare) :
    Meets (ternary node cond left right) Derived fun _ => True := by
  have joined {x y : TypedExpr} {node : Node Ty} (type : node.label = x.label.join y.label)
      (first : x.Derived) (second : y.Derived) (firstValue : x.HasValue)
      (secondValue : y.HasValue) : (Expr.ternary node cond x y).Derived :=
    derived_iff.mpr ⟨.ternary type condValue firstValue secondValue, List.forall_mem_append.mpr
      ⟨List.forall_mem_append.mpr ⟨condDerived, first⟩, second⟩⟩
  simp only [ternary]
  split
  · next equal =>
      have type : left.label.join right.label = left.label.withFinal true := if_pos equal
      exact meets_pure (joined type.symm leftDerived rightDerived leftValue rightValue)
  · next differ =>
      split
      · next accepts =>
          apply (derives_widen rightDerived fun _ => Ty.castableTo_of_accepts accepts).bind
          rintro value ⟨valueDerived, type⟩
          apply meets_pure (joined ?_ leftDerived valueDerived leftValue
            (hasValue_stored rightValue type))
          rw [type, Ty.join_stored_right accepts]
          rfl
      · next refused =>
          split
          · next accepts =>
              apply (derives_widen leftDerived fun _ => Ty.castableTo_of_accepts accepts).bind
              rintro value ⟨valueDerived, type⟩
              apply meets_pure (joined ?_ valueDerived rightDerived
                (hasValue_stored leftValue type) rightValue)
              rw [type, Ty.join_stored_left differ refused accepts]
              rfl
          · next refused' =>
              have type : left.label.join right.label = Ty.mixed := by
                rw [Ty.join, if_neg differ, if_neg refused, if_neg refused']
              exact meets_pure (joined type.symm leftDerived rightDerived leftValue rightValue)

theorem derives_index (leftDerived : left.Derived) (rightDerived : right.Derived) (node : Bare) :
    Meets (index node left right) Derived fun _ => True := by
  unfold index
  split
  · split
    · next type found =>
        exact meets_pure (derived_iff.mpr
          ⟨.index found, List.forall_mem_append.mpr ⟨leftDerived, rightDerived⟩⟩)
    · exact meets_fail trivial
  · exact meets_fail trivial

theorem derives_argument (derived : e.Derived) (signature : Signature) (name : String)
    (position : Nat) :
    Meets (argument signature name position e)
      (fun x => x.Derived ∧ ∃ param, signature.param? position = some param ∧ x.TakenBy param)
      fun _ => True := by
  unfold argument
  split
  · next param found =>
      apply (derives_coerce derived _ _).mono
      · exact fun x ⟨xDerived, taken⟩ => ⟨xDerived, param, found, taken rfl⟩
      · exact fun _ _ => trivial
  · exact meets_fail trivial

end

theorem derived_call {node : Node Ty} {callee : TypedExpr} {args : List TypedExpr}
    (derives : (Expr.call node callee args).Derives) (calleeDerived : callee.Derived)
    (argsDerived : DerivedAll args) : (Expr.call node callee args).Derived :=
  derived_iff.mpr ⟨derives, List.forall_mem_append.mpr ⟨calleeDerived, argsDerived⟩⟩

theorem derives_call (node : Bare) {signature : Signature} (name : String) {callee : TypedExpr}
    {args : List TypedExpr} (isFunction : callee.label.signature? = some signature)
    (arity : signature.acceptsArity args.length)
    (calleeDerived : callee.Derived) (argsDerived : DerivedAll args)
    (taken : ∀ position arg, args[position]? = some arg →
      ∃ param, signature.param? position = some param ∧ arg.TakenBy param) :
    Meets (call node signature name callee args) Derived fun _ => True := by
  simp only [call]
  split
  · next type found =>
      exact meets_pure (derived_call (.call isFunction arity found taken) calleeDerived argsDerived)
  · exact meets_fail trivial

/-- The elements of an array literal are stored in it one by one. -/
theorem derives_mapM_widen (element : Ty) {es : List TypedExpr}
    (derived : ∀ e ∈ es, e.Derived ∧ e.HasValue ∧
      (element.convertsFrom e.label → e.label.castableTo element)) :
    Meets (es.mapM (widen element))
      (fun xs => DerivedAll xs ∧ (∀ x ∈ xs, x.HasValue) ∧
        xs.map label = (es.map label).map element.stored) fun _ => True := by
  induction es with
  | nil => exact meets_pure ⟨nofun, nofun, rfl⟩
  | cons e rest inductionHypothesis =>
      rw [List.forall_mem_cons] at derived
      rcases derived with ⟨⟨eDerived, hasValue, castable⟩, restDerived⟩
      rw [List.mapM_cons]
      apply (derives_widen eDerived castable).bind
      rintro x ⟨xDerived, type⟩
      apply (inductionHypothesis restDerived).bind
      rintro xs ⟨xsDerived, values, types⟩
      apply meets_pure
      refine ⟨derivedAll_cons.mpr ⟨xDerived, xsDerived⟩,
        List.forall_mem_cons.mpr ⟨hasValue_stored hasValue type, values⟩, ?_⟩
      rw [List.map_cons, List.map_cons, List.map_cons, type, types]

theorem derives_array (node : Bare) {items : List TypedExpr}
    (derived : ∀ e ∈ items, e.Derived ∧ e.HasValue) :
    Meets (array node items) Derived fun _ => True := by
  simp only [array]
  have widened := derives_mapM_widen ((Ty.common? (items.map label)).getD Ty.mixed)
    fun e member => ⟨(derived e member).1, (derived e member).2,
      Ty.castableTo_common (List.mem_map_of_mem member)⟩
  apply widened.bind
  rintro xs ⟨xsDerived, values, types⟩
  apply meets_pure
  refine derived_iff.mpr ⟨.array ?_ values, xsDerived⟩
  have length : xs.length = items.length := by
    have same := congrArg List.length types
    simpa only [List.length_map] using same
  rw [types, Ty.common?_stored, length]
  rfl

/-! ## Expressions -/

mutual

theorem derives_expr (env : TypeEnv) : ∀ e : Expr Unit, Meets (e.check env) Derived fun _ => True
  | .ident node name => derives_ident env node name
  | .constant _ _ => meets_pure (derived_iff.mpr ⟨.constant rfl, nofun⟩)
  | .typeLiteral _ written => meets_pure (derived_typeLiteral rfl (Ty.plain_ofExpr written))
  | .unary node op operand => by
      rw [Expr.check]
      exact meets_value (derives_expr env operand) fun _ derived _ => derives_unary derived node op
  | .binary node op left right => by
      have one := derives_expr env left
      have two := derives_expr env right
      rw [Expr.check.eq_def]
      dsimp only
      split
      · split
        · exact meets_value one fun _ derived _ => derives_cast derived node _ _
        · exact meets_fail trivial
      · next noCast =>
          split
          · split
            · apply meets_value one
              intro target targetDerived _
              unfold assignable
              split
              · exact meets_fail trivial
              · next writable =>
                  exact meets_value two fun _ derived _ =>
                    derives_assignment targetDerived derived (eq_false_of_ne_true writable) node op
            · exact meets_fail trivial
          · next noAssignment =>
              apply meets_value one
              intro x leftDerived _
              exact meets_value two fun _ rightDerived _ =>
                derives_binary leftDerived rightDerived node noCast
                  (eq_false_of_ne_true noAssignment)
  | .ternary node cond thenBranch elseBranch => by
      rw [Expr.check]
      apply meets_value (derives_expr env cond)
      intro c condDerived condValue
      apply meets_value (derives_expr env thenBranch)
      intro x thenDerived thenValue
      exact meets_value (derives_expr env elseBranch) fun _ elseDerived elseValue =>
        derives_ternary condDerived thenDerived elseDerived condValue thenValue elseValue node
  | .call node callee args => by
      rw [Expr.check]
      apply meets_value (derives_expr env callee)
      intro f calleeDerived _
      split
      · next signature isFunction =>
          split
          · next arity =>
              apply (derives_args env signature _ 0 args).bind
              rintro xs ⟨argsDerived, length, taken⟩
              rw [← length] at arity
              exact derives_call node _ isFunction arity calleeDerived argsDerived
                fun position arg found => Nat.zero_add position ▸ taken position arg found
          · exact meets_fail trivial
      · split
        · next wasMixed =>
            apply (derives_exprs env args).bind
            intro xs derived
            exact meets_pure (derived_call
              (.callMixed wasMixed rfl fun arg member => (derived arg member).2) calleeDerived
              (derivedAll_iff.mpr fun arg member => (derived arg member).1))
        · exact meets_fail trivial
  | .array node items => by
      rw [Expr.check]
      exact (derives_exprs env items).bind fun _ derived => derives_array node derived
  | .index node receiver subscript => by
      rw [Expr.check]
      apply meets_value (derives_expr env receiver)
      intro x receiverDerived _
      exact meets_value (derives_expr env subscript) fun _ subscriptDerived _ =>
        derives_index receiverDerived subscriptDerived node

theorem derives_exprs (env : TypeEnv) : ∀ es : List (Expr Unit),
    Meets (Expr.checkAll env es) (fun xs => ∀ x ∈ xs, x.Derived ∧ x.HasValue) fun _ => True
  | [] => meets_pure nofun
  | e :: rest => by
      rw [Expr.checkAll]
      apply meets_value (derives_expr env e)
      intro x derived hasValue
      apply (derives_exprs env rest).bind
      exact fun others othersDerived =>
        meets_pure (List.forall_mem_cons.mpr ⟨⟨derived, hasValue⟩, othersDerived⟩)

theorem derives_args (env : TypeEnv) (signature : Signature) (name : String) :
    ∀ (first : Nat) (es : List (Expr Unit)),
      Meets (Expr.checkArgs env signature name first es)
        (fun xs => DerivedAll xs ∧ xs.length = es.length ∧
          ∀ position arg, xs[position]? = some arg →
            ∃ param, signature.param? (first + position) = some param ∧ arg.TakenBy param)
        fun _ => True
  | _, [] => meets_pure ⟨nofun, rfl, nofun⟩
  | first, e :: rest => by
      rw [Expr.checkArgs]
      apply meets_value (derives_expr env e)
      intro x derived _
      apply (derives_argument derived signature name first).bind
      rintro y ⟨yDerived, taken⟩
      apply (derives_args env signature name (first + 1) rest).bind
      rintro others ⟨othersDerived, length, othersTaken⟩
      apply meets_pure
      refine ⟨derivedAll_cons.mpr ⟨yDerived, othersDerived⟩, congrArg (· + 1) length,
        fun position arg found => ?_⟩
      cases position with
      | zero =>
          cases found
          exact taken
      | succ position =>
          have further := othersTaken position arg found
          rwa [Nat.add_right_comm] at further

end

end Typing

end Formulae
