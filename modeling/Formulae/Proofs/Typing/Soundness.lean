import Formulae.Proofs.RoundTrip
import Formulae.Proofs.Run.Names
import Formulae.Proofs.Run.Sound

/-!
# Checked expressions are sound

An expression of a checked formula has a value of its type, or it fails for an ordinary
reason (`Mode.sound_of_check`).  A failure of any other kind comes from a node with a mixed
operand, or from the comparison of a float that is no number.
-/

namespace Formulae

namespace Typing

open Check Expr

variable {s : Setting Ty} {m : Machine} {e left right : TypedExpr}

/-! ## Literals -/

theorem sound_calendarLiteral {literal : TypedExpr} (read : calendarLiteral? e = some literal) :
    literal.Sound s m ∧ literal.HasValue := by
  unfold calendarLiteral? at read
  split at read
  · next node text =>
      rcases Option.map_eq_some_iff.mp read with ⟨constant, found, rfl⟩
      unfold calendarConstant? at found
      split at found
      · next isDate =>
          cases found
          rcases Option.isSome_iff_exists.mp isDate with ⟨d, parsed⟩
          have given : (Constant.date text).value = .ok (.date d) := by
            rw [Constant.value, parsed]
          exact ⟨sound_constant rfl given rfl (Value.every_data rfl Value.concrete_of_isData), rfl⟩
      · split at found
        · next isDuration =>
            cases found
            rcases Option.isSome_iff_exists.mp isDuration with ⟨d, parsed⟩
            have given : (Constant.duration text).value = .ok (.duration d) := by
              rw [Constant.value, parsed]
            exact ⟨sound_constant rfl given rfl (Value.every_data rfl Value.concrete_of_isData), rfl⟩
        · cases found
  · cases read

theorem Reads.sound {read : TypedExpr} (reads : Reads e read) (sound : e.Sound s m) :
    read.Sound s m ∧ (e.HasValue → read.HasValue) := by
  rcases reads with rfl | literal
  · exact ⟨sound, id⟩
  · exact (sound_calendarLiteral literal).imp id fun hasValue _ => hasValue

/-! ## Casts -/

theorem sound_insertCast (sound : e.Sound s m) (hasValue : e.HasValue) (target : Ty) :
    Meets (insertCast target e)
      (fun x => x.Sound s m ∧ x.label = target.withFinal true) fun _ => True := by
  unfold insertCast
  split
  · exact meets_fail trivial
  · next written found =>
      apply (meets_fresh fun number => (trivial : (fun _ => True) number)).bind
      intro moved _
      apply (meets_fresh fun number => (trivial : (fun _ => True) number)).bind
      intro literal _
      apply meets_pure
      refine ⟨sound_cast (sound.withId moved) ?_ (Ty.isFinal_withFinal _ _) ?_, rfl⟩
      · rw [HasValue, label_withId]
        exact hasValue
      · change (target.withFinal true).plain = _
        rw [Ty.plain_withFinal, Ty.ofExpr_of_toExpr? found]

/-- The expression is as a place of the type takes it. -/
structure Fitted (s : Setting Ty) (m : Machine) (target : Ty) (e : TypedExpr) : Prop where
  sound : e.Sound s m
  hasValue : e.HasValue
  admits : ∀ v, e.label.admits v → target.admits v

theorem fitted_of_label {target : Ty} (value : target.isVoid = false) (sound : e.Sound s m)
    (type : e.label = target.withFinal true) : Fitted s m target e where
  sound := sound
  hasValue := by rw [HasValue, type, Ty.isVoid_withFinal, value]
  admits v h := by rwa [type, Ty.admits_withFinal] at h

theorem sound_coerce (sound : e.Sound s m) (hasValue : e.HasValue) (fit : Fit) (target : Ty) :
    Meets (coerce fit target e) (Fitted s m target) fun _ => True := by
  unfold coerce
  dsimp only
  have ⟨sound', kept⟩ := (reads_readFor target e).sound sound
  have hasValue' := kept hasValue
  split
  · next accepts =>
      split
      · apply (sound_insertCast sound' hasValue' target).mono
        · exact fun x ⟨xSound, type⟩ => fitted_of_label
            (Ty.not_isVoid_of_castableTo (Ty.castableTo_of_accepts accepts)) xSound type
        · exact fun _ _ => trivial
      · exact meets_pure ⟨sound', hasValue', fun v => Ty.admits_of_accepts accepts⟩
  · split
    · next castable =>
        rw [Bool.and_eq_true] at castable
        apply (sound_insertCast sound' hasValue' target).mono
        · exact fun x ⟨xSound, type⟩ => fitted_of_label
            (Ty.not_isVoid_of_castableTo castable.2) xSound type
        · exact fun _ _ => trivial
    · exact meets_fail trivial

theorem sound_widen (sound : e.Sound s m) (hasValue : e.HasValue) (target : Ty) :
    Meets (widen target e)
      (fun x => x.Sound s m ∧ x.HasValue ∧ x.label = target.stored e.label) fun _ => True := by
  unfold widen Ty.stored
  split
  · next converts =>
      apply (sound_insertCast sound hasValue target).mono
      · intro x ⟨xSound, type⟩
        refine ⟨xSound, ?_, type⟩
        have stored : x.label = target.stored e.label := by rw [type, Ty.stored, if_pos converts]
        exact hasValue_stored hasValue stored
      · exact fun _ _ => trivial
  · exact meets_pure ⟨sound, hasValue, rfl⟩

/-! ## Rules -/

section

variable {env : TypeEnv}

theorem sound_ident (provides : m.Provides s env) {name : String}
    (noFunction : namesFunction env name = false) (node : Bare) :
    Meets (ident env node name) (Sound s m) fun _ => True := by
  unfold ident
  split
  · next type known =>
      have isNone : type.signature? = none := by
        rw [namesFunction, known] at noFunction
        exact Option.not_isSome_iff_eq_none.mp (ne_true_of_eq_false noFunction)
      rcases provides.fetch_value known (.unboundVariable name) node.span isNone with
        ⟨v, found, typed, concrete⟩
      exact meets_pure (Expr.sound_ident (provides.isFinal_name known) found typed concrete)
  · exact meets_fail trivial

theorem sound_unary (sound : e.Sound s m) (node : Bare) (op : Operator) :
    Meets (unary node op e) (Sound s m) fun _ => True := by
  unfold unary
  split
  · next type found => exact meets_pure (Expr.sound_unary sound found)
  · exact meets_fail trivial

theorem sound_binary (first : left.Sound s m) (second : right.Sound s m) (node : Bare)
    {op : Operator} (isInfix : op.IsInfix) (noCast : op ≠ .typeCast)
    (noAssignment : op.isAssignment = false) :
    Meets (binary node op left right) (Sound s m) fun _ => True := by
  rcases reads_operands op left right with ⟨readsLeft, readsRight⟩
  have first' := (readsLeft.sound first).1
  have second' := (readsRight.sound second).1
  unfold binary
  dsimp only
  split
  · next type found =>
      exact meets_pure (Expr.sound_binary first' second' isInfix noCast noAssignment found)
  · exact meets_fail trivial

theorem sound_cast (sound : e.Sound s m) (hasValue : e.HasValue) (node literal : Bare)
    (written : TypeExpr) : Meets (cast node literal written e) (Sound s m) fun _ => True := by
  have ⟨sound', kept⟩ := (reads_readFor (Ty.ofExpr written) e).sound sound
  have hasValue' := kept hasValue
  have final : (Ty.ofExpr written).isFinal := by cases written <;> rfl
  simp only [cast]
  split
  · exact meets_pure (Expr.sound_cast sound' hasValue' final (Ty.plain_ofExpr written))
  · exact meets_fail trivial

theorem sound_ternary {cond : TypedExpr} (condSound : cond.Sound s m) (first : left.Sound s m)
    (second : right.Sound s m) (leftValue : left.HasValue) (rightValue : right.HasValue)
    (node : Bare) : Meets (ternary node cond left right) (Sound s m) fun _ => True := by
  have joined {x y : TypedExpr} {type : Ty} (first : x.Sound s m) (second : y.Sound s m)
      (xValue : x.HasValue) (yValue : y.HasValue) (final : type.isFinal)
      (fromThen : ∀ v, v.Concrete → x.label.admits v → type.admits v)
      (fromElse : ∀ v, v.Concrete → y.label.admits v → type.admits v) :
      (Expr.ternary (node.typed type) cond x y).Sound s m :=
    Expr.sound_ternary condSound first second final
      (fun v gives => ⟨fromThen v (gives.2 xValue) gives.1, fun _ => gives.2 xValue⟩)
      (fun v gives => ⟨fromElse v (gives.2 yValue) gives.1, fun _ => gives.2 yValue⟩)
  have kept {type : Ty} (v : Value) (_ : v.Concrete) (h : type.admits v) :
      (type.withFinal true).admits v := Ty.admits_withFinal type true ▸ h
  simp only [ternary]
  split
  · next equal =>
      refine meets_pure (joined first second leftValue rightValue (Ty.isFinal_withFinal _ _) kept ?_)
      intro v concrete h
      rw [Ty.admits_withFinal, Ty.admits_of_equals equal]
      exact h
  · split
    · next accepts =>
        apply (sound_widen second rightValue left.label).bind
        rintro x ⟨xSound, xValue, type⟩
        refine meets_pure (joined first xSound leftValue xValue (Ty.isFinal_withFinal _ _) kept ?_)
        intro v concrete h
        rw [type] at h
        exact kept v concrete (Ty.admits_of_stored accepts h)
    · split
      · next accepts =>
          apply (sound_widen first leftValue right.label).bind
          rintro x ⟨xSound, xValue, type⟩
          refine meets_pure (joined xSound second xValue rightValue (Ty.isFinal_withFinal _ _) ?_ kept)
          intro v concrete h
          rw [type] at h
          exact kept v concrete (Ty.admits_of_stored accepts h)
      · exact meets_pure (joined first second leftValue rightValue rfl
          (fun v concrete _ => Ty.mixed_admits concrete.isVoid)
          (fun v concrete _ => Ty.mixed_admits concrete.isVoid))

theorem sound_index (first : left.Sound s m) (second : right.Sound s m) (hasValue : left.HasValue)
    (node : Bare) : Meets (index node left right) (Sound s m) fun _ => True := by
  unfold index
  split
  · split
    · next type found =>
        have element : left.label.element? right.label = some type := by
          unfold Ty.binaryResult? at found
          split at found
          · cases found
          · exact found
        exact meets_pure (Expr.sound_index first second hasValue element)
    · exact meets_fail trivial
  · exact meets_fail trivial

theorem sound_mapM_widen (element : Ty) {es : List TypedExpr}
    (sound : ∀ e ∈ es, e.Sound s m ∧ e.HasValue) :
    Meets (es.mapM (widen element))
      (fun xs => ∀ x ∈ xs, x.Sound s m ∧ x.HasValue ∧
        ∃ e ∈ es, x.label = element.stored e.label) fun _ => True := by
  induction es with
  | nil => exact meets_pure nofun
  | cons e rest inductionHypothesis =>
      rw [List.forall_mem_cons] at sound
      rw [List.mapM_cons]
      apply (sound_widen sound.1.1 sound.1.2 element).bind
      rintro x ⟨xSound, xValue, type⟩
      apply (inductionHypothesis sound.2).bind
      intro xs each
      refine meets_pure (List.forall_mem_cons.mpr
        ⟨⟨xSound, xValue, e, List.mem_cons_self, type⟩, fun y member => ?_⟩)
      rcases each y member with ⟨ySound, yValue, e', inside, type'⟩
      exact ⟨ySound, yValue, e', List.mem_cons_of_mem _ inside, type'⟩

theorem sound_array (node : Bare) {items : List TypedExpr}
    (sound : ∀ e ∈ items, e.Sound s m ∧ e.HasValue) :
    Meets (array node items) (Sound s m) fun _ => True := by
  simp only [array]
  apply (sound_mapM_widen ((Ty.common? (items.map label)).getD Ty.mixed) sound).bind
  intro xs each
  apply meets_pure
  refine Expr.sound_array (fun x member => ⟨(each x member).1, (each x member).2.1⟩) rfl ?_
  intro x member v h
  rcases each x member with ⟨-, hasValue, e, inside, type⟩
  have notVoid := Ty.not_isVoid_of_admits hasValue h
  rw [type] at h
  unfold Ty.stored at h
  split at h
  · rwa [Ty.admits_withFinal] at h
  · exact Ty.admits_common (List.mem_map_of_mem inside) notVoid h

/-! ## Calls -/

theorem fitted_argument (sound : e.Sound s m) (hasValue : e.HasValue) (signature : Signature)
    (name : String) (position : Nat) :
    Meets (argument signature name position e)
      (fun x => ∃ param, signature.param? position = some param ∧ Fitted s m param x)
      fun _ => True := by
  unfold argument
  split
  · next param found =>
      exact (sound_coerce sound hasValue _ _).mono (fun x fitted => ⟨param, found, fitted⟩)
        fun _ _ => trivial
  · exact meets_fail trivial

end

end Typing

namespace Expr

variable {α : Type}

/-- The expression is a name. -/
def isName : Expr α → Bool
  | .ident _ _ => true
  | _ => false

mutual

/-- Names of functions stand in the expression only where they are called. -/
def onlyCalls (isFunction : String → Bool) : Expr α → Bool
  | .ident _ name => !isFunction name
  | .constant _ _ | .typeLiteral _ _ => true
  | .unary _ _ operand => operand.onlyCalls isFunction
  | .binary _ _ left right => left.onlyCalls isFunction && right.onlyCalls isFunction
  | .ternary _ cond thenBranch elseBranch =>
      cond.onlyCalls isFunction && thenBranch.onlyCalls isFunction
        && elseBranch.onlyCalls isFunction
  | .call _ callee args =>
      (callee.isName || callee.onlyCalls isFunction) && onlyCallsAll isFunction args
  | .array _ items => onlyCallsAll isFunction items
  | .index _ receiver subscript =>
      receiver.onlyCalls isFunction && subscript.onlyCalls isFunction

/-- Names of functions stand in the expressions only where they are called. -/
def onlyCallsAll (isFunction : String → Bool) : List (Expr α) → Bool
  | [] => true
  | e :: rest => e.onlyCalls isFunction && onlyCallsAll isFunction rest

end

end Expr

namespace Typing

open Check Expr

variable {s : Setting Ty} {m : Machine} {env : TypeEnv} {floats : Float → Prop}

/-- The parameters of a signature, from a position on, are given their arguments. -/
def FittedAll (s : Setting Ty) (m : Machine) (signature : Signature) (first : Nat)
    (args : List TypedExpr) : Prop :=
  ∀ position arg, args[position]? = some arg →
    ∃ param, signature.param? (first + position) = some param ∧ Fitted s m param arg

theorem FittedAll.sound {signature : Signature} {first : Nat} {args : List TypedExpr}
    (fitted : FittedAll s m signature first args) : ∀ arg ∈ args, arg.Sound s m ∧ arg.HasValue := by
  intro arg member
  rcases List.getElem?_of_mem member with ⟨position, found⟩
  rcases fitted position arg found with ⟨param, -, fits⟩
  exact ⟨fits.sound, fits.hasValue⟩

/-- A call by the name of a function, or by an expression that has a value. -/
theorem sound_call (node : Bare) {signature : Signature} (name : String) {callee : TypedExpr}
    {args : List TypedExpr} (arity : signature.acceptsArity args.length)
    (fitted : FittedAll s m signature 0 args)
    (isFunction : callee.label.signature? = some signature)
    (called : callee.Sound s m ∧ callee.HasValue ∨
      ∃ calleeNode name f, callee = .ident calleeNode name ∧
        Run.fetch name (.unresolvedMethod name) calleeNode.span m = .ok (.function f) m ∧
        f.Kept s.hosts ∧ (Value.function f).type.signature? = some signature) :
    Meets (call node signature name callee args) (Sound s m) fun _ => True := by
  simp only [call]
  split
  · next type resolved =>
      apply meets_pure
      rcases called with ⟨sound, hasValue⟩ | ⟨calleeNode, name, f, rfl, found, kept, hasSignature⟩
      · exact sound_call_value sound hasValue (.inl (by rw [isFunction]; rfl)) fitted.sound
          (Signature.isFinal_result? resolved)
      · refine sound_call_function found kept hasSignature arity fitted.sound ?_ resolved
        intro position arg given
        rcases fitted position arg given with ⟨param, isParam, fits⟩
        exact ⟨param, Nat.zero_add position ▸ isParam, fits.admits⟩
  · exact meets_fail trivial

/-- What is called in a call with a function for a callee: an expression that has a value, or
the name of a function. -/
def IsCallee (s : Setting Ty) (m : Machine) (callee : TypedExpr) : Prop :=
  callee.Sound s m ∨ callee.label.isMixed = false ∧ ∀ signature,
    callee.label.signature? = some signature →
      ∃ calleeNode name f, callee = .ident calleeNode name ∧
        Run.fetch name (.unresolvedMethod name) calleeNode.span m = .ok (.function f) m ∧
        f.Kept s.hosts ∧ (Value.function f).type.signature? = some signature

theorem sound_callee (provides : m.Provides s env) (callee : Expr Unit)
    (called : callee.isName ∨ callee.onlyCalls (namesFunction env))
    (value : callee.onlyCalls (namesFunction env) →
      Meets (callee.check env) (Sound s m) fun _ => True) :
    Meets (callee.check env) (IsCallee s m) fun _ => True := by
  by_cases isValue : callee.onlyCalls (namesFunction env)
  · exact (value isValue).mono (fun _ => .inl) fun _ _ => trivial
  · cases callee with
    | ident node name =>
        rw [onlyCalls, Bool.not_eq_true', Bool.not_eq_false] at isValue
        rw [Expr.check]
        unfold ident
        split
        · next type known =>
            rw [namesFunction, known] at isValue
            rcases Option.isSome_iff_exists.mp isValue with ⟨signature, isFunction⟩
            refine meets_pure (.inr ⟨?_, fun signature' same => ?_⟩)
            · change type.isMixed = false
              cases type <;> first | rfl | cases isFunction
            · rcases provides.fetch_function known (.unresolvedMethod name) node.span same with
                ⟨f, found, kept, hasSignature⟩
              exact ⟨_, name, f, rfl, found, kept, hasSignature⟩
        · exact meets_fail trivial
    | _ => exact absurd (called.resolve_left Bool.false_ne_true) isValue

mutual

theorem sound_expr (provides : m.Provides s env) : ∀ e : Expr Unit, e.Readable floats →
    e.onlyCalls (namesFunction env) → Meets (e.check env) (Sound s m) fun _ => True
  | .ident node name, _, called => by
      rw [onlyCalls, Bool.not_eq_true'] at called
      exact sound_ident provides called node
  | .constant node value, readable, _ => by
      have hasValue : ∃ v, value.value = .ok v ∧ value.type.admits v ∧ v.isData := by
        cases value <;> first | exact ⟨_, rfl, rfl, rfl⟩ | exact readable.elim
      rcases hasValue with ⟨v, given, typed, data⟩
      exact meets_pure (sound_constant rfl given typed
        (Value.every_data data Value.concrete_of_isData))
  | .typeLiteral _ _, readable, _ => readable.elim
  | .unary node op operand, readable, called => by
      rw [Expr.check]
      exact meets_value (sound_expr provides operand readable.2 called) fun _ sound _ =>
        sound_unary sound node op
  | .binary node op left right, readable, called => by
      rw [onlyCalls, Bool.and_eq_true] at called
      rw [Expr.check.eq_def]
      dsimp only
      rcases readable_binary readable with ⟨rfl, readable', target⟩ | ⟨noCast, isInfix, readable'⟩
      · rw [if_pos rfl]
        split
        · exact meets_value (sound_expr provides left readable' called.1) fun _ sound hasValue =>
            sound_cast sound hasValue node _ _
        · exact meets_fail trivial
      · have one := sound_expr provides left readable'.1 called.1
        have two := sound_expr provides right readable'.2 called.2
        rw [if_neg noCast]
        split
        · split
          · apply meets_value one
            intro target sound _
            -- All types are final, so that there is nothing to assign to.
            unfold assignable
            rw [if_pos sound.final]
            exact (meets_fail trivial).bind fun _ (never : False) => never.elim
          · exact meets_fail trivial
        · next noAssignment =>
            apply meets_value one
            intro x first _
            exact meets_value two fun _ second _ =>
              sound_binary first second node isInfix noCast (eq_false_of_ne_true noAssignment)
  | .ternary node cond thenBranch elseBranch, readable, called => by
      rw [onlyCalls, Bool.and_eq_true, Bool.and_eq_true] at called
      rw [Expr.check]
      apply meets_value (sound_expr provides cond readable.1 called.1.1)
      intro c condSound _
      apply meets_value (sound_expr provides thenBranch readable.2.1 called.1.2)
      intro x first firstValue
      exact meets_value (sound_expr provides elseBranch readable.2.2 called.2)
        fun _ second secondValue =>
          sound_ternary condSound first second firstValue secondValue node
  | .call node callee args, readable, called => by
      rw [onlyCalls, Bool.and_eq_true, Bool.or_eq_true] at called
      rw [Expr.check]
      apply meets_value (sound_callee provides callee called.1 (sound_expr provides callee readable.1))
      intro f isCallee hasValue
      split
      · next signature isFunction =>
          split
          · next arity =>
              apply (sound_args provides signature _ 0 args readable.2 called.2).bind
              rintro xs ⟨length, fitted⟩
              rw [← length] at arity
              exact sound_call node _ arity fitted isFunction
                (isCallee.imp (fun sound => ⟨sound, hasValue⟩) fun named => named.2 signature isFunction)
          · exact meets_fail trivial
      · next noFunction =>
          split
          · next isMixed =>
              apply (sound_exprs provides args readable.2 called.2).bind
              intro xs sound
              rcases isCallee with calleeSound | ⟨notMixed, -⟩
              · exact meets_pure (sound_call_value calleeSound hasValue (.inr isMixed) sound rfl)
              · rw [notMixed] at isMixed
                cases isMixed
          · exact meets_fail trivial
  | .array node items, readable, called => by
      rw [Expr.check]
      exact (sound_exprs provides items readable called).bind fun _ sound => sound_array node sound
  | .index node receiver subscript, readable, called => by
      rw [onlyCalls, Bool.and_eq_true] at called
      rw [Expr.check]
      apply meets_value (sound_expr provides receiver readable.1 called.1)
      intro x first hasValue
      exact meets_value (sound_expr provides subscript readable.2 called.2) fun _ second _ =>
        sound_index first second hasValue node

theorem sound_exprs (provides : m.Provides s env) : ∀ es : List (Expr Unit),
    ReadableAll floats es → onlyCallsAll (namesFunction env) es →
      Meets (Expr.checkAll env es) (fun xs => ∀ x ∈ xs, x.Sound s m ∧ x.HasValue) fun _ => True
  | [], _, _ => meets_pure nofun
  | e :: rest, readable, called => by
      rw [onlyCallsAll, Bool.and_eq_true] at called
      rw [Expr.checkAll]
      apply meets_value (sound_expr provides e readable.1 called.1)
      intro x sound hasValue
      apply (sound_exprs provides rest readable.2 called.2).bind
      exact fun others othersSound =>
        meets_pure (List.forall_mem_cons.mpr ⟨⟨sound, hasValue⟩, othersSound⟩)

theorem sound_args (provides : m.Provides s env) (signature : Signature) (name : String) :
    ∀ (first : Nat) (es : List (Expr Unit)), ReadableAll floats es →
      onlyCallsAll (namesFunction env) es →
        Meets (Expr.checkArgs env signature name first es)
          (fun xs => xs.length = es.length ∧ FittedAll s m signature first xs) fun _ => True
  | _, [], _, _ => meets_pure ⟨rfl, nofun⟩
  | first, e :: rest, readable, called => by
      rw [onlyCallsAll, Bool.and_eq_true] at called
      rw [Expr.checkArgs]
      apply meets_value (sound_expr provides e readable.1 called.1)
      intro x sound hasValue
      apply (fitted_argument sound hasValue signature name first).bind
      intro y fits
      apply (sound_args provides signature name (first + 1) rest readable.2 called.2).bind
      rintro others ⟨length, fitted⟩
      refine meets_pure ⟨congrArg (· + 1) length, fun position arg found => ?_⟩
      cases position with
      | zero =>
          cases found
          exact fits
      | succ position =>
          have further := fitted position arg found
          rwa [Nat.add_right_comm] at further

end

end Typing

/-! ## Whole formulas -/

namespace Machine

variable {m : Machine} {s : Setting Ty}

theorem Ready.lookup?_pushScope (ready : m.Ready) (name : String) :
    m.pushScope.lookup? name = m.lookup? name := by
  have inStore : m.env.current < m.store.frames.size := ready.current ▸ ready.inStore
  have unbound : m.pushScope.store.find? m.store.frames.size name = none := by
    change (m.store.push (some m.env.current)).2.find? _ _ = none
    rw [Store.find?_push, Store.find?, Array.getElem?_eq_none (Nat.le_refl _)]
    rfl
  have around : m.pushScope.store.parent? m.store.frames.size = some m.env.current :=
    Store.parent?_push_self inStore
  have older : m.pushScope.store.resolve? m.env.current name
      = m.store.resolve? m.env.current name :=
    Store.resolve?_congr name fun i notNewer => ⟨Store.find?_push _ _ _ _,
      Store.parent?_push_of_ne _ _ (Nat.ne_of_lt (Nat.lt_of_le_of_lt notNewer inStore))⟩
  change (m.pushScope.store.resolve? m.store.frames.size name).map _ = _
  rw [Store.resolve?_of_unbound unbound around, older]
  rfl

theorem Provides.pushScope {env : TypeEnv} (provides : m.Provides s env) (ready : m.Ready) :
    m.pushScope.Provides s env.child where
  types name := by rw [TypeEnv.lookup_child, ready.lookup?_pushScope, provides.types]
  values name v bound := provides.values name v (ready.lookup?_pushScope name ▸ bound)

theorem Provides.defineGlobal {env : TypeEnv} (provides : m.Provides s env) (ready : m.Ready)
    (name : String) {v : Value} (given : v.Concrete ∨ ∃ f, v = .function f ∧ f.Kept s.hosts) :
    (m.defineGlobal name v).Provides s (env.bind name v.type) where
  types key := by
    rw [ready.lookup?_defineGlobal]
    by_cases isName : key = name
    · rw [if_pos isName, isName, TypeEnv.lookup_bind_self]
      rfl
    · rw [if_neg isName, TypeEnv.lookup_bind_of_ne _ _ isName, provides.types]
  values key w bound := by
    rw [ready.lookup?_defineGlobal] at bound
    split at bound
    · cases bound
      exact given
    · exact provides.values key w bound

theorem provides_atop (store : Store) : (atop store).Provides s .empty where
  types name := by
    rw [lookup?_atop]
    rfl
  values name v bound := by
    rw [lookup?_atop] at bound
    cases bound

/-- A formula that is just an expression comes to what the expression comes to. -/
theorem run_of_reaches {q : TypedProgram} {e : TypedExpr} (noBody : q.body = [])
    (tail : q.tail = some e) {outcome : Except EvalError Value}
    (reaches : Run.Reaches (fun bound => Run.eval s bound e) m.pushScope outcome) :
    ∃ need, ∀ bound, need ≤ bound → (m.run s bound q).1 = outcome.mapError .failed := by
  rcases reaches with ⟨need, reaches⟩
  refine ⟨need + 1, fun bound enough => ?_⟩
  cases bound with
  | zero => omega
  | succ bound =>
      have evaluated : Run.eval s (bound + 1) e m.pushScope = Run.settle outcome m.pushScope :=
        reaches _ (by omega)
      have body : Run.execAll s (bound + 1) q.body = pure .next := by rw [noBody, Run.execAll]
      simp only [run, Run.program, Run.inScope, Run.between, body, tail, pure_bind, id,
        evaluated]
      cases outcome <;> rfl

end Machine

/-- A formula that is just an expression is checked as the expression is. -/
theorem Program.sound_checked {globals : TypeEnv} {s : Setting Ty} {m : Machine}
    {floats : Float → Prop} (provides : m.Provides s globals.child) {e : Expr Unit} (span : Span)
    (readable : e.Readable floats) (called : e.onlyCalls (Typing.namesFunction globals.child)) :
    Check.Meets (Program.checked globals ⟨[], some e, span⟩)
      (fun q => q.body = [] ∧ ∃ e, q.tail = some e ∧ e.Sound s m) fun _ => True := by
  unfold Program.checked
  have noBody : Check.Meets (Stmt.checkAll .outside globals.child [])
      (· = ([], globals.child)) fun _ => True := Check.meets_pure rfl
  apply noBody.bind
  rintro _ rfl
  have tail : Check.Meets (Expr.checkOption globals.child (some e))
      (fun tail => ∃ e, tail = some e ∧ e.Sound s m) fun _ => True :=
    (Typing.sound_expr provides e readable called).bind fun x sound =>
      Check.meets_pure ⟨x, rfl, sound⟩
  exact tail.bind fun _ found => Check.meets_pure ⟨rfl, found⟩

/-- A formula that is one expression, and is checked with the types of what a machine binds,
has a value of the type that was found, or it fails.  A failure is an ordinary one, unless it
comes from an expression with a mixed operand or from a float that is no number. -/
theorem Mode.sound_of_check {source : String} {tokens : TokenList} {output : Parser.Output}
    {globals : TypeEnv} {q : TypedProgram} (lexed : Lexer.tokenize source = .ok tokens)
    (parsed : Mode.expression.parse tokens = .ok output)
    (checked : output.program.check globals = .ok q) {m : Machine} (prepared : m.Prepared)
    {s : Setting Ty} (provides : m.Provides s globals)
    (called : ∀ e ∈ output.program.tail, e.onlyCalls (Typing.namesFunction globals)) :
    ∃ e outcome, q.body = [] ∧ q.tail = some e ∧ q.resultType = e.label ∧
      (∃ need, ∀ bound, need ≤ bound → (m.run s bound q).1 = outcome.mapError .failed) ∧
      Ends q.resultType.Gives (Blames s m.pushScope e.exprs) outcome := by
  rcases Mode.readable_of_parse (Lexer.lexed_of_tokenize lexed) parsed with ⟨readable, fits⟩
  obtain ⟨⟨body, tail, span⟩, exprs, stmts⟩ := output
  rcases fits with ⟨rfl, hasTail⟩
  obtain ⟨e, rfl⟩ := Option.isSome_iff_exists.mp hasTail
  have names : Typing.namesFunction globals.child = Typing.namesFunction globals := by
    funext name
    rw [Typing.namesFunction, Typing.nameType?, TypeEnv.lookup_child]
    rfl
  have inside := provides.pushScope prepared.ready
  have sound := Program.sound_checked inside span (readable.tail e rfl)
    (names.symm ▸ called e rfl)
  rcases sound.of_ok checked with ⟨noBody, e', isTail, sound⟩
  have type : q.resultType = e'.label := by
    rw [Program.resultType, noBody, isTail]
    exact Ty.withFinal_of_isFinal sound.final
  rcases sound.concludes with ⟨outcome, reaches, ends⟩
  exact ⟨e', outcome, noBody, isTail, type, Machine.run_of_reaches noBody isTail reaches,
    type ▸ ends⟩

/-- Any number of values, as an array. -/
def listing : Signature :=
  ⟨[], some Ty.mixed, Ty.arrayOf Ty.mixed none, some .arrayOf⟩

/-- Functions that give their arguments as an array. -/
def listingHosts : Hosts :=
  fun _ args => .ok (.array args)

theorem kept_listing (handle : Nat) : listing.Kept (listingHosts handle) := by
  rintro types args result v - typed - concrete resolved given
  cases resolved
  cases given
  refine ⟨Ty.admits_array_of_forall fun item member => ?_, fun _ =>
    Value.concrete_array.mpr concrete⟩
  rcases Ty.exists_of_admitsAll typed member with ⟨type, inside, h⟩
  exact Ty.admits_common inside (concrete item member).isVoid h

/-- A machine with a number and a function that gives its arguments as an array. -/
def listingMachine : Machine :=
  (bareMachine.defineGlobal "x" (.int 2)).defineGlobal "f" (.function (.host ⟨0, listing⟩))

theorem provides_listingMachine {s : Setting Ty} (hosts : s.hosts = listingHosts) :
    listingMachine.Provides s ((TypeEnv.empty.bind "x" Ty.int).bind "f" listing.type) := by
  have ready : bareMachine.Ready := Machine.ready_atop .empty
  have bare : bareMachine.Provides s .empty := Machine.provides_atop .empty
  have isInt : (Value.int 2).Concrete := Value.every_data rfl Value.concrete_of_isData
  have kept : (Callable.host ⟨0, listing⟩).Kept s.hosts := hosts ▸ kept_listing 0
  exact (bare.defineGlobal ready "x" (.inl isInt)).defineGlobal (ready.defineGlobal _ _) "f"
    (.inr ⟨_, rfl, kept⟩)

/-- The first one of the numbers that a function is given is compared. -/
def comparesFirst : String :=
  "f(x, 3)[0] < 3 ? \"less\" : \"more\""

/-- A formula with a call, an element and a comparison comes to a value of its type. -/
theorem Mode.sound_of_check_listing : ∃ tokens output q,
    Lexer.tokenize comparesFirst = .ok tokens ∧
      Mode.expression.parse tokens = .ok output ∧
      output.program.check ((TypeEnv.empty.bind "x" Ty.int).bind "f" listing.type) = .ok q ∧
      q.resultType = Ty.string ∧
      (listingMachine.run (q.setting .empty listingHosts) 20 q).1 = .ok (.string "less") ∧
      ∃ e outcome, q.body = [] ∧ q.tail = some e ∧ q.resultType = e.label ∧
        (∃ need, ∀ bound, need ≤ bound →
          (listingMachine.run (q.setting .empty listingHosts) bound q).1
            = outcome.mapError .failed) ∧
        Ends q.resultType.Gives
          (Blames (q.setting .empty listingHosts) listingMachine.pushScope e.exprs) outcome := by
  let globals := (TypeEnv.empty.bind "x" Ty.int).bind "f" listing.type
  have ends : (Lexer.tokenize comparesFirst).toOption.bind (fun tokens =>
      (Mode.expression.parse tokens).toOption.bind fun output =>
        (output.program.check globals).toOption.map fun q =>
          (output.program.tail.all (Expr.onlyCalls (Typing.namesFunction globals)), q.resultType,
            (listingMachine.run (q.setting .empty listingHosts) 20 q).1))
      = some (true, Ty.string, .ok (.string "less")) := by cbv
  rcases Option.bind_eq_some_iff.mp ends with ⟨tokens, lexed, ends⟩
  rcases Option.bind_eq_some_iff.mp ends with ⟨output, parsed, ends⟩
  rcases Option.map_eq_some_iff.mp ends with ⟨q, checked, ended⟩
  rcases Prod.mk.inj ended with ⟨called, ended⟩
  rcases Prod.mk.inj ended with ⟨type, ran⟩
  have lexed' := eq_ok_of_toOption lexed
  have parsed' : Mode.expression.parse tokens = .ok output := eq_ok_of_toOption parsed
  have checked' : output.program.check globals = .ok q := eq_ok_of_toOption checked
  have prepared : listingMachine.Prepared := .defineGlobal _ _ (.defineGlobal _ _ (.atop _))
  exact ⟨tokens, output, q, lexed', parsed', checked', type, ran,
    Mode.sound_of_check lexed' parsed' checked' prepared (provides_listingMachine rfl)
      fun e isTail => by
        rw [show output.program.tail = some e from isTail] at called
        exact called⟩

/-- Functions that give an array of nothing. -/
def hollowHosts : Hosts :=
  fun _ _ => .ok (.array [.void])

/-- An array of nothing is a mixed value, but not an array of mixed values, though it is cast
to one. -/
theorem Mode.unsound_of_check : ∃ tokens output q,
    Lexer.tokenize "(mixed[]) f()" = .ok tokens ∧
      Mode.expression.parse tokens = .ok output ∧
      let signature : Signature := ⟨[], some Ty.mixed, Ty.mixed, none⟩
      let globals := TypeEnv.empty.bind "f" signature.type
      let m := bareMachine.defineGlobal "f" (.function (.host ⟨0, signature⟩))
      output.program.check globals = .ok q ∧
      (∀ e ∈ output.program.tail, e.onlyCalls (Typing.namesFunction globals)) ∧
      (∀ args v, hollowHosts 0 args = .ok v → Ty.mixed.admits v ∧ v.Functions fun _ => False) ∧
      (m.run (q.setting .empty hollowHosts) 20 q).1 = .ok (.array [.void]) ∧
      q.resultType.admits (.array [.void]) = false := by
  let signature : Signature := ⟨[], some Ty.mixed, Ty.mixed, none⟩
  let globals := TypeEnv.empty.bind "f" signature.type
  let m := bareMachine.defineGlobal "f" (.function (.host ⟨0, signature⟩))
  have ends : (Lexer.tokenize "(mixed[]) f()").toOption.bind (fun tokens =>
      (Mode.expression.parse tokens).toOption.bind fun output =>
        (output.program.check globals).toOption.map fun q =>
          (output.program.tail.all (Expr.onlyCalls (Typing.namesFunction globals)),
            (m.run (q.setting .empty hollowHosts) 20 q).1, q.resultType.admits (.array [.void])))
      = some (true, .ok (.array [.void]), false) := by cbv
  rcases Option.bind_eq_some_iff.mp ends with ⟨tokens, lexed, ends⟩
  rcases Option.bind_eq_some_iff.mp ends with ⟨output, parsed, ends⟩
  rcases Option.map_eq_some_iff.mp ends with ⟨q, checked, ended⟩
  rcases Prod.mk.inj ended with ⟨called, ended⟩
  rcases Prod.mk.inj ended with ⟨ran, refused⟩
  refine ⟨tokens, output, q, eq_ok_of_toOption lexed, eq_ok_of_toOption parsed,
    eq_ok_of_toOption checked, fun e isTail => ?_, ?_, ran, refused⟩
  · rw [show output.program.tail = some e from isTail] at called
    exact called
  · rintro args v given
    cases given
    exact ⟨rfl, Value.every_array.mpr (List.forall_mem_singleton.mpr Value.functions_void)⟩

end Formulae
