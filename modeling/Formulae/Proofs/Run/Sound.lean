import Formulae.Proofs.Run.Concludes
import Formulae.Proofs.Ty.Finality
import Formulae.Proofs.Typing.Derivation
import Formulae.Proofs.Value.Signatures
import Formulae.Run.Eval

/-!
# Sound expressions

A typed expression is sound if its evaluation leaves the machine alone and ends with a value
of its type or with a failure that it may be blamed for (`Expr.Sound`).  Every form of
expression is sound if its parts are and the rule for its type is followed.
-/

namespace Formulae

/-! ## Failures -/

/-- What a checked expression that is evaluated may be blamed for. -/
inductive Expr.Misfits (s : Setting Ty) (m : Machine) : TypedExpr → EvalFault → Prop
  | operands {node : Node Ty} {op : Operator} {left right : TypedExpr} {k l : ValueKind}
      (mixed : left.label.mentionsMixed || right.label.mentionsMixed) :
      Misfits s m (.binary node op left right) (.binaryMismatch op k l)
  | unordered {node : Node Ty} {op : Operator} {left right : TypedExpr} {v w : Value}
      (isOrdering : op.isOrdering)
      (first : Run.Reaches (fun bound => Run.eval s bound left) m (.ok v))
      (second : Run.Reaches (fun bound => Run.eval s bound right) m (.ok w))
      (isNaN : v.isNaN ∨ w.isNaN) :
      Misfits s m (.binary node op left right) (.binaryMismatch op v.kind w.kind)
  | operand {node : Node Ty} {op : Operator} {operand : TypedExpr} {k : ValueKind}
      (mixed : operand.label.mentionsMixed) :
      Misfits s m (.unary node op operand) (.unaryMismatch op k)
  | receiver {node : Node Ty} {receiver subscript : TypedExpr} {k l : ValueKind}
      (mixed : receiver.label.mentionsMixed || subscript.label.mentionsMixed) :
      Misfits s m (.index node receiver subscript) (.binaryMismatch .index k l)
  | subscript {node : Node Ty} {receiver subscript : TypedExpr} {w : Value}
      (mixed : receiver.label.mentionsMixed || subscript.label.mentionsMixed) :
      Misfits s m (.index node receiver subscript) (.invalidIndex w)
  | callee {node : Node Ty} {callee : TypedExpr} {args : List TypedExpr} {k : ValueKind}
      (mixed : callee.label.mentionsMixed) :
      Misfits s m (.call node callee args) (.notCallable k)

/-- The failure is an ordinary one, or one of the expressions stands where it happened and
is to be blamed for it. -/
def Blames (s : Setting Ty) (m : Machine) (es : List TypedExpr) (error : EvalError) : Prop :=
  error.fault.isOrdinary ∨ ∃ e ∈ es, e.span = error.span ∧ e.Misfits s m error.fault

/-- The expression gives a value of its type or fails as it may, and leaves the machine
alone. -/
structure Expr.Sound (s : Setting Ty) (m : Machine) (e : TypedExpr) : Prop where
  final : e.label.isFinal
  concludes : Run.Concludes (fun bound => Run.eval s bound e) m e.label.Gives
    (Blames s m e.exprs)

section

variable {s : Setting Ty} {m : Machine} {es es' : List TypedExpr} {error : EvalError}

theorem Blames.mono (blames : Blames s m es error) (sub : es ⊆ es') : Blames s m es' error :=
  blames.imp id fun ⟨e, member, misfits⟩ => ⟨e, sub member, misfits⟩

theorem blames_of_ordinary {fault : EvalFault} {span : Span} (h : fault.isOrdinary) :
    Blames s m es ⟨fault, span⟩ :=
  .inl h

theorem Expr.Misfits.blames {e : TypedExpr} {fault : EvalFault} (misfits : e.Misfits s m fault) :
    Blames s m e.exprs ⟨fault, e.span⟩ :=
  .inr ⟨e, List.mem_cons_self, rfl, misfits⟩

theorem Expr.Misfits.withId {e : TypedExpr} {fault : EvalFault} (misfits : e.Misfits s m fault)
    (id : Nat) : (e.withId id).Misfits s m fault := by
  cases misfits with
  | operands mixed => exact .operands mixed
  | unordered isOrdering first second isNaN => exact .unordered isOrdering first second isNaN
  | operand mixed => exact .operand mixed
  | receiver mixed => exact .receiver mixed
  | subscript mixed => exact .subscript mixed
  | callee mixed => exact .callee mixed

theorem Blames.withId {e : TypedExpr} (blames : Blames s m e.exprs error) (id : Nat) :
    Blames s m (e.withId id).exprs error := by
  refine blames.imp (fun ordinary => ordinary) fun ⟨x, member, span, misfits⟩ => ?_
  have parts : (e.withId id).parts = e.parts := by cases e <;> rfl
  rcases List.mem_cons.mp member with rfl | member
  · refine ⟨x.withId id, List.mem_cons_self, ?_, misfits.withId id⟩
    rw [← span]
    cases x <;> rfl
  · exact ⟨x, List.mem_cons_of_mem _ (parts ▸ member), span, misfits⟩

end

theorem Run.eval_withId (s : Setting Ty) (bound : Nat) (e : TypedExpr) (id : Nat) :
    Run.eval s bound (e.withId id) = Run.eval s bound e := by
  cases bound with
  | zero => rfl
  | succ bound =>
      cases e with
      | binary node op left right => cases op <;> first | rfl | (cases bound <;> rfl)
      | call node callee args => cases bound <;> rfl
      | _ => rfl

namespace Expr

variable {s : Setting Ty} {m : Machine} {e left right : TypedExpr}

/-! ## Rules -/

theorem Sound.withId (sound : e.Sound s m) (id : Nat) : (e.withId id).Sound s m where
  final := (label_withId e id).symm ▸ sound.final
  concludes := by
    simp only [Run.eval_withId, label_withId]
    exact sound.concludes.mono (fun _ => fun h => h) fun _ blames => blames.withId id

/-- What a part of an expression comes to. -/
theorem Sound.within {es : List TypedExpr} (sound : e.Sound s m) (sub : e.exprs ⊆ es) :
    Run.Concludes (fun bound => Run.eval s bound e) m e.label.Gives (Blames s m es) :=
  sound.concludes.mono (fun _ gives => gives) fun _ blames => blames.mono sub

theorem sound_constant {node : Node Ty} {constant : Constant} {v : Value}
    (label : node.label = constant.type) (given : constant.value = .ok v)
    (typed : constant.type.admits v) (concrete : v.Concrete) :
    (Expr.constant node constant).Sound s m where
  final := by
    change node.label.isFinal
    rw [label]
    cases constant <;> rfl
  concludes := by
    have located : Run.Concludes (fun _ => Run.located node.span constant.value) m
        node.label.Gives (Blames s m (Expr.constant node constant).exprs) := by
      apply Run.concludes_located
      rw [given, label]
      exact ends_ok ⟨typed, fun _ => concrete⟩
    exact located.deeper fun _ => rfl

theorem sound_ident {node : Node Ty} {name : String} {v : Value} (final : node.label.isFinal)
    (found : Run.fetch name (.unboundVariable name) node.span m = .ok v m)
    (typed : node.label.admits v) (concrete : v.Concrete) :
    (Expr.ident node name).Sound s m where
  final := final
  concludes := ⟨.ok v, ⟨1, fun bound enough => by
    cases bound with
    | zero => omega
    | succ bound => exact found⟩, ends_ok ⟨typed, fun _ => concrete⟩⟩

theorem sound_unary (sound : e.Sound s m) {node : Node Ty} {op : Operator}
    (result : Ty.unaryResult? op e.label = some node.label) :
    (Expr.unary node op e).Sound s m where
  final := Ty.isFinal_unaryResult? result
  concludes := by
    have evaluated : Run.Concludes
        (fun bound => do
          let value ← Run.eval s bound e
          Run.located node.span (value.unary op)) m
        node.label.Gives (Blames s m (Expr.unary node op e).exprs) := by
      apply (sound.within (List.subset_cons_self _ _)).bind
      intro v gives
      apply Run.concludes_located
      have parts := Value.givesData_unary op v
      apply ((Value.unary_typed result gives.1).and parts).mono
      · exact fun r ⟨typed, data⟩ => ⟨typed, fun _ => data.mono Value.concrete_of_isData⟩
      · rintro fault ⟨ordinary | ⟨mixed, k, rfl⟩, -⟩
        · exact blames_of_ordinary ordinary
        · exact Misfits.blames (.operand mixed)
    exact evaluated.deeper fun _ => rfl

section

variable {node : Node Ty} {op : Operator}

theorem subset_left : left.exprs ⊆ (Expr.binary node op left right).exprs :=
  fun _ member => List.mem_cons_of_mem _ (List.mem_append_left _ member)

theorem subset_right : right.exprs ⊆ (Expr.binary node op left right).exprs :=
  fun _ member => List.mem_cons_of_mem _ (List.mem_append_right _ member)

/-- An operator that needs the values of both operands. -/
theorem concludes_operands (first : left.Sound s m) (second : right.Sound s m) (isInfix : op.IsInfix) (noCast : op ≠ .typeCast)
    (noAssignment : op.isAssignment = false)
    (result : Ty.binaryResult? op left.label right.label = some node.label) :
    Run.Concludes
      (fun bound => do
        let x ← Run.eval s bound left
        let y ← Run.eval s bound right
        Run.located node.span (x.binary op y)) m
      node.label.Gives (Blames s m (Expr.binary node op left right).exprs) := by
  apply (first.within subset_left).reached.bind
  rintro v ⟨gives, reached⟩
  apply (second.within subset_right).reached.bind
  rintro w ⟨gives', reached'⟩
  apply Run.concludes_located
  have parts := Value.givesData_binary op v w
  apply ((Value.binary_typed isInfix noCast noAssignment result gives.1 gives'.1).and parts).mono
  · exact fun r ⟨typed, data⟩ => ⟨typed, fun _ => data.mono Value.concrete_of_isData⟩
  · rintro fault ⟨(ordinary | ⟨mixed, k, l, rfl⟩) | ⟨isOrdering, rfl, isNaN⟩, -⟩
    · exact blames_of_ordinary ordinary
    · exact Misfits.blames (.operands mixed)
    · exact Misfits.blames (.unordered isOrdering reached reached' isNaN)

end

theorem sound_binary (first : left.Sound s m) (second : right.Sound s m) {node : Node Ty}
    {op : Operator} (isInfix : op.IsInfix) (noCast : op ≠ .typeCast)
    (noAssignment : op.isAssignment = false)
    (result : Ty.binaryResult? op left.label right.label = some node.label) :
    (Expr.binary node op left right).Sound s m where
  final := Ty.isFinal_binaryResult? isInfix noCast noAssignment result
  concludes := by
    have truth (isLogical : op.isLogical) (b : Bool) : node.label.Gives (.bool b) := by
      have isBoolean : node.label = Ty.boolean := by
        unfold Ty.binaryResult? at result
        split at result
        · cases result
        · cases op with
          | and | or | xor => exact (Option.some.inj result).symm
          | not => cases result
          | _ => cases isLogical
      rw [isBoolean]
      exact ⟨rfl, fun _ => Value.every_data rfl Value.concrete_of_isData⟩
    have both := concludes_operands first second isInfix noCast noAssignment result
    cases op with
    | typeCast => exact absurd rfl noCast
    | assign | addAssign | subAssign | mulAssign | divAssign => cases noAssignment
    | and =>
        have shortened : Run.Concludes
            (fun bound => do
              if (← Run.eval s bound left).isTruthy then
                return .bool (← Run.eval s bound right).isTruthy
              else return .bool false) m
            node.label.Gives (Blames s m (Expr.binary node .and left right).exprs) := by
          apply (first.within subset_left).bind
          intro v _
          cases v.isTruthy with
          | true => exact (second.within subset_right).bind fun w _ =>
              Run.concludes_pure (truth rfl _)
          | false => exact Run.concludes_pure (truth rfl _)
        exact shortened.deeper fun _ => rfl
    | or =>
        have shortened : Run.Concludes
            (fun bound => do
              if (← Run.eval s bound left).isTruthy then return .bool true
              else return .bool (← Run.eval s bound right).isTruthy) m
            node.label.Gives (Blames s m (Expr.binary node .or left right).exprs) := by
          apply (first.within subset_left).bind
          intro v _
          cases v.isTruthy with
          | true => exact Run.concludes_pure (truth rfl _)
          | false => exact (second.within subset_right).bind fun w _ =>
              Run.concludes_pure (truth rfl _)
        exact shortened.deeper fun _ => rfl
    | _ => exact both.deeper fun _ => rfl

/-- A cast to a type that can be written gives a value of the type. -/
theorem sound_cast (sound : e.Sound s m) (hasValue : e.HasValue) {node literal : Node Ty}
    {written : TypeExpr} (final : node.label.isFinal) (same : node.label.plain = Ty.ofExpr written) :
    (Expr.binary node .typeCast e (.typeLiteral literal written)).Sound s m where
  final := final
  concludes := by
    have evaluated : Run.Concludes
        (fun bound => do
          let value ← Run.eval s bound e
          Run.located node.span (Value.cast (Ty.ofExpr written) value)) m
        node.label.Gives
        (Blames s m (Expr.binary node .typeCast e (.typeLiteral literal written)).exprs) := by
      apply (sound.within subset_left).bind
      intro v gives
      apply Run.concludes_located
      have concrete := gives.2 hasValue
      have parts := Value.gives_cast Value.concrete_of_isData (Ty.ofExpr written) concrete
      apply ((Value.cast_typed (Ty.ofExpr written) concrete).and parts).mono
      · intro r ⟨typed, concrete⟩
        rw [← same, Ty.admits_plain] at typed
        exact ⟨typed, fun _ => concrete⟩
      · exact fun fault ⟨ordinary, _⟩ => blames_of_ordinary ordinary
    have cast : Run.Concludes (fun bound => Run.evalCast s bound node e (.typeLiteral literal written))
        m node.label.Gives
        (Blames s m (Expr.binary node .typeCast e (.typeLiteral literal written)).exprs) :=
      evaluated.deeper fun _ => rfl
    exact cast.deeper fun _ => rfl

/-- A choice has the values of both branches. -/
theorem sound_ternary {cond thenBranch elseBranch : TypedExpr} (condSound : cond.Sound s m)
    (thenSound : thenBranch.Sound s m) (elseSound : elseBranch.Sound s m) {node : Node Ty}
    (final : node.label.isFinal) (fromThen : ∀ v, thenBranch.label.Gives v → node.label.Gives v)
    (fromElse : ∀ v, elseBranch.label.Gives v → node.label.Gives v) :
    (Expr.ternary node cond thenBranch elseBranch).Sound s m where
  final := final
  concludes := by
    have condParts : cond.exprs ⊆ (Expr.ternary node cond thenBranch elseBranch).exprs :=
      fun _ member => List.mem_cons_of_mem _ (List.mem_append_left _ (List.mem_append_left _ member))
    have thenParts : thenBranch.exprs ⊆ (Expr.ternary node cond thenBranch elseBranch).exprs :=
      fun _ member => List.mem_cons_of_mem _ (List.mem_append_left _ (List.mem_append_right _ member))
    have elseParts : elseBranch.exprs ⊆ (Expr.ternary node cond thenBranch elseBranch).exprs :=
      fun _ member => List.mem_cons_of_mem _ (List.mem_append_right _ member)
    have chosen : Run.Concludes
        (fun bound => do
          if (← Run.eval s bound cond).isTruthy then Run.eval s bound thenBranch
          else Run.eval s bound elseBranch) m
        node.label.Gives (Blames s m (Expr.ternary node cond thenBranch elseBranch).exprs) := by
      apply (condSound.within condParts).bind
      intro v _
      cases v.isTruthy with
      | true => exact (thenSound.within thenParts).mono fromThen fun _ blames => blames
      | false => exact (elseSound.within elseParts).mono fromElse fun _ blames => blames
    exact chosen.deeper fun _ => rfl

theorem sound_index {receiver subscript : TypedExpr} (first : receiver.Sound s m)
    (second : subscript.Sound s m) (hasValue : receiver.HasValue) {node : Node Ty}
    (result : receiver.label.element? subscript.label = some node.label) :
    (Expr.index node receiver subscript).Sound s m where
  final := Ty.isFinal_element? first.final result
  concludes := by
    have receiverParts : receiver.exprs ⊆ (Expr.index node receiver subscript).exprs :=
      fun _ member => List.mem_cons_of_mem _ (List.mem_append_left _ member)
    have subscriptParts : subscript.exprs ⊆ (Expr.index node receiver subscript).exprs :=
      fun _ member => List.mem_cons_of_mem _ (List.mem_append_right _ member)
    have evaluated : Run.Concludes
        (fun bound => do
          let x ← Run.eval s bound receiver
          let y ← Run.eval s bound subscript
          Run.located node.span (x.element y)) m
        node.label.Gives (Blames s m (Expr.index node receiver subscript).exprs) := by
      apply (first.within receiverParts).bind
      intro v gives
      apply (second.within subscriptParts).bind
      intro w gives'
      apply Run.concludes_located
      have concrete := gives.2 hasValue
      have parts := @Value.gives_element _ Value.concrete_of_isData v w concrete
      apply ((Value.element_typed result gives.1 gives'.1 concrete).and parts).mono
      · exact fun r ⟨typed, concrete⟩ => ⟨typed, fun _ => concrete⟩
      · rintro fault ⟨ordinary | ⟨mixed, ⟨k, l, rfl⟩ | ⟨w, rfl⟩⟩, -⟩
        · exact blames_of_ordinary ordinary
        · exact Misfits.blames (.receiver mixed)
        · exact Misfits.blames (.subscript mixed)
    exact evaluated.deeper fun _ => rfl

/-! ## Several expressions -/

theorem concludes_evalAll {es : List TypedExpr} (sound : ∀ e ∈ es, e.Sound s m ∧ e.HasValue) :
    Run.Concludes (fun bound => Run.evalAll s bound es) m
      (fun vs => Ty.admitsAll (es.map label) vs ∧ ∀ v ∈ vs, v.Concrete)
      (Blames s m (exprsAll es)) := by
  induction es with
  | nil =>
      have nothing : Run.Concludes (fun _ => pure []) m
          (fun vs => Ty.admitsAll [] vs ∧ ∀ v ∈ vs, v.Concrete) (Blames s m []) :=
        Run.concludes_pure ⟨rfl, List.forall_mem_nil _⟩
      exact nothing.deeper fun _ => rfl
  | cons e rest inductionHypothesis =>
      rw [List.forall_mem_cons] at sound
      have evaluated : Run.Concludes
          (fun bound => do
            let first ← Run.eval s bound e
            let others ← Run.evalAll s bound rest
            return first :: others) m
          (fun vs => Ty.admitsAll ((e :: rest).map label) vs ∧ ∀ v ∈ vs, v.Concrete)
          (Blames s m (exprsAll (e :: rest))) := by
        apply (sound.1.1.within (List.subset_append_left _ _)).bind
        intro v gives
        have later := (inductionHypothesis sound.2).mono (fun _ given => given) fun _ blames =>
          Blames.mono blames (List.subset_append_right (e :: e.parts) (exprsAll rest))
        apply later.bind
        rintro vs ⟨typed, concrete⟩
        refine Run.concludes_pure ⟨?_, List.forall_mem_cons.mpr ⟨gives.2 sound.1.2, concrete⟩⟩
        exact Bool.and_eq_true .. ▸ ⟨gives.1, typed⟩
      exact evaluated.deeper fun _ => rfl

theorem sound_array {items : List TypedExpr} (sound : ∀ e ∈ items, e.Sound s m ∧ e.HasValue)
    {node : Node Ty} {element : Ty} {length : Option Nat}
    (result : node.label = .arrayOf element length)
    (each : ∀ e ∈ items, ∀ v, e.label.admits v → element.admits v) :
    (Expr.array node items).Sound s m where
  final := by
    change node.label.isFinal
    rw [result]
    rfl
  concludes := by
    have evaluated : Run.Concludes
        (fun bound => do
          return Value.array (← Run.evalAll s bound items)) m
        node.label.Gives (Blames s m (Expr.array node items).exprs) := by
      have values := (concludes_evalAll sound).mono (fun _ given => given) fun _ blames =>
        Blames.mono blames (List.subset_cons_self (Expr.array node items) (exprsAll items))
      apply values.bind
      intro vs ⟨typed, concrete⟩
      apply Run.concludes_pure
      rw [result]
      refine ⟨Ty.admits_array_of_forall fun v member => ?_, fun _ =>
        Value.concrete_array.mpr concrete⟩
      rcases Ty.exists_of_admitsAll typed member with ⟨type, inside, h⟩
      rcases List.mem_map.mp inside with ⟨e, isItem, rfl⟩
      exact each e isItem v h
    exact evaluated.deeper fun _ => rfl

end Expr

/-! ## Functions -/

/-- The function was not declared in a formula, and it keeps to its signature. -/
def Callable.Kept (hosts : Hosts) : Callable → Prop
  | .declared _ => False
  | .builtin _ => True
  | .host f => f.signature.Kept (hosts f.handle)

/-- What the machine binds has the types that are known for it: concrete values, and
functions that keep to their signatures. -/
structure Machine.Provides (m : Machine) (s : Setting Ty) (env : TypeEnv) : Prop where
  types : ∀ name, env.lookup name = (m.lookup? name).map Value.type
  values : ∀ name v, m.lookup? name = some v →
    v.Concrete ∨ ∃ f, v = .function f ∧ f.Kept s.hosts

/-- The name is that of a function. -/
def Typing.namesFunction (env : TypeEnv) (name : String) : Bool :=
  (Typing.nameType? env name).any fun type => type.signature?.isSome

namespace Machine.Provides

variable {m : Machine} {s : Setting Ty} {env : TypeEnv} (provides : m.Provides s env)
  {name : String} {type : Ty} (known : Typing.nameType? env name = some type)
  (missing : EvalFault) (span : Span)
include provides known

theorem isFinal_name : type.isFinal := by
  rw [Typing.nameType?, provides.types] at known
  cases bound : m.lookup? name with
  | some v =>
      rw [bound] at known
      cases known
      exact v.isFinal_type
  | none =>
      rw [bound] at known
      rcases Option.map_eq_some_iff.mp known with ⟨function, -, rfl⟩
      rfl

/-- A name of no function is bound to a value of its type. -/
theorem fetch_value (noFunction : type.signature? = none) :
    ∃ v, Run.fetch name missing span m = .ok v m ∧ type.admits v ∧ v.Concrete := by
  rw [Typing.nameType?, provides.types] at known
  unfold Run.fetch
  cases bound : m.lookup? name with
  | some v =>
      rw [bound] at known
      cases known
      rcases provides.values name v bound with concrete | ⟨f, rfl, kept⟩
      · exact ⟨v, rfl, Value.type_admits concrete, concrete⟩
      · cases f with
        | declared => exact kept.elim
        | builtin | host => cases noFunction
  | none =>
      rw [bound] at known
      rcases Option.map_eq_some_iff.mp known with ⟨function, -, rfl⟩
      cases noFunction

/-- A name of a function is bound to one that keeps to the signature. -/
theorem fetch_function {signature : Signature} (isFunction : type.signature? = some signature) :
    ∃ f, Run.fetch name missing span m = .ok (.function f) m ∧ f.Kept s.hosts ∧
      (Value.function f).type.signature? = some signature := by
  rw [Typing.nameType?, provides.types] at known
  unfold Run.fetch
  cases bound : m.lookup? name with
  | some v =>
      rw [bound] at known
      cases known
      rcases provides.values name v bound with concrete | ⟨f, rfl, kept⟩
      · rw [Value.signature?_type_of_concrete concrete] at isFunction
        cases isFunction
      · exact ⟨f, rfl, kept, isFunction⟩
  | none =>
      rw [bound] at known
      rcases Option.map_eq_some_iff.mp known with ⟨function, found, rfl⟩
      exact ⟨.builtin function, by simp only [found], trivial, isFunction⟩

end Machine.Provides

namespace Expr

variable {s : Setting Ty} {m : Machine} {callee : TypedExpr} {args : List TypedExpr}
  {node : Node Ty}

/-- What is called, as it is looked up or evaluated. -/
def calleeValue (s : Setting Ty) (bound : Nat) : TypedExpr → Run Value
  | .ident node name => Run.fetch name (.unresolvedMethod name) node.span
  | other => Run.eval s bound other

theorem concludes_call {good called : Value → Prop} {given : List Value → Prop}
    {bad : EvalError → Prop}
    (function : Run.Concludes (fun bound => calleeValue s bound callee) m called bad)
    (values : Run.Concludes (fun bound => Run.evalAll s bound args) m given bad)
    (applied : ∀ f vs, called f → given vs → Run.Concludes
      (fun bound => Run.apply s bound callee.calleeName f vs node.span) m good bad) :
    Run.Concludes (fun bound => Run.eval s bound (.call node callee args)) m good bad := by
  have called : Run.Concludes
      (fun bound => do
        let f ← calleeValue s bound callee
        let vs ← Run.evalAll s bound args
        Run.apply s bound callee.calleeName f vs node.span) m good bad :=
    function.bind fun f isCalled => values.bind fun vs areGiven => applied f vs isCalled areGiven
  have call : Run.Concludes (fun bound => Run.evalCall s bound node callee args) m good bad :=
    called.deeper fun _ => by cases callee <;> rfl
  exact call.deeper fun _ => rfl

/-- A callee that has a value may as well be looked up as one that is called. -/
theorem Sound.calleeValue (sound : callee.Sound s m) :
    Run.Concludes (fun bound => calleeValue s bound callee) m callee.label.Gives
      (Blames s m callee.exprs) := by
  cases callee with
  | ident node name =>
      rcases sound.concludes with ⟨outcome, ⟨need, reaches⟩, ends⟩
      have reached : Run.fetch name (.unboundVariable name) node.span m = Run.settle outcome m :=
        reaches (need + 1) (Nat.le_succ need)
      unfold Run.fetch at reached
      refine ⟨outcome, ⟨0, fun bound _ => ?_⟩, ends⟩
      change Run.fetch name (.unresolvedMethod name) node.span m = _
      unfold Run.fetch
      cases bound : m.lookup? name with
      | some v => rw [bound] at reached; exact reached
      | none =>
          rw [bound] at reached
          cases builtin : Builtin.ofName? name with
          | some function => rw [builtin] at reached; exact reached
          | none =>
              rw [builtin] at reached
              cases outcome with
              | ok => cases reached
              | error error =>
                  cases reached
                  rcases ends with ordinary | ⟨e, -, -, misfits⟩
                  · cases ordinary
                  · cases misfits
  | _ => exact sound.concludes

/-- The arguments fit the parameters if their types do. -/
theorem fits_of_admitsAll {params : Nat → Option Ty} {vs : List Value}
    (typed : Ty.admitsAll (args.map label) vs)
    (fits : ∀ position arg, args[position]? = some arg →
      ∃ param, params position = some param ∧ ∀ v, arg.label.admits v → param.admits v) :
    ∀ position v, vs[position]? = some v →
      ∃ param, params position = some param ∧ param.admits v := by
  induction vs generalizing args params with
  | nil => nofun
  | cons v vs inductionHypothesis =>
      cases args with
      | nil => cases typed
      | cons arg args =>
          rw [List.map_cons, Ty.admitsAll, Bool.and_eq_true] at typed
          intro position w found
          cases position with
          | zero =>
              cases found
              rcases fits 0 arg rfl with ⟨param, isParam, sub⟩
              exact ⟨param, isParam, sub v typed.1⟩
          | succ position =>
              exact @inductionHypothesis args (fun position => params (position + 1)) typed.2
                (fun position arg found => fits (position + 1) arg found) position w found

/-- A function that keeps to its signature gives a value of the type of the call, or fails for
an ordinary reason. -/
theorem concludes_apply {f : Callable} (kept : f.Kept s.hosts) {signature : Signature}
    (isFunction : (Value.function f).type.signature? = some signature) {types : List Ty}
    {vs : List Value} {result : Ty} (arity : signature.acceptsArity vs.length)
    (typed : Ty.admitsAll types vs)
    (fits : ∀ position v, vs[position]? = some v →
      ∃ param, signature.param? position = some param ∧ param.admits v)
    (concrete : ∀ v ∈ vs, v.Concrete) (resolved : signature.result? types = some result)
    (name : String) (span : Span) (es : List TypedExpr) :
    Run.Concludes (fun bound => Run.apply s bound name (.function f) vs span) m result.Gives
      (Blames s m es) := by
  cases f with
  | declared => exact kept.elim
  | builtin function =>
      cases isFunction
      have located : Run.Concludes (fun _ => Run.located span (function.call vs)) m result.Gives
          (Blames s m es) := by
        apply Run.concludes_located
        exact (function.call_typed arity typed fits concrete resolved).mono
          (fun v given => ⟨given.1, fun _ => given.2⟩) fun _ => blames_of_ordinary
      exact located.deeper fun _ => rfl
  | host f =>
      cases isFunction
      cases given : s.hosts f.handle vs with
      | ok v =>
          have gives := kept types vs result v arity typed fits concrete resolved given
          have ended : Run.Concludes (fun _ => pure v) m result.Gives (Blames s m es) :=
            Run.concludes_pure gives
          exact ended.deeper fun _ => by rw [Run.apply, given]
      | error reason =>
          have failed : Run.Concludes (fun _ => Run.fail (.hostFailure name reason) span) m
              result.Gives (Blames s m es) :=
            Run.concludes_fail (blames_of_ordinary rfl)
          exact failed.deeper fun _ => by rw [Run.apply, given]

/-- The values of the arguments of a call. -/
theorem concludes_args (sound : ∀ arg ∈ args, arg.Sound s m ∧ arg.HasValue) :
    Run.Concludes (fun bound => Run.evalAll s bound args) m
      (fun vs => Ty.admitsAll (args.map label) vs ∧ ∀ v ∈ vs, v.Concrete)
      (Blames s m (Expr.call node callee args).exprs) :=
  (concludes_evalAll sound).mono (fun _ given => given) fun _ blames =>
    blames.mono fun _ member => List.mem_cons_of_mem _ (List.mem_append_right _ member)

/-- A call of a function by its name. -/
theorem sound_call_function {calleeNode : Node Ty} {name : String} {f : Callable}
    (found : Run.fetch name (.unresolvedMethod name) calleeNode.span m = .ok (.function f) m)
    (kept : f.Kept s.hosts) {signature : Signature}
    (isFunction : (Value.function f).type.signature? = some signature)
    (arity : signature.acceptsArity args.length)
    (sound : ∀ arg ∈ args, arg.Sound s m ∧ arg.HasValue)
    (fits : ∀ position arg, args[position]? = some arg →
      ∃ param, signature.param? position = some param ∧ ∀ v, arg.label.admits v → param.admits v)
    (resolved : signature.result? (args.map label) = some node.label) :
    (Expr.call node (.ident calleeNode name) args).Sound s m where
  final := Signature.isFinal_result? resolved
  concludes := by
    have function : Run.Concludes (fun bound => calleeValue s bound (.ident calleeNode name)) m
        (· = .function f) (Blames s m (Expr.call node (.ident calleeNode name) args).exprs) :=
      ⟨.ok (.function f), ⟨0, fun _ _ => found⟩, ends_ok rfl⟩
    apply concludes_call function (concludes_args sound)
    rintro _ vs rfl ⟨typed, concrete⟩
    have length : args.length = vs.length := by
      rw [← Ty.length_of_admitsAll typed, List.length_map]
    exact concludes_apply kept isFunction (length ▸ arity) typed (fits_of_admitsAll typed fits)
      concrete resolved _ _ _

/-- What is no function cannot be called.  An expression whose type is that of functions has
no value. -/
theorem sound_call_value (callee' : callee.Sound s m) (hasValue : callee.HasValue)
    (callable : callee.label.signature?.isSome ∨ callee.label.isMixed)
    (sound : ∀ arg ∈ args, arg.Sound s m ∧ arg.HasValue) (final : node.label.isFinal) :
    (Expr.call node callee args).Sound s m where
  final := final
  concludes := by
    have function : Run.Concludes (fun bound => calleeValue s bound callee) m callee.label.Gives
        (Blames s m (Expr.call node callee args).exprs) :=
      callee'.calleeValue.mono (fun _ gives => gives) fun _ blames => blames.mono fun _ member =>
        List.mem_cons_of_mem _ (List.mem_append_left _ member)
    apply concludes_call function (concludes_args sound)
    rintro v vs gives -
    have concrete := gives.2 hasValue
    have isMixed : callee.label.isMixed := by
      refine callable.resolve_left fun isFunction => ?_
      have typed := gives.1
      revert isFunction typed
      cases callee.label <;> cases v <;>
        first | exact fun _ _ => concrete.not_function | exact nofun
    have failed : Run.Concludes (fun _ => (Run.fail (.notCallable v.kind) node.span : Run Value)) m
        node.label.Gives (Blames s m (Expr.call node callee args).exprs) :=
      Run.concludes_fail (Misfits.blames (.callee (Ty.mentionsMixed_of_isMixed isMixed)))
    apply failed.deeper
    intro bound
    cases v with
    | function f => exact concrete.not_function.elim
    | _ => rfl

end Expr

end Formulae
