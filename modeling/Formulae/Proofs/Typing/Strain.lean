import Formulae.Proofs.Tree.Readable
import Formulae.Proofs.Typing.Derivation

/-!
# Where checking relies on more than it ensures

Checking takes for granted that casts have a type, that parameters are there and that types to
which it casts can be written.  The first two hold of all trees that source can give.  The third
holds of declared and returned values, of choices and of arrays; it fails only where a mixed value
is assigned to a place, or given for a parameter, of a type that cannot be written
(`Typing.reports_expr`).
-/

namespace Formulae

/-! ## Types that can be written -/

namespace Ty

/-- A type to which values convert can be written. -/
theorem toExpr?_ne_none_of_convertsFrom {target source : Ty}
    (converts : target.convertsFrom source) : target.toExpr? ≠ none := by
  fun_induction convertsFrom target source with
  | case1 => exact Option.some_ne_none _
  | case2 a m _ b _ _ inductionHypothesis =>
      rw [toExpr?, ne_eq, Option.map_eq_none_iff]
      exact inductionHypothesis converts
  | case3 => cases converts

end Ty

namespace Typing

open Check

variable {β γ : Type} {env : TypeEnv}

/-- The bugs that the check reports are all of one kind: a type to which a value is cast cannot be
written.  For each of them `strains` says which type and where. -/
def Reports (strains : Ty → Span → Prop) (x : Check β) : Prop :=
  Meets x (fun _ => True) fun error => ∀ cause, error.fault = .bug cause →
    ∃ target, cause = .unwritableCast target ∧ strains target error.span

/-- The check reports no bugs. -/
def Silent (x : Check β) : Prop :=
  Reports (fun _ _ => False) x

section

variable {strains strains' : Ty → Span → Prop}

theorem reports_pure (value : β) : Reports strains (pure value) :=
  meets_pure trivial

theorem reports_fail {fault : TypeFault} {span : Span} (known : ∀ cause, fault ≠ .bug cause) :
    Reports strains (fail fault span : Check β) :=
  meets_fail fun cause isBug => absurd isBug (known cause)

theorem reports_fresh : Reports strains fresh :=
  meets_fresh fun _ => trivial

theorem Reports.bind {x : Check β} {f : β → Check γ} (first : Reports strains x)
    (second : ∀ value, Gives x value → Reports strains (f value)) : Reports strains (x >>= f) :=
  Meets.bind first.gives second

theorem Reports.mono {x : Check β} (reports : Reports strains x)
    (more : ∀ target span, strains target span → strains' target span) : Reports strains' x :=
  Meets.mono reports (fun _ _ => trivial) fun error explained cause isBug => by
    rcases explained cause isBug with ⟨target, isCast, strain⟩
    exact ⟨target, isCast, more target error.span strain⟩

theorem Silent.reports {x : Check β} (silent : Silent x) : Reports strains x :=
  Reports.mono silent fun _ _ => False.elim

theorem Ordinary.reports {x : Check β} (ordinary : Ordinary x) : Reports strains x :=
  Meets.mono ordinary (fun _ _ => trivial) fun error isOrdinary cause isBug => by
    rw [isBug] at isOrdinary
    cases isOrdinary

/-- A last step that makes a node of what was checked. -/
theorem Reports.thenPure {x : Check β} {f : β → γ} (first : Reports strains x) :
    Reports strains (x >>= fun value => pure (f value)) :=
  first.bind fun value _ => reports_pure (f value)

/-- A first step that rejects, or hands on what it was given. -/
theorem Reports.bindSelf {x : Check β} {given : β} {f : β → Check γ} (ordinary : Ordinary x)
    (hands : Meets x (· = given) fun _ => True) (next : Reports strains (f given)) :
    Reports strains (x >>= f) :=
  ordinary.reports.bind fun value found => by
    rw [hands.of_gives found]
    exact next

end

/-! ## Rules -/

section

variable {e : TypedExpr} {target : Ty} {strains : Ty → Span → Prop}

/-- What is read as a date or a duration is not mixed, and stands where it stood. -/
theorem Reads.cases {read : TypedExpr} (reads : Reads e read) :
    read = e ∨ read.label.isMixed = false ∧ read.span = e.span := by
  rcases reads with same | literal
  · exact .inl same
  · right
    unfold calendarLiteral? at literal
    split at literal
    · rcases Option.map_eq_some_iff.mp literal with ⟨value, isValue, rfl⟩
      unfold calendarConstant? at isValue
      split at isValue
      · cases isValue
        exact ⟨rfl, rfl⟩
      · split at isValue <;> cases isValue
        exact ⟨rfl, rfl⟩
    · cases literal

theorem reports_insertCast (target : Ty) (e : TypedExpr) :
    Reports (fun type span => type = target ∧ type.toExpr? = none ∧ span = e.span)
      (insertCast target e) := by
  unfold insertCast
  split
  · next isNone =>
      apply meets_fail
      rintro _ ⟨rfl⟩
      exact ⟨target, rfl, rfl, isNone, rfl⟩
  · apply reports_fresh.bind
    intro moved _
    exact reports_fresh.thenPure

theorem silent_insertCast (writable : target.toExpr? ≠ none) : Silent (insertCast target e) :=
  (reports_insertCast target e).mono fun _ _ ⟨isTarget, isNone, _⟩ =>
    absurd (isTarget ▸ isNone) writable

/-- A place whose type cannot be written strains only a value that is cast for being mixed, or in
a declaration. -/
theorem reports_coerce (fit : Fit) (target : Ty) (e : TypedExpr) :
    Reports (fun type span => type = target ∧ type.toExpr? = none ∧ span = e.span ∧
      (fit = .castable ∨ e.label.isMixed)) (coerce fit target e) := by
  simp only [coerce]
  split
  · split
    · next converts =>
        exact (silent_insertCast (Ty.toExpr?_ne_none_of_convertsFrom converts)).reports
    · exact reports_pure _
  · split
    · next isCast =>
        simp only [Bool.and_eq_true, Bool.or_eq_true, decide_eq_true_eq] at isCast
        apply (reports_insertCast target (readFor target e)).mono
        rintro type span ⟨isTarget, isNone, rfl⟩
        rcases (reads_readFor target e).cases with same | ⟨notMixed, sameSpan⟩
        · rw [same] at isCast ⊢
          exact ⟨isTarget, isNone, rfl, isCast.1⟩
        · rw [notMixed] at isCast
          exact ⟨isTarget, isNone, sameSpan, .inl (by simpa using isCast.1)⟩
    · exact (ordinary_fail rfl).reports

/-- A mixed value for a place whose type cannot be written is always reported as a bug. -/
theorem coerce_of_unwritable (unwritable : target.toExpr? = none)
    (isMixed : e.label.isMixed) :
    coerce .accepted target e = fail (.bug (.unwritableCast target)) e.span := by
  obtain ⟨f, isLabel⟩ : ∃ f, e.label = .basic .mixed f := by
    cases label : e.label with
    | basic type f =>
        rw [label] at isMixed
        cases type <;> first | exact ⟨f, rfl⟩ | cases isMixed
    | _ =>
        rw [label] at isMixed
        cases isMixed
  have unread : readFor target e = e := by
    cases target <;> first | rfl | cases unwritable
  have refused : target.accepts (.basic .mixed f) = false := by
    cases target <;> first | rfl | cases unwritable
  have castable : (Ty.basic .mixed f).castableTo target := by
    cases target <;> first | rfl | cases unwritable
  simp only [coerce, unread, isLabel, refused, castable, insertCast, unwritable]
  rfl

theorem silent_coerce (fit : Fit) (writable : target.toExpr? ≠ none) (e : TypedExpr) :
    Silent (coerce fit target e) :=
  (reports_coerce fit target e).mono fun _ _ ⟨isTarget, isNone, _⟩ =>
    absurd (isTarget ▸ isNone) writable

theorem silent_widen (target : Ty) (e : TypedExpr) : Silent (widen target e) := by
  unfold widen
  split
  · next converts => exact silent_insertCast (Ty.toExpr?_ne_none_of_convertsFrom converts)
  · exact reports_pure e

theorem meets_assignable_self (node : Bare) (target : TypedExpr) :
    Meets (assignable node target) (· = target) fun _ => True := by
  unfold assignable
  split
  · exact meets_fail trivial
  · exact meets_pure rfl

/-- A value that is looked at once it is known to be one. -/
theorem Reports.value {x : Check TypedExpr} {f : TypedExpr → Check γ} (first : Reports strains x)
    (second : ∀ e, Gives x e → Reports strains (f e)) :
    Reports strains (x >>= fun e => requireValue e >>= f) :=
  first.bind fun e given => .bindSelf (ordinary_requireValue e)
    ((meets_requireValue e).mono (fun _ value => value.1) fun _ => id) (second e given)

theorem silent_ternary (node : Bare) (cond thenBranch elseBranch : TypedExpr) :
    Silent (ternary node cond thenBranch elseBranch) := by
  simp only [ternary]
  split
  · exact reports_pure _
  · split
    · exact (silent_widen _ _).thenPure
    · split
      · exact (silent_widen _ _).thenPure
      · exact reports_pure _

theorem silent_mapM {rule : β → Check γ} (silent : ∀ x, Silent (rule x)) (xs : List β) :
    Silent (xs.mapM rule) := by
  induction xs with
  | nil => exact reports_pure []
  | cons x rest inductionHypothesis =>
      rw [List.mapM_cons]
      exact (silent x).bind fun _ _ => inductionHypothesis.thenPure

theorem silent_array (node : Bare) (items : List TypedExpr) : Silent (array node items) := by
  simp only [array]
  exact (silent_mapM (silent_widen _) items).thenPure

theorem silent_ident (env : TypeEnv) (node : Bare) (name : String) :
    Silent (ident env node name) := by
  unfold ident
  split
  · exact reports_pure _
  · exact reports_fail fun _ isBug => by cases isBug

/-- Only a plain assignment casts what is assigned. -/
theorem reports_assignment (node : Bare) (op : Operator) (target value : TypedExpr) :
    Reports (fun type span => op.compoundBase = none ∧ type = target.label.withFinal true ∧
      type.toExpr? = none ∧ span = value.span ∧ value.label.isMixed)
      (assignment node op target value) := by
  unfold assignment
  split
  · next isPlain =>
      apply Reports.thenPure
      apply (reports_coerce .accepted _ value).mono
      rintro type span ⟨isTarget, isNone, isSpan, isMixed⟩
      exact ⟨isPlain, isTarget, isNone, isSpan, isMixed.resolve_left Fit.noConfusion⟩
  · exact (ordinary_compoundAssign node op _ target value).reports

/-- There is a parameter for each argument that may be given. -/
theorem param?_ne_none {signature : Signature} {count position : Nat}
    (accepts : signature.acceptsArity count) (within : position < count) :
    signature.param? position ≠ none := by
  unfold Signature.acceptsArity at accepts
  rw [Signature.param?, ne_eq, Option.or_eq_none_iff, List.getElem?_eq_none_iff]
  rintro ⟨beyond, noFurther⟩
  rw [noFurther] at accepts
  have isCount : count = signature.params.length := by simpa using accepts
  omega

theorem reports_argument {signature : Signature} (name : String) {position : Nat}
    (hasParam : signature.param? position ≠ none) (arg : TypedExpr) :
    Reports (fun type span => signature.param? position = some type ∧ type.toExpr? = none ∧
      span = arg.span ∧ arg.label.isMixed) (argument signature name position arg) := by
  unfold argument
  split
  · next param isParam =>
      apply (reports_coerce .accepted param arg).mono
      rintro type span ⟨rfl, isNone, isSpan, isMixed⟩
      exact ⟨isParam, isNone, isSpan, isMixed.resolve_left Fit.noConfusion⟩
  · next isNone => exact absurd isNone hasParam

end

end Typing

/-! ## Expressions -/

namespace Expr

open Check Typing

/-- The value of the expression is mixed, and the type that it should be cast to cannot be
written. -/
structure Forced (env : TypeEnv) (e : Expr Unit) (target : Ty) (span : Span) : Prop where
  unwritable : target.toExpr? = none
  mixed : ∃ value, Gives (e.check env) value ∧ value.label.isMixed ∧ span = value.span

/-- The expression assigns a mixed value to a place of a type that cannot be written, or gives it
for a parameter of such a type. -/
inductive Strains (env : TypeEnv) : Expr Unit → Ty → Span → Prop
  | assigned {node : Node Unit} {left right : Expr Unit} {place : TypedExpr} {span : Span}
      (target : Gives (left.check env) place)
      (forced : right.Forced env (place.label.withFinal true) span) :
      Strains env (.binary node .assign left right) (place.label.withFinal true) span
  | argument {node : Node Unit} {callee arg : Expr Unit} {args : List (Expr Unit)} {f : TypedExpr}
      {signature : Signature} {position : Nat} {param : Ty} {span : Span}
      (function : Gives (callee.check env) f) (isSignature : f.label.signature? = some signature)
      (given : args[position]? = some arg) (isParam : signature.param? position = some param)
      (forced : arg.Forced env param span) :
      Strains env (.call node callee args) param span

/-- One of the expressions strains. -/
def StrainsIn (env : TypeEnv) (parts : List (Expr Unit)) (target : Ty) (span : Span) : Prop :=
  ∃ part ∈ parts, part.Strains env target span

theorem StrainsIn.mono {env : TypeEnv} {parts parts' : List (Expr Unit)} {target : Ty} {span : Span}
    (strains : StrainsIn env parts target span) (more : parts ⊆ parts') :
    StrainsIn env parts' target span := by
  rcases strains with ⟨part, member, strain⟩
  exact ⟨part, more member, strain⟩

end Expr

namespace Typing

open Check

section

variable {β : Type} {env : TypeEnv} {parts parts' : List (Expr Unit)} {x : Check β}

theorem Reports.within (reports : Reports (Expr.StrainsIn env parts) x) (more : parts ⊆ parts') :
    Reports (Expr.StrainsIn env parts') x :=
  reports.mono fun _ _ strains => strains.mono more

end

variable {floats : Float → Prop}

theorem exists_typeLiteral_of_isTarget {e : Expr Unit} (isTarget : e.IsTarget) :
    ∃ node written, e = .typeLiteral node written := by
  cases e with
  | typeLiteral node written => exact ⟨node, written, rfl⟩
  | _ => cases isTarget

/-- The arguments from a position on, each for its parameter: one of them strains, or one is forced
into the type of its parameter. -/
def ArgsStrain (env : TypeEnv) (signature : Signature) (position : Nat) (args : List (Expr Unit))
    (target : Ty) (span : Span) : Prop :=
  Expr.StrainsIn env (Expr.exprsAll args) target span ∨
    ∃ i arg, args[i]? = some arg ∧ signature.param? (position + i) = some target ∧
      arg.Forced env target span

theorem ArgsStrain.tail {env : TypeEnv} {signature : Signature} {position : Nat}
    {e : Expr Unit} {rest : List (Expr Unit)} {target : Ty} {span : Span}
    (strains : ArgsStrain env signature (position + 1) rest target span) :
    ArgsStrain env signature position (e :: rest) target span := by
  rcases strains with within | ⟨i, arg, given, isParam, forced⟩
  · exact .inl (within.mono (List.subset_append_right _ _))
  · refine .inr ⟨i + 1, arg, given, ?_, forced⟩
    rw [← isParam, Nat.add_right_comm, Nat.add_assoc]

mutual

/-- Checking an expression that source can give reports no bugs but those of parts that strain. -/
theorem reports_expr (env : TypeEnv) : ∀ e : Expr Unit, e.Readable floats →
    Reports (Expr.StrainsIn env e.exprs) (e.check env)
  | .ident node name, _ => (silent_ident env node name).reports
  | .constant _ _, _ | .typeLiteral _ _, _ => reports_pure _
  | .unary node op operand, readable => by
      rw [Expr.Readable] at readable
      rw [Expr.check]
      have within : operand.exprs ⊆ (Expr.unary node op operand).exprs := List.subset_cons_self _ _
      apply ((reports_expr env operand readable.2).within within).value
      exact fun x _ => (ordinary_unary node op x).reports
  | .binary node op left right, readable => by
      have inLeft : left.exprs ⊆ (Expr.binary node op left right).exprs :=
        List.subset_cons_of_subset _ (List.subset_append_left _ _)
      have inRight : right.exprs ⊆ (Expr.binary node op left right).exprs :=
        List.subset_cons_of_subset _ (List.subset_append_right _ _)
      rw [Expr.check.eq_def]
      dsimp only
      rcases Expr.readable_binary readable with
        ⟨isCast, first, isTarget⟩ | ⟨notCast, -, first, second⟩
      · rw [if_pos isCast]
        rcases exists_typeLiteral_of_isTarget isTarget with ⟨literal, written, rfl⟩
        apply ((reports_expr env left first).within inLeft).value
        exact fun x _ => (ordinary_cast node literal written x).reports
      · rw [if_neg notCast]
        have ofLeft := (reports_expr env left first).within inLeft
        have ofRight := (reports_expr env right second).within inRight
        split
        · next assigns =>
            split
            · apply ofLeft.value
              intro place isPlace
              apply Reports.bindSelf (ordinary_assignable node place)
                (meets_assignable_self node place)
              apply ofRight.value
              intro value isValue
              apply (reports_assignment node op place value).mono
              rintro type span ⟨isPlain, rfl, isNone, isSpan, isMixed⟩
              obtain rfl := eq_assign_of_compoundBase assigns isPlain
              exact ⟨_, List.mem_cons_self,
                .assigned isPlace ⟨isNone, value, isValue, isMixed, isSpan⟩⟩
            · exact (ordinary_fail rfl).reports
        · apply ofLeft.value
          intro x _
          apply ofRight.value
          exact fun y _ => (ordinary_binary node op x y).reports
  | .ternary node cond thenBranch elseBranch, readable => by
      rw [Expr.Readable] at readable
      rw [Expr.check]
      have inCond : cond.exprs ⊆ (Expr.ternary node cond thenBranch elseBranch).exprs :=
        List.subset_cons_of_subset _
          (List.subset_append_of_subset_left _ (List.subset_append_left _ _))
      have inThen : thenBranch.exprs ⊆ (Expr.ternary node cond thenBranch elseBranch).exprs :=
        List.subset_cons_of_subset _
          (List.subset_append_of_subset_left _ (List.subset_append_right _ _))
      have inElse : elseBranch.exprs ⊆ (Expr.ternary node cond thenBranch elseBranch).exprs :=
        List.subset_cons_of_subset _ (List.subset_append_right _ _)
      apply ((reports_expr env cond readable.1).within inCond).value
      intro c _
      apply ((reports_expr env thenBranch readable.2.1).within inThen).value
      intro x _
      apply ((reports_expr env elseBranch readable.2.2).within inElse).value
      exact fun y _ => (silent_ternary node c x y).reports
  | .call node callee args, readable => by
      rw [Expr.Readable] at readable
      rw [Expr.check]
      have inCallee : callee.exprs ⊆ (Expr.call node callee args).exprs :=
        List.subset_cons_of_subset _ (List.subset_append_left _ _)
      have inArgs : Expr.exprsAll args ⊆ (Expr.call node callee args).exprs :=
        List.subset_cons_of_subset _ (List.subset_append_right _ _)
      apply ((reports_expr env callee readable.1).within inCallee).value
      intro f isFunction
      split
      · next signature isSignature =>
          split
          · next accepts =>
              apply Reports.bind
              · apply (reports_args env signature callee.calleeName 0 args readable.2 ?_).mono
                · rintro type span (within | ⟨i, arg, given, isParam, forced⟩)
                  · exact within.mono inArgs
                  · rw [Nat.zero_add] at isParam
                    exact ⟨_, List.mem_cons_self,
                      .argument isFunction isSignature given isParam forced⟩
                · rw [Nat.zero_add]
                  exact accepts
              · exact fun xs _ => (ordinary_call node signature _ f xs).reports
          · exact (ordinary_fail rfl).reports
      · split
        · exact ((reports_exprs env args readable.2).within inArgs).thenPure
        · exact (ordinary_fail rfl).reports
  | .array node items, readable => by
      rw [Expr.Readable] at readable
      rw [Expr.check]
      have within : Expr.exprsAll items ⊆ (Expr.array node items).exprs := List.subset_cons_self _ _
      apply ((reports_exprs env items readable).within within).bind
      exact fun xs _ => (silent_array node xs).reports
  | .index node receiver subscript, readable => by
      rw [Expr.Readable] at readable
      rw [Expr.check]
      have inReceiver : receiver.exprs ⊆ (Expr.index node receiver subscript).exprs :=
        List.subset_cons_of_subset _ (List.subset_append_left _ _)
      have inSubscript : subscript.exprs ⊆ (Expr.index node receiver subscript).exprs :=
        List.subset_cons_of_subset _ (List.subset_append_right _ _)
      apply ((reports_expr env receiver readable.1).within inReceiver).value
      intro x _
      apply ((reports_expr env subscript readable.2).within inSubscript).value
      exact fun y _ => (ordinary_index node x y).reports

theorem reports_exprs (env : TypeEnv) : ∀ es : List (Expr Unit), Expr.ReadableAll floats es →
    Reports (Expr.StrainsIn env (Expr.exprsAll es)) (Expr.checkAll env es)
  | [], _ => reports_pure []
  | e :: rest, readable => by
      rw [Expr.ReadableAll] at readable
      rw [Expr.checkAll]
      apply ((reports_expr env e readable.1).within (List.subset_append_left _ _)).value
      intro x _
      exact ((reports_exprs env rest readable.2).within (List.subset_append_right _ _)).thenPure

theorem reports_args (env : TypeEnv) (signature : Signature) (name : String) :
    ∀ (position : Nat) (es : List (Expr Unit)), Expr.ReadableAll floats es →
      signature.acceptsArity (position + es.length) →
      Reports (ArgsStrain env signature position es)
        (Expr.checkArgs env signature name position es)
  | _, [], _, _ => reports_pure []
  | position, e :: rest, readable, accepts => by
      rw [Expr.ReadableAll] at readable
      rw [Expr.checkArgs]
      rw [List.length_cons] at accepts
      have hasParam := param?_ne_none accepts (by omega : position < position + (rest.length + 1))
      have first : Reports (ArgsStrain env signature position (e :: rest)) (e.check env) :=
        (reports_expr env e readable.1).mono fun _ _ strains =>
          .inl (strains.mono (List.subset_append_left _ _))
      apply first.value
      intro x isValue
      apply Reports.bind
      · apply (reports_argument name hasParam x).mono
        rintro type span ⟨isParam, isNone, isSpan, isMixed⟩
        exact .inr ⟨0, e, rfl, isParam, isNone, x, isValue, isMixed, isSpan⟩
      · intro _ _
        apply Reports.thenPure
        apply (reports_args env signature name (position + 1) rest readable.2 ?_).mono
        · exact fun _ _ => ArgsStrain.tail
        · rw [Nat.add_right_comm, Nat.add_assoc]
          exact accepts

end

end Typing

end Formulae
