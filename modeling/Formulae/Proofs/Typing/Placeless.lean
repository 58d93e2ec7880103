import Formulae.Proofs.Tree.Bare
import Formulae.Typing.Program

/-!
# Checking does not depend on places

Expressions that are the same but for their spans and numbers (`Expr.Resembles`) are checked
alike: both are rejected, or both give checked expressions that are the same but for spans and
numbers, whichever numbers are handed out (`Typing.matches_expr`).
-/

namespace Formulae

variable {α β γ δ ε : Type}

/-! ## Trees without places -/

/-- The node without its place and its number. -/
def Node.placeless (node : Node α) : Node α :=
  ⟨0, Span.point 0, node.label⟩

namespace Expr

mutual

/-- The expression without spans and numbers. -/
def placeless : Expr α → Expr α
  | .ident node name => .ident node.placeless name
  | .constant node value => .constant node.placeless value
  | .unary node op operand => .unary node.placeless op operand.placeless
  | .binary node op left right => .binary node.placeless op left.placeless right.placeless
  | .ternary node cond thenBranch elseBranch =>
      .ternary node.placeless cond.placeless thenBranch.placeless elseBranch.placeless
  | .call node callee args => .call node.placeless callee.placeless (placelessAll args)
  | .array node items => .array node.placeless (placelessAll items)
  | .index node receiver subscript =>
      .index node.placeless receiver.placeless subscript.placeless
  | .typeLiteral node type => .typeLiteral node.placeless type

/-- Several expressions without spans and numbers. -/
def placelessAll : List (Expr α) → List (Expr α)
  | [] => []
  | e :: rest => e.placeless :: placelessAll rest

end

mutual

theorem placeless_eq_bare : ∀ e : Expr Unit, e.placeless = e.bare
  | .ident .. | .constant .. | .typeLiteral .. => rfl
  | .unary _ _ operand => by
      rw [placeless, bare, placeless_eq_bare operand]
      rfl
  | .binary _ _ left right | .index _ left right => by
      simp only [placeless, bare, placeless_eq_bare left, placeless_eq_bare right]
      rfl
  | .ternary _ cond thenBranch elseBranch => by
      rw [placeless, bare, placeless_eq_bare cond, placeless_eq_bare thenBranch,
        placeless_eq_bare elseBranch]
      rfl
  | .call _ callee args => by
      rw [placeless, bare, placeless_eq_bare callee, placelessAll_eq_bareAll args]
      rfl
  | .array _ items => by
      rw [placeless, bare, placelessAll_eq_bareAll items]
      rfl

theorem placelessAll_eq_bareAll : ∀ es : List (Expr Unit), placelessAll es = bareAll es
  | [] => rfl
  | e :: rest => by
      rw [placelessAll, bareAll, placeless_eq_bare e, placelessAll_eq_bareAll rest]

end

/-- The expressions are the same but for spans and numbers. -/
def Resembles (x x' : Expr α) : Prop :=
  x'.placeless = x.placeless

/-- The expressions are the same one by one but for spans and numbers. -/
def ResemblesAll (xs xs' : List (Expr α)) : Prop :=
  placelessAll xs' = placelessAll xs

namespace Resembles

variable {x x' y y' z z' : Expr α}

theorem refl (x : Expr α) : x.Resembles x :=
  rfl

theorem label_eq (same : x.Resembles x') : x'.label = x.label := by
  have labels : x'.placeless.label = x.placeless.label := congrArg label same
  have label_placeless (e : Expr α) : e.placeless.label = e.label := by cases e <;> rfl
  rwa [label_placeless, label_placeless] at labels

theorem withId (same : x.Resembles x') (id id' : Nat) :
    (x.withId id).Resembles (x'.withId id') := by
  have placeless_withId (e : Expr α) (id : Nat) : (e.withId id).placeless = e.placeless := by
    cases e <;> rfl
  rwa [Resembles, placeless_withId, placeless_withId]

variable {node node' : Node α}

theorem ident (label : node'.label = node.label) (name : String) :
    (Expr.ident node name).Resembles (.ident node' name) := by
  simp only [Resembles, placeless, Node.placeless, label]

theorem constant (label : node'.label = node.label) (value : Constant) :
    (Expr.constant node value).Resembles (.constant node' value) := by
  simp only [Resembles, placeless, Node.placeless, label]

theorem typeLiteral (label : node'.label = node.label) (written : TypeExpr) :
    (Expr.typeLiteral node written).Resembles (.typeLiteral node' written) := by
  simp only [Resembles, placeless, Node.placeless, label]

theorem unary (label : node'.label = node.label) (op : Operator) (one : x.Resembles x') :
    (Expr.unary node op x).Resembles (.unary node' op x') := by
  rw [Resembles] at one
  simp only [Resembles, placeless, Node.placeless, label, one]

theorem binary (label : node'.label = node.label) (op : Operator) (one : x.Resembles x')
    (two : y.Resembles y') : (Expr.binary node op x y).Resembles (.binary node' op x' y') := by
  rw [Resembles] at one two
  simp only [Resembles, placeless, Node.placeless, label, one, two]

theorem ternary (label : node'.label = node.label) (one : x.Resembles x')
    (two : y.Resembles y') (three : z.Resembles z') :
    (Expr.ternary node x y z).Resembles (.ternary node' x' y' z') := by
  rw [Resembles] at one two three
  simp only [Resembles, placeless, Node.placeless, label, one, two, three]

theorem index (label : node'.label = node.label) (one : x.Resembles x')
    (two : y.Resembles y') : (Expr.index node x y).Resembles (.index node' x' y') := by
  rw [Resembles] at one two
  simp only [Resembles, placeless, Node.placeless, label, one, two]

theorem call {xs xs' : List (Expr α)} (label : node'.label = node.label) (one : x.Resembles x')
    (all : ResemblesAll xs xs') : (Expr.call node x xs).Resembles (.call node' x' xs') := by
  rw [Resembles] at one
  rw [ResemblesAll] at all
  simp only [Resembles, placeless, Node.placeless, label, one, all]

theorem array {xs xs' : List (Expr α)} (label : node'.label = node.label)
    (all : ResemblesAll xs xs') : (Expr.array node xs).Resembles (.array node' xs') := by
  rw [ResemblesAll] at all
  simp only [Resembles, placeless, Node.placeless, label, all]

/-! What is like an expression has its form. -/

theorem exists_ident {name : String} (same : (Expr.ident node name).Resembles x') :
    ∃ node', x' = .ident node' name := by
  cases x' with
  | ident node' =>
      rcases Expr.ident.inj same with ⟨-, rfl⟩
      exact ⟨node', rfl⟩
  | _ => cases same

theorem exists_constant {value : Constant} (same : (Expr.constant node value).Resembles x') :
    ∃ node', x' = .constant node' value := by
  cases x' with
  | constant node' =>
      rcases Expr.constant.inj same with ⟨-, rfl⟩
      exact ⟨node', rfl⟩
  | _ => cases same

theorem exists_typeLiteral {written : TypeExpr}
    (same : (Expr.typeLiteral node written).Resembles x') :
    ∃ node', x' = .typeLiteral node' written := by
  cases x' with
  | typeLiteral node' =>
      rcases Expr.typeLiteral.inj same with ⟨-, rfl⟩
      exact ⟨node', rfl⟩
  | _ => cases same

theorem exists_unary {op : Operator} (same : (Expr.unary node op x).Resembles x') :
    ∃ node' y', x' = .unary node' op y' ∧ x.Resembles y' := by
  cases x' with
  | unary node' op' y' =>
      rcases Expr.unary.inj same with ⟨-, rfl, one⟩
      exact ⟨node', y', rfl, one⟩
  | _ => cases same

theorem exists_binary {op : Operator} (same : (Expr.binary node op x y).Resembles x') :
    ∃ node' y' z', x' = .binary node' op y' z' ∧ x.Resembles y' ∧ y.Resembles z' := by
  cases x' with
  | binary node' op' y' z' =>
      rcases Expr.binary.inj same with ⟨-, rfl, one, two⟩
      exact ⟨node', y', z', rfl, one, two⟩
  | _ => cases same

theorem exists_ternary {z : Expr α} (same : (Expr.ternary node x y z).Resembles x') :
    ∃ node' c' y' z', x' = .ternary node' c' y' z' ∧ x.Resembles c' ∧ y.Resembles y' ∧
      z.Resembles z' := by
  cases x' with
  | ternary node' c' y' z' =>
      rcases Expr.ternary.inj same with ⟨-, one, two, three⟩
      exact ⟨node', c', y', z', rfl, one, two, three⟩
  | _ => cases same

theorem exists_index (same : (Expr.index node x y).Resembles x') :
    ∃ node' y' z', x' = .index node' y' z' ∧ x.Resembles y' ∧ y.Resembles z' := by
  cases x' with
  | index node' y' z' =>
      rcases Expr.index.inj same with ⟨-, one, two⟩
      exact ⟨node', y', z', rfl, one, two⟩
  | _ => cases same

theorem exists_call {xs : List (Expr α)} (same : (Expr.call node x xs).Resembles x') :
    ∃ node' y' xs', x' = .call node' y' xs' ∧ x.Resembles y' ∧ ResemblesAll xs xs' := by
  cases x' with
  | call node' y' xs' =>
      rcases Expr.call.inj same with ⟨-, one, all⟩
      exact ⟨node', y', xs', rfl, one, all⟩
  | _ => cases same

theorem exists_array {xs : List (Expr α)} (same : (Expr.array node xs).Resembles x') :
    ∃ node' xs', x' = .array node' xs' ∧ ResemblesAll xs xs' := by
  cases x' with
  | array node' xs' =>
      rcases Expr.array.inj same with ⟨-, all⟩
      exact ⟨node', xs', rfl, all⟩
  | _ => cases same

end Resembles

theorem resemblesAll_nil : ResemblesAll ([] : List (Expr α)) [] :=
  rfl

theorem ResemblesAll.cons {x x' : Expr α} {xs xs' : List (Expr α)} (one : x.Resembles x')
    (all : ResemblesAll xs xs') : ResemblesAll (x :: xs) (x' :: xs') := by
  rw [Resembles] at one
  rw [ResemblesAll] at all ⊢
  rw [placelessAll, placelessAll, one, all]

theorem ResemblesAll.eq_nil {xs' : List (Expr α)} (all : ResemblesAll [] xs') : xs' = [] := by
  cases xs' with
  | nil => rfl
  | cons => cases all

theorem ResemblesAll.exists_cons {x : Expr α} {xs xs' : List (Expr α)}
    (all : ResemblesAll (x :: xs) xs') :
    ∃ y ys, xs' = y :: ys ∧ x.Resembles y ∧ ResemblesAll xs ys := by
  cases xs' with
  | nil => cases all
  | cons y ys =>
      rcases List.cons.inj all with ⟨one, others⟩
      exact ⟨y, ys, rfl, one, others⟩

theorem ResemblesAll.labels_eq : ∀ {xs xs' : List (Expr α)}, ResemblesAll xs xs' →
    xs'.map label = xs.map label
  | [], [], _ => rfl
  | [], _ :: _, all | _ :: _, [], all => nomatch all
  | x :: xs, x' :: xs', all => by
      rw [ResemblesAll, placelessAll, placelessAll, List.cons.injEq] at all
      have one : x.Resembles x' := all.1
      have others : ResemblesAll xs xs' := all.2
      rw [List.map_cons, List.map_cons, one.label_eq, others.labels_eq]

theorem ResemblesAll.length_eq {xs xs' : List (Expr α)} (all : ResemblesAll xs xs') :
    xs'.length = xs.length := by
  simpa using congrArg List.length all.labels_eq

end Expr

/-! ## Checks side by side -/

namespace Check

/-- Two checks ended with errors, or with results that are related. -/
inductive Matched (related : β → γ → Prop) :
    Except TypeError (β × Nat) → Except TypeError (γ × Nat) → Prop
  | ok {value : β} {value' : γ} {next next' : Nat} (h : related value value') :
      Matched related (.ok (value, next)) (.ok (value', next'))
  | error {e e' : TypeError} : Matched related (.error e) (.error e')

/-- Whichever numbers come next, two checks end with errors or with results that are related. -/
def Matches (related : β → γ → Prop) (x : Check β) (y : Check γ) : Prop :=
  ∀ next next', Matched related (x next) (y next')

variable {related : β → γ → Prop} {related' : δ → ε → Prop}

theorem matches_pure {value : β} {value' : γ} (h : related value value') :
    Matches related (pure value) (pure value') :=
  fun _ _ => .ok h

theorem matches_fail {fault fault' : TypeFault} {span span' : Span} :
    Matches related (fail fault span) (fail fault' span') :=
  fun _ _ => .error

theorem matches_fresh : Matches (fun _ _ => True) fresh fresh :=
  fun _ _ => .ok trivial

theorem Matches.bind {x : Check β} {y : Check γ} {f : β → Check δ} {g : γ → Check ε}
    (first : Matches related x y)
    (second : ∀ value value', related value value' → Matches related' (f value) (g value')) :
    Matches related' (x >>= f) (y >>= g) := by
  intro next next'
  have outcome := first next next'
  simp only [Bind.bind, StateT.bind, Except.bind]
  revert outcome
  generalize x next = ended, y next' = ended'
  intro outcome
  cases outcome with
  | ok h => exact second _ _ h _ _
  | error => exact .error

end Check

namespace Typing

open Check Expr

/-! ## Rules -/

section

variable {x x' y y' z z' : TypedExpr} {xs xs' : List TypedExpr} {node node' : Bare}

/-- Expressions that resemble each other are literals of the calendar both or neither. -/
theorem calendarLiteral?_cases (same : x.Resembles x') :
    (calendarLiteral? x = none ∧ calendarLiteral? x' = none) ∨
      ∃ literal literal', calendarLiteral? x = some literal ∧
        calendarLiteral? x' = some literal' ∧ literal.Resembles literal' := by
  have calendarLiteral?_placeless (e : TypedExpr) :
      calendarLiteral? e.placeless = (calendarLiteral? e).map placeless := by
    cases e with
    | constant node value =>
        cases value with
        | string text =>
            simp only [placeless, calendarLiteral?, Option.map_map]
            rfl
        | _ => rfl
    | _ => rfl
  have literals := congrArg calendarLiteral? same
  rw [calendarLiteral?_placeless, calendarLiteral?_placeless] at literals
  cases read : calendarLiteral? x with
  | none =>
      rw [read, Option.map_none, Option.map_eq_none_iff] at literals
      exact .inl ⟨rfl, literals⟩
  | some literal =>
      rw [read, Option.map_some, Option.map_eq_some_iff] at literals
      rcases literals with ⟨literal', read', same⟩
      exact .inr ⟨literal, literal', rfl, read', same⟩

theorem resembles_readFor (target : Ty) (same : x.Resembles x') :
    (readFor target x).Resembles (readFor target x') := by
  unfold readFor
  split
  · rcases calendarLiteral?_cases same with ⟨none, none'⟩ | ⟨literal, literal', read, read', alike⟩
    · rw [none, none']
      exact same
    · rw [read, read']
      dsimp only
      rw [alike.label_eq]
      split
      · exact alike
      · exact same
  · exact same

theorem matches_insertCast (target : Ty) (same : x.Resembles x') :
    Matches Resembles (insertCast target x) (insertCast target x') := by
  unfold insertCast
  split
  · exact matches_fail
  · apply matches_fresh.bind
    intro moved moved' _
    apply matches_fresh.bind
    intro literal literal' _
    exact matches_pure ((same.withId moved moved').binary rfl _ (.typeLiteral rfl _))

theorem matches_coerce (fit : Fit) (target : Ty) (same : x.Resembles x') :
    Matches Resembles (coerce fit target x) (coerce fit target x') := by
  have read := resembles_readFor target same
  unfold coerce
  dsimp only
  rw [read.label_eq]
  split
  · split
    · exact matches_insertCast target read
    · exact matches_pure read
  · split
    · exact matches_insertCast target read
    · exact matches_fail

theorem matches_widen (target : Ty) (same : x.Resembles x') :
    Matches Resembles (widen target x) (widen target x') := by
  unfold widen
  rw [same.label_eq]
  split
  · exact matches_insertCast target same
  · exact matches_pure same

theorem matches_requireValue (same : x.Resembles x') :
    Matches Resembles (requireValue x) (requireValue x') := by
  unfold requireValue
  rw [same.label_eq]
  split
  · exact matches_fail
  · exact matches_pure same

/-- Checks that go on with a value go on alike. -/
theorem matches_value {first first' : Check TypedExpr} {f : TypedExpr → Check β}
    {g : TypedExpr → Check γ} {related : β → γ → Prop} (typed : Matches Resembles first first')
    (rest : ∀ x x' : TypedExpr, x.Resembles x' → Matches related (f x) (g x')) :
    Matches related (do f (← requireValue (← first))) (do g (← requireValue (← first'))) :=
  typed.bind fun _ _ same => (matches_requireValue same).bind rest

theorem matches_ident (env : TypeEnv) (name : String) :
    Matches Resembles (ident env node name) (ident env node' name) := by
  unfold ident
  split
  · exact matches_pure (.ident rfl name)
  · exact matches_fail

theorem matches_unary (op : Operator) (same : x.Resembles x') :
    Matches Resembles (Typing.unary node op x) (Typing.unary node' op x') := by
  unfold Typing.unary
  rw [same.label_eq]
  split
  · exact matches_pure (.unary rfl op same)
  · exact matches_fail

theorem resembles_operands (op : Operator) (one : x.Resembles x') (two : y.Resembles y') :
    (operands op x y).1.Resembles (operands op x' y').1 ∧
      (operands op x y).2.Resembles (operands op x' y').2 := by
  have isNone {x x' : TypedExpr} (same : x.Resembles x') :
      (calendarLiteral? x').isNone = (calendarLiteral? x).isNone := by
    rcases calendarLiteral?_cases same with ⟨none, none'⟩ | ⟨_, _, read, read', -⟩
    · rw [none, none']
    · rw [read, read']
      rfl
  have reading {x x' : TypedExpr} (same : x.Resembles x') :
      ((calendarLiteral? x).getD x).Resembles ((calendarLiteral? x').getD x') := by
    rcases calendarLiteral?_cases same with ⟨none, none'⟩ | ⟨_, _, read, read', alike⟩
    · rw [none, none']
      exact same
    · rw [read, read']
      exact alike
  unfold operands calendarOperands?
  dsimp only
  rw [isNone one, isNone two, (reading one).label_eq, (reading two).label_eq]
  split
  · split
    · exact ⟨one, two⟩
    · split
      · exact ⟨reading one, reading two⟩
      · exact ⟨one, two⟩
  · exact ⟨one, two⟩

theorem matches_binary (op : Operator) (one : x.Resembles x') (two : y.Resembles y') :
    Matches Resembles (Typing.binary node op x y) (Typing.binary node' op x' y') := by
  rcases resembles_operands op one two with ⟨left, right⟩
  unfold Typing.binary
  dsimp only
  rw [left.label_eq, right.label_eq]
  split
  · exact matches_pure (.binary rfl op left right)
  · exact matches_fail

theorem matches_cast {literal literal' : Bare} (written : TypeExpr) (same : x.Resembles x') :
    Matches Resembles (Typing.cast node literal written x)
      (Typing.cast node' literal' written x') := by
  have read := resembles_readFor (Ty.ofExpr written) same
  unfold Typing.cast
  dsimp only
  rw [read.label_eq]
  split
  · exact matches_pure (.binary rfl _ read (.typeLiteral rfl _))
  · exact matches_fail

theorem matches_assignable (same : x.Resembles x') :
    Matches Resembles (assignable node x) (assignable node' x') := by
  unfold assignable
  rw [same.label_eq]
  split
  · exact matches_fail
  · exact matches_pure same

theorem resembles_compoundOperand (base : Operator) (slot : Ty) (same : x.Resembles x') :
    (compoundOperand base slot x).Resembles (compoundOperand base slot x') := by
  unfold compoundOperand
  rw [same.label_eq]
  split
  · exact same
  · rcases calendarLiteral?_cases same with ⟨none, none'⟩ | ⟨literal, literal', read, read', alike⟩
    · rw [none, none']
      exact same
    · rw [read, read']
      dsimp only
      rw [alike.label_eq]
      split
      · exact alike
      · exact same

theorem matches_assignment (op : Operator) (one : x.Resembles x') (two : y.Resembles y') :
    Matches Resembles (assignment node op x y) (assignment node' op x' y') := by
  unfold assignment
  split
  · unfold assign
    dsimp only
    rw [one.label_eq]
    apply (matches_coerce _ _ two).bind
    exact fun _ _ value => matches_pure (.binary rfl _ one value)
  · next base _ =>
      have value := resembles_compoundOperand base (x.label.withFinal true) two
      unfold compoundAssign
      dsimp only
      rw [one.label_eq, value.label_eq]
      split
      · exact matches_fail
      · split
        · exact matches_pure (.binary rfl _ one value)
        · exact matches_fail

theorem matches_ternary (one : x.Resembles x') (two : y.Resembles y') (three : z.Resembles z') :
    Matches Resembles (Typing.ternary node x y z) (Typing.ternary node' x' y' z') := by
  unfold Typing.ternary
  dsimp only
  rw [two.label_eq, three.label_eq]
  split
  · exact matches_pure (.ternary rfl one two three)
  · split
    · apply (matches_widen _ three).bind
      exact fun _ _ widened => matches_pure (.ternary rfl one two widened)
    · split
      · apply (matches_widen _ two).bind
        exact fun _ _ widened => matches_pure (.ternary rfl one widened three)
      · exact matches_pure (.ternary rfl one two three)

theorem matches_widenAll (element : Ty) : ∀ {xs xs' : List TypedExpr}, ResemblesAll xs xs' →
    Matches ResemblesAll (xs.mapM (widen element)) (xs'.mapM (widen element))
  | [], [], _ => matches_pure resemblesAll_nil
  | [], _ :: _, all | _ :: _, [], all => nomatch all
  | x :: xs, x' :: xs', all => by
      rw [ResemblesAll, placelessAll, placelessAll, List.cons.injEq] at all
      rw [List.mapM_cons, List.mapM_cons]
      apply (matches_widen element all.1).bind
      intro first first' one
      apply (matches_widenAll element all.2).bind
      exact fun _ _ others => matches_pure (others.cons one)

theorem matches_array (all : ResemblesAll xs xs') :
    Matches Resembles (Typing.array node xs) (Typing.array node' xs') := by
  unfold Typing.array
  dsimp only
  rw [all.labels_eq, all.length_eq]
  apply (matches_widenAll _ all).bind
  exact fun _ _ widened => matches_pure (.array rfl widened)

theorem matches_index (one : x.Resembles x') (two : y.Resembles y') :
    Matches Resembles (Typing.index node x y) (Typing.index node' x' y') := by
  unfold Typing.index
  rw [one.label_eq, two.label_eq]
  split
  · split
    · exact matches_pure (.index rfl one two)
    · exact matches_fail
  · exact matches_fail

theorem matches_argument (signature : Signature) (name : String) (position : Nat)
    (same : x.Resembles x') :
    Matches Resembles (argument signature name position x)
      (argument signature name position x') := by
  unfold argument
  split
  · exact matches_coerce _ _ same
  · exact matches_fail

theorem matches_call (signature : Signature) (name : String) (one : x.Resembles x')
    (all : ResemblesAll xs xs') :
    Matches Resembles (Typing.call node signature name x xs)
      (Typing.call node' signature name x' xs') := by
  unfold Typing.call
  dsimp only
  rw [all.labels_eq]
  split
  · exact matches_pure (.call rfl one all)
  · exact matches_fail

end

/-! ## Expressions -/

section

variable (env : TypeEnv)

theorem isPlace_placeless (e : Expr Unit) : e.placeless.isPlace = e.isPlace := by
  cases e <;> rfl

theorem calleeName_placeless (e : Expr Unit) : e.placeless.calleeName = e.calleeName := by
  cases e <;> rfl

theorem length_placelessAll (es : List (Expr Unit)) : (placelessAll es).length = es.length := by
  induction es with
  | nil => rfl
  | cons e rest inductionHypothesis => exact congrArg (· + 1) inductionHypothesis

mutual

theorem matches_placeless : ∀ e : Expr Unit,
    Matches Resembles (e.check env) (e.placeless.check env)
  | .ident node name => matches_ident env name
  | .constant node value => matches_pure (.constant rfl value)
  | .typeLiteral node written => matches_pure (.typeLiteral rfl written)
  | .unary node op operand => by
      rw [placeless, Expr.check, Expr.check]
      exact matches_value (matches_placeless operand) fun _ _ => matches_unary op
  | .binary node op left right => by
      have one := matches_placeless left
      have two := matches_placeless right
      rw [placeless, Expr.check.eq_def, Expr.check.eq_def env]
      dsimp only
      split
      · cases right with
        | typeLiteral literal written => exact matches_value one fun _ _ => matches_cast written
        | _ => exact matches_fail
      · rw [isPlace_placeless]
        split
        · split
          · apply matches_value one
            intro x x' isLeft
            apply (matches_assignable isLeft).bind
            intro x x' place
            exact matches_value two fun _ _ => matches_assignment op place
          · exact matches_fail
        · apply matches_value one
          intro x x' isLeft
          exact matches_value two fun _ _ => matches_binary op isLeft
  | .ternary node cond thenBranch elseBranch => by
      rw [placeless, Expr.check, Expr.check]
      apply matches_value (matches_placeless cond)
      intro c c' one
      apply matches_value (matches_placeless thenBranch)
      intro x x' two
      exact matches_value (matches_placeless elseBranch) fun _ _ => matches_ternary one two
  | .call node callee args => by
      rw [placeless, Expr.check, Expr.check]
      apply matches_value (matches_placeless callee)
      intro f f' isCallee
      rw [calleeName_placeless, length_placelessAll, isCallee.label_eq]
      split
      · split
        · exact (matches_placelessArgs _ _ _ args).bind fun _ _ => matches_call _ _ isCallee
        · exact matches_fail
      · split
        · apply (matches_placelessAll args).bind
          exact fun _ _ typedArgs => matches_pure (.call rfl isCallee typedArgs)
        · exact matches_fail
  | .array node items => by
      rw [placeless, Expr.check, Expr.check]
      exact (matches_placelessAll items).bind fun _ _ => matches_array
  | .index node receiver subscript => by
      rw [placeless, Expr.check, Expr.check]
      apply matches_value (matches_placeless receiver)
      intro x x' one
      exact matches_value (matches_placeless subscript) fun _ _ => matches_index one

theorem matches_placelessAll : ∀ es : List (Expr Unit),
    Matches ResemblesAll (checkAll env es) (checkAll env (placelessAll es))
  | [] => matches_pure resemblesAll_nil
  | e :: rest => by
      rw [placelessAll, checkAll, checkAll]
      apply matches_value (matches_placeless e)
      intro x x' one
      apply (matches_placelessAll rest).bind
      exact fun _ _ others => matches_pure (others.cons one)

theorem matches_placelessArgs (signature : Signature) (name : String) :
    ∀ (position : Nat) (es : List (Expr Unit)),
      Matches ResemblesAll (checkArgs env signature name position es)
        (checkArgs env signature name position (placelessAll es))
  | _, [] => matches_pure resemblesAll_nil
  | position, e :: rest => by
      rw [placelessAll, checkArgs, checkArgs]
      apply matches_value (matches_placeless e)
      intro x x' isValue
      apply (matches_argument signature name position isValue).bind
      intro x x' one
      apply (matches_placelessArgs signature name (position + 1) rest).bind
      exact fun _ _ others => matches_pure (others.cons one)

end

end

/-- Expressions that are the same but for spans and numbers are rejected both, or checked alike
whichever numbers are handed out. -/
theorem matches_expr (env : TypeEnv) {e e' : Expr Unit} (same : e'.bare = e.bare) :
    Matches Resembles (e.check env) (e'.check env) := by
  rw [← placeless_eq_bare, ← placeless_eq_bare] at same
  intro next next'
  have one := matches_placeless env e next 0
  have two := matches_placeless env e' next' 0
  rw [same] at two
  generalize e.check env next = ended at one ⊢
  generalize e'.check env next' = ended' at two ⊢
  generalize e.placeless.check env 0 = middle at one two
  cases one with
  | ok left =>
      cases two with
      | ok right => exact .ok (right.symm.trans left)
  | error =>
      cases two with
      | error => exact .error

end Typing

end Formulae
