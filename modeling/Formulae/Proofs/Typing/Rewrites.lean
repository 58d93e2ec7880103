import Formulae.Proofs.Parser.Numbers
import Formulae.Proofs.Typing.Kept
import Formulae.Proofs.Typing.Rules
import Mathlib

/-!
# Checking rewrites a tree in two ways only

Checking hands out numbers one after the other and uses each of them once: as the new
number of an expression that it wraps in a cast, or as the number of the type of the
cast (`Check.Hands`).  So the checked tree is the tree that was read with casts and
literals of dates and durations in it, and its numbers are the old ones and those handed
out (`Program.check_rewrites`).
-/

namespace Formulae

variable {β γ : Type} {first : Nat}

namespace Check

/-- From a number that is not below `first` on, the check ends with an error, or with a
result that is as `result` says for the numbers handed out on the way. -/
def Hands (first : Nat) (x : Check β) (result : β → List Nat → Prop) : Prop :=
  ∀ next value after, first ≤ next → x next = .ok (value, after) →
    ∃ count, after = next + count ∧ result value (List.range' next count)

variable {result : β → List Nat → Prop}

theorem hands_pure {value : β} (h : result value []) : Hands first (pure value) result := by
  intro next value' after _ ran
  cases ran
  exact ⟨0, rfl, h⟩

theorem hands_fail {fault : TypeFault} {span : Span} :
    Hands first (fail fault span : Check β) result :=
  fun _ _ _ _ ran => nomatch ran

theorem hands_fresh {result : Nat → List Nat → Prop}
    (h : ∀ number, first ≤ number → result number [number]) : Hands first fresh result := by
  intro next value after new ran
  cases ran
  exact ⟨1, rfl, h next new⟩

theorem Hands.bind {x : Check β} {f : β → Check γ} {result' : γ → List Nat → Prop}
    (one : Hands first x result)
    (two : ∀ value handed, result value handed →
      Hands first (f value) fun value' more => result' value' (handed ++ more)) :
    Hands first (x >>= f) result' := by
  intro next value after new ran
  cases middle : x next with
  | error error =>
      simp only [Bind.bind, StateT.bind, Except.bind, middle] at ran
      cases ran
  | ok pair =>
      simp only [Bind.bind, StateT.bind, Except.bind, middle] at ran
      rcases one next pair.1 pair.2 new middle with ⟨count, between, result⟩
      rw [between] at ran
      have stillNew : first ≤ next + count := Nat.le_trans new (Nat.le_add_right _ _)
      rcases two pair.1 _ result (next + count) value after stillNew ran with
        ⟨more, ended, result'⟩
      rw [List.range'_append_1] at result'
      exact ⟨count + more, by rw [ended, Nat.add_assoc], result'⟩

theorem Hands.mono {x : Check β} {result' : β → List Nat → Prop} (hands : Hands first x result)
    (results : ∀ value handed, result value handed → result' value handed) :
    Hands first x result' := by
  intro next value after new ran
  rcases hands next value after new ran with ⟨count, ended, result⟩
  exact ⟨count, ended, results _ _ result⟩

/-- A check whose result must have a value, taken up by a rule. -/
theorem Hands.value {x : Check TypedExpr} {f : TypedExpr → Check γ}
    {result : TypedExpr → List Nat → Prop} {result' : γ → List Nat → Prop}
    (one : Hands first x result)
    (two : ∀ value handed, result value handed →
      Hands first (f value) fun value' more => result' value' (handed ++ more)) :
    Hands first (x >>= fun e => Typing.requireValue e >>= f) result' := by
  apply one.bind
  intro e handed isResult
  unfold Typing.requireValue
  split
  · exact nofun
  · exact two e handed isResult

end Check

/-! ## Numbers of rewritten trees -/

/-- The numbers of the entries are those before and those handed out. -/
def ExprEntry.Grown (before after : List ExprEntry) (handed : List Nat) : Prop :=
  (ExprEntry.numbers after).Perm (ExprEntry.numbers before ++ handed)

namespace ExprEntry

variable {before before' after after' : List ExprEntry} {handed more : List Nat}

theorem grown_nil : Grown [] [] [] :=
  .nil

theorem Grown.append (one : Grown before after handed) (two : Grown before' after' more) :
    Grown (before ++ before') (after ++ after') (handed ++ more) := by
  rw [Grown, List.perm_iff_count] at *
  intro number
  have first := one number
  have second := two number
  simp only [numbers_append, List.count_append] at first second ⊢
  omega

theorem Grown.root {entry entry' : ExprEntry} (same : entry'.number = entry.number)
    (grown : Grown before after handed) : Grown (entry :: before) (entry' :: after) handed := by
  rw [Grown, numbers_cons, numbers_cons, same]
  exact grown.cons _

end ExprEntry

namespace Expr

/-- The expression is kept, and its numbers are the old ones and those handed out. -/
def Rewritten (first : Nat) (e : Expr Unit) (checked : TypedExpr) (handed : List Nat) : Prop :=
  e.Kept first checked ∧ ExprEntry.Grown e.entries checked.entries handed

/-- The expression is kept or wrapped in a cast, and its numbers are the old ones and
those handed out. -/
def Placed (first : Nat) (e : Expr Unit) (checked : TypedExpr) (handed : List Nat) : Prop :=
  e.Fits first checked ∧ ExprEntry.Grown e.entries checked.entries handed

/-- The expressions are in their places, and their numbers are the old ones and those
handed out. -/
def PlacedAll (first : Nat) (es : List (Expr Unit)) (checked : List TypedExpr)
    (handed : List Nat) : Prop :=
  FittedAll first es checked ∧ ExprEntry.Grown (entriesAll es) (entriesAll checked) handed

variable {e : Expr Unit} {checked : TypedExpr} {handed more : List Nat}

theorem Rewritten.placed (rewritten : e.Rewritten first checked handed) :
    e.Placed first checked handed :=
  ⟨.kept rewritten.1, rewritten.2⟩

theorem Rewritten.cast (rewritten : e.Rewritten first checked handed) {moved literal : Nat}
    (movedNew : first ≤ moved) (literalNew : first ≤ literal) (type literalType : Ty)
    (written : TypeExpr) :
    e.Placed first (.binary ⟨checked.number, checked.span, type⟩ .typeCast (checked.withId moved)
      (.typeLiteral ⟨literal, checked.span, literalType⟩ written))
      (handed ++ [moved, literal]) := by
  refine ⟨.cast _ _ _ rewritten.1 movedNew literalNew, ?_⟩
  have grown := rewritten.2
  rw [ExprEntry.Grown, List.perm_iff_count] at *
  intro number
  have same := grown number
  rw [entries_cast]
  simp only [Expr.entries, Expr.entry, ExprEntry.numbers_cons, ExprEntry.numbers_append,
    ExprEntry.numbers_nil, List.count_append, List.count_cons, List.count_nil] at same ⊢
  omega

theorem placedAll_nil : PlacedAll first [] [] [] :=
  ⟨rfl, ExprEntry.grown_nil⟩

/-- The expression that may be missing is in its place, and its numbers are the old ones
and those handed out. -/
def PlacedOption (first : Nat) (e : Option (Expr Unit)) (checked : Option TypedExpr)
    (handed : List Nat) : Prop :=
  FitsOption first e checked ∧ ExprEntry.Grown (entriesOption e) (entriesOption checked) handed

theorem placedOption_none : PlacedOption first none none [] :=
  ⟨rfl, ExprEntry.grown_nil⟩

theorem Placed.option (placed : e.Placed first checked handed) :
    PlacedOption first (some e) (some checked) handed :=
  ⟨⟨_, placed.1, rfl⟩, placed.2⟩

theorem Placed.cons {rest : List (Expr Unit)} {others : List TypedExpr}
    (one : e.Placed first checked handed) (two : PlacedAll first rest others more) :
    PlacedAll first (e :: rest) (checked :: others) (handed ++ more) :=
  ⟨⟨_, _, one.1, two.1, rfl⟩, one.2.append two.2⟩

theorem PlacedAll.perm {es : List (Expr Unit)} {xs : List TypedExpr}
    (placed : PlacedAll first es xs handed) (same : handed.Perm more) :
    PlacedAll first es xs more :=
  ⟨placed.1, placed.2.trans (same.append_left _)⟩

/-- Expressions that are kept, one by one, with the numbers handed out for each. -/
inductive RewrittenAll (first : Nat) : List (Expr Unit) → List TypedExpr → List Nat → Prop
  | nil : RewrittenAll first [] [] []
  | cons {e : Expr Unit} {checked : TypedExpr} {rest : List (Expr Unit)} {others : List TypedExpr}
      {handed more : List Nat} (one : e.Rewritten first checked handed)
      (two : RewrittenAll first rest others more) :
      RewrittenAll first (e :: rest) (checked :: others) (handed ++ more)

theorem RewrittenAll.placed {es : List (Expr Unit)} {xs : List TypedExpr}
    (rewritten : RewrittenAll first es xs handed) : PlacedAll first es xs handed := by
  induction rewritten with
  | nil => exact placedAll_nil
  | cons one _ inductionHypothesis => exact one.placed.cons inductionHypothesis

end Expr

namespace Typing

open Check Expr

section

variable {e left right : Expr Unit} {x y : TypedExpr} {handed more : List Nat}
  (rewritten : e.Rewritten first x handed)
  (leftRewritten : left.Rewritten first x handed)
  (rightRewritten : right.Rewritten first y more)

/-! ## Literals -/

theorem calendarConstant?_rereads {text : String} {value : Constant}
    (reads : calendarConstant? text = some value) : (Constant.string text).Rereads value := by
  unfold calendarConstant? at reads
  split at reads
  · cases reads
    exact .date text
  · split at reads
    · cases reads
      exact .duration text
    · cases reads

include rewritten in
/-- A string literal is kept when it is read as a date or a duration. -/
theorem rewritten_of_calendarLiteral {literal : TypedExpr}
    (reads : calendarLiteral? x = some literal) : e.Rewritten first literal handed := by
  unfold calendarLiteral? at reads
  split at reads
  · next node text =>
      rcases Option.map_eq_some_iff.mp reads with ⟨value, found, rfl⟩
      rcases rewritten with ⟨kept, grown⟩
      refine ⟨?_, grown⟩
      cases e <;> simp only [Kept] at kept
      case constant own written =>
          rcases kept with ⟨type, after, rereads, equal⟩
          cases equal
          cases rereads with
          | same => exact ⟨_, _, calendarConstant?_rereads found, rfl⟩
      case ident | typeLiteral => rcases kept with ⟨_, impossible⟩; cases impossible
      case unary => rcases kept with ⟨_, _, _, impossible⟩; cases impossible
      case binary | index => rcases kept with ⟨_, _, _, _, _, impossible⟩; cases impossible
      case ternary => rcases kept with ⟨_, _, _, _, _, _, _, impossible⟩; cases impossible
      case call => rcases kept with ⟨_, _, _, _, _, impossible⟩; cases impossible
      case array => rcases kept with ⟨_, _, _, impossible⟩; cases impossible
  · cases reads

include rewritten in
theorem rewritten_of_reads {read : TypedExpr} (reads : Reads x read) :
    e.Rewritten first read handed := by
  rcases reads with rfl | literal
  · exact rewritten
  · exact rewritten_of_calendarLiteral rewritten literal

/-! ## Casts -/

include rewritten in
/-- A cast that is inserted uses each number that is handed out for it once. -/
theorem hands_insertCast (target : Ty) :
    Hands first (insertCast target x) fun cast more => e.Placed first cast (handed ++ more) := by
  unfold insertCast
  split
  · exact hands_fail
  · apply (hands_fresh (fun _ new => ⟨new, rfl⟩) :
      Hands first fresh fun number handed => first ≤ number ∧ handed = [number]).bind
    rintro moved _ ⟨movedNew, rfl⟩
    apply (hands_fresh (fun _ new => ⟨new, rfl⟩) :
      Hands first fresh fun number handed => first ≤ number ∧ handed = [number]).bind
    rintro literal _ ⟨literalNew, rfl⟩
    exact hands_pure (rewritten.cast movedNew literalNew _ _ _)

theorem hands_of_placed {kept : TypedExpr} (placed : e.Placed first kept handed) :
    Hands first (pure kept) fun y more => e.Placed first y (handed ++ more) :=
  hands_pure (by rwa [List.append_nil])

include rewritten in
theorem hands_coerce (fit : Fit) (target : Ty) :
    Hands first (coerce fit target x) fun y more => e.Placed first y (handed ++ more) := by
  have read := rewritten_of_reads rewritten (reads_readFor target x)
  simp only [coerce]
  split
  · split
    · exact hands_insertCast read target
    · exact hands_of_placed read.placed
  · split
    · exact hands_insertCast read target
    · exact hands_fail

include rewritten in
theorem hands_widen (target : Ty) :
    Hands first (widen target x) fun y more => e.Placed first y (handed ++ more) := by
  unfold widen
  split
  · exact hands_insertCast rewritten target
  · exact hands_of_placed rewritten.placed

theorem hands_mapM_widen (type : Ty) {es : List (Expr Unit)} {xs : List TypedExpr}
    {handed : List Nat} (rewritten : RewrittenAll first es xs handed) :
    Hands first (xs.mapM (widen type)) fun ys more => PlacedAll first es ys (handed ++ more) := by
  induction rewritten with
  | nil => exact hands_pure placedAll_nil
  | @cons e x rest others own further one two inductionHypothesis =>
      rw [List.mapM_cons]
      apply (hands_widen one type).bind
      intro y ownCast placed
      apply inductionHypothesis.bind
      intro ys furtherCasts placedAll
      apply hands_pure
      refine (placed.cons placedAll).perm ?_
      rw [List.perm_iff_count]
      intro number
      simp only [List.count_append, List.count_nil]
      omega

end

/-! ## Rules -/

section

variable {e left right : Expr Unit} {x y z : TypedExpr} {handed more further : List Nat}

theorem hands_of_rewritten (rewritten : e.Rewritten first x handed) :
    Hands first (pure x) fun y more => e.Rewritten first y (handed ++ more) :=
  hands_pure (by rwa [List.append_nil])

theorem rewritten_literal (node : Bare) (written : TypeExpr) (type : Ty) :
    (Expr.typeLiteral node written).Rewritten first (.typeLiteral (node.typed type) written) [] :=
  ⟨⟨_, rfl⟩, ExprEntry.grown_nil.root rfl⟩

theorem rewritten_binary (leftPlaced : left.Placed first x handed)
    (rightPlaced : right.Placed first y more) (node : Bare) (op : Operator) (type : Ty) :
    (Expr.binary node op left right).Rewritten first (.binary (node.typed type) op x y)
      (handed ++ more) :=
  ⟨⟨_, _, _, leftPlaced.1, rightPlaced.1, rfl⟩, (leftPlaced.2.append rightPlaced.2).root rfl⟩

theorem rewritten_index (leftPlaced : left.Placed first x handed)
    (rightPlaced : right.Placed first y more) (node : Bare) (type : Ty) :
    (Expr.index node left right).Rewritten first (.index (node.typed type) x y)
      (handed ++ more) :=
  ⟨⟨_, _, _, leftPlaced.1, rightPlaced.1, rfl⟩, (leftPlaced.2.append rightPlaced.2).root rfl⟩

theorem rewritten_ternary {cond : Expr Unit} (condPlaced : cond.Placed first x handed)
    (leftPlaced : left.Placed first y more) (rightPlaced : right.Placed first z further)
    (node : Bare) (type : Ty) :
    (Expr.ternary node cond left right).Rewritten first (.ternary (node.typed type) x y z)
      (handed ++ more ++ further) :=
  ⟨⟨_, _, _, _, condPlaced.1, leftPlaced.1, rightPlaced.1, rfl⟩,
    ((condPlaced.2.append leftPlaced.2).append rightPlaced.2).root rfl⟩

theorem rewritten_call {args : List (Expr Unit)} {xs : List TypedExpr}
    (callee : e.Rewritten first x handed) (placed : PlacedAll first args xs more) (node : Bare)
    (type : Ty) :
    (Expr.call node e args).Rewritten first (.call (node.typed type) x xs) (handed ++ more) :=
  ⟨⟨_, _, _, callee.1, placed.1, rfl⟩, (callee.2.append placed.2).root rfl⟩

theorem hands_ident (env : TypeEnv) (node : Bare) (name : String) :
    Hands first (ident env node name) ((Expr.ident node name).Rewritten first) := by
  unfold ident
  split
  · exact hands_pure ⟨⟨_, rfl⟩, ExprEntry.grown_nil.root rfl⟩
  · exact hands_fail

theorem hands_unary (rewritten : e.Rewritten first x handed) (node : Bare) (op : Operator) :
    Hands first (unary node op x) fun y more =>
      (Expr.unary node op e).Rewritten first y (handed ++ more) := by
  unfold unary
  split
  · exact hands_of_rewritten ⟨⟨_, _, rewritten.placed.1, rfl⟩, rewritten.2.root rfl⟩
  · exact hands_fail

theorem hands_binary (leftRewritten : left.Rewritten first x handed)
    (rightRewritten : right.Rewritten first y more) (node : Bare) (op : Operator) :
    Hands first (binary node op x y) fun z further =>
      (Expr.binary node op left right).Rewritten first z (handed ++ (more ++ further)) := by
  rcases reads_operands op x y with ⟨readsLeft, readsRight⟩
  have left' := rewritten_of_reads leftRewritten readsLeft
  have right' := rewritten_of_reads rightRewritten readsRight
  unfold binary
  dsimp only
  split
  · simpa only [List.append_assoc] using
      hands_of_rewritten (rewritten_binary left'.placed right'.placed node op _)
  · exact hands_fail

theorem hands_cast (rewritten : e.Rewritten first x handed) (node literal : Bare)
    (written : TypeExpr) :
    Hands first (cast node literal written x) fun y more =>
      (Expr.binary node .typeCast e (.typeLiteral literal written)).Rewritten first y
        (handed ++ more) := by
  simp only [cast]
  split
  · have read := (rewritten_of_reads rewritten (reads_readFor (Ty.ofExpr written) x)).placed
    have literal' : (Expr.typeLiteral literal written).Rewritten first _ [] :=
      rewritten_literal literal written (.typeLiteral (Ty.ofExpr written) true)
    have whole := rewritten_binary read
      literal'.placed node .typeCast (Ty.ofExpr written)
    rw [List.append_nil] at whole
    exact hands_of_rewritten whole
  · exact hands_fail

theorem hands_assignment (leftRewritten : left.Rewritten first x handed)
    (rightRewritten : right.Rewritten first y more) (node : Bare) {op : Operator}
    (assigns : op.isAssignment) :
    Hands first (assignment node op x y) fun z further =>
      (Expr.binary node op left right).Rewritten first z (handed ++ (more ++ further)) := by
  unfold assignment
  split
  · next plain =>
      rw [eq_assign_of_compoundBase assigns plain]
      apply (hands_coerce rightRewritten _ _).bind
      intro value further placed
      apply hands_pure
      rw [List.append_nil]
      exact rewritten_binary leftRewritten.placed placed node .assign _
  · next base _ =>
      have value := rewritten_of_reads rightRewritten
        (reads_compoundOperand base (x.label.withFinal true) y)
      simp only [compoundAssign]
      split
      · exact hands_fail
      · split
        · simpa only [List.append_assoc] using hands_of_rewritten
            (rewritten_binary leftRewritten.placed value.placed node op _)
        · exact hands_fail

theorem hands_ternary {cond : Expr Unit} (condRewritten : cond.Rewritten first x handed)
    (leftRewritten : left.Rewritten first y more)
    (rightRewritten : right.Rewritten first z further) (node : Bare) :
    Hands first (ternary node x y z) fun whole last =>
      (Expr.ternary node cond left right).Rewritten first whole
        (handed ++ (more ++ (further ++ last))) := by
  have unchanged (type : Ty) :
      Hands first (pure (.ternary (node.typed type) x y z)) fun whole last =>
        (Expr.ternary node cond left right).Rewritten first whole
          (handed ++ (more ++ (further ++ last))) := by
    simpa only [List.append_assoc] using hands_of_rewritten (rewritten_ternary
      condRewritten.placed leftRewritten.placed rightRewritten.placed node type)
  simp only [ternary]
  split
  · exact unchanged _
  · split
    · apply (hands_widen rightRewritten _).bind
      intro widened casts placed
      apply hands_pure
      rw [List.append_nil, ← List.append_assoc]
      exact rewritten_ternary condRewritten.placed leftRewritten.placed placed node _
    · split
      · apply (hands_widen leftRewritten _).bind
        intro widened casts placed
        have whole := rewritten_ternary condRewritten.placed placed rightRewritten.placed node
          (z.label.withFinal true)
        apply hands_pure
        refine ⟨whole.1, whole.2.trans (List.Perm.append_left _ ?_)⟩
        rw [List.perm_iff_count]
        intro number
        simp only [List.count_append, List.count_nil]
        omega
      · exact unchanged _

theorem hands_array {items : List (Expr Unit)} {xs : List TypedExpr}
    (rewritten : RewrittenAll first items xs handed) (node : Bare) :
    Hands first (array node xs) fun whole more =>
      (Expr.array node items).Rewritten first whole (handed ++ more) := by
  simp only [array]
  apply (hands_mapM_widen _ rewritten).bind
  intro ys more placed
  apply hands_pure
  rw [List.append_nil]
  exact ⟨⟨_, _, placed.1, rfl⟩, placed.2.root rfl⟩

theorem hands_index (leftRewritten : left.Rewritten first x handed)
    (rightRewritten : right.Rewritten first y more) (node : Bare) :
    Hands first (index node x y) fun whole further =>
      (Expr.index node left right).Rewritten first whole (handed ++ (more ++ further)) := by
  unfold index
  split
  · split
    · simpa only [List.append_assoc] using hands_of_rewritten
        (rewritten_index leftRewritten.placed rightRewritten.placed node _)
    · exact hands_fail
  · exact hands_fail

theorem hands_argument (rewritten : e.Rewritten first x handed) (signature : Signature)
    (name : String) (position : Nat) :
    Hands first (argument signature name position x) fun y more =>
      e.Placed first y (handed ++ more) := by
  unfold argument
  split
  · exact hands_coerce rewritten _ _
  · exact hands_fail

theorem hands_call {args : List (Expr Unit)} {xs : List TypedExpr}
    (callee : e.Rewritten first x handed) (placed : PlacedAll first args xs more) (node : Bare)
    (signature : Signature) (name : String) :
    Hands first (call node signature name x xs) fun whole further =>
      (Expr.call node e args).Rewritten first whole (handed ++ (more ++ further)) := by
  simp only [call]
  split
  · simpa only [List.append_assoc] using hands_of_rewritten (rewritten_call callee placed node _)
  · exact hands_fail

end

/-! ## Expressions -/

mutual

theorem hands_expr (env : TypeEnv) : ∀ e : Expr Unit,
    Hands first (e.check env) (e.Rewritten first)
  | .ident node name => hands_ident env node name
  | .constant _ _ => hands_pure ⟨⟨_, _, .same _, rfl⟩, ExprEntry.grown_nil.root rfl⟩
  | .typeLiteral node written => hands_pure (rewritten_literal node written _)
  | .unary node op operand => by
      rw [Expr.check]
      exact (hands_expr env operand).value fun _ _ rewritten => hands_unary rewritten node op
  | .binary node op left right => by
      have one : Hands first (left.check env) _ := hands_expr env left
      have two : Hands first (right.check env) _ := hands_expr env right
      rw [Expr.check.eq_def]
      dsimp only
      split
      · next isCast =>
          rw [isCast]
          split
          · exact one.value fun _ _ rewritten => hands_cast rewritten node _ _
          · exact hands_fail
      · split
        · next assigns =>
            split
            · apply one.value
              intro target handed leftRewritten
              unfold assignable
              split
              · exact nofun
              · exact two.value fun _ _ rightRewritten =>
                  hands_assignment leftRewritten rightRewritten node assigns
            · exact hands_fail
        · apply one.value
          intro x handed leftRewritten
          exact two.value fun _ _ rightRewritten =>
            hands_binary leftRewritten rightRewritten node op
  | .ternary node cond thenBranch elseBranch => by
      rw [Expr.check]
      apply (hands_expr env cond).value
      intro c handed condRewritten
      apply (hands_expr env thenBranch).value
      intro x more thenRewritten
      exact (hands_expr env elseBranch).value fun _ _ elseRewritten =>
        hands_ternary condRewritten thenRewritten elseRewritten node
  | .call node callee args => by
      rw [Expr.check]
      apply (hands_expr env callee).value
      intro f handed calleeRewritten
      split
      · split
        · apply (hands_args env _ _ 0 args).bind
          exact fun _ _ placed => hands_call calleeRewritten placed node _ _
        · exact hands_fail
      · split
        · apply (hands_exprs env args).bind
          intro xs more rewritten
          apply hands_pure
          rw [List.append_nil]
          exact rewritten_call calleeRewritten rewritten.placed node _
        · exact hands_fail
  | .array node items => by
      rw [Expr.check]
      exact (hands_exprs env items).bind fun _ _ rewritten => hands_array rewritten node
  | .index node receiver subscript => by
      rw [Expr.check]
      apply (hands_expr env receiver).value
      intro x handed receiverRewritten
      exact (hands_expr env subscript).value fun _ _ subscriptRewritten =>
        hands_index receiverRewritten subscriptRewritten node

theorem hands_exprs (env : TypeEnv) : ∀ es : List (Expr Unit),
    Hands first (Expr.checkAll env es) (RewrittenAll first es)
  | [] => hands_pure .nil
  | e :: rest => by
      rw [Expr.checkAll]
      apply (hands_expr env e).value
      intro x handed rewritten
      apply (hands_exprs env rest).bind
      intro others more othersRewritten
      apply hands_pure
      rw [List.append_nil]
      exact .cons rewritten othersRewritten

theorem hands_args (env : TypeEnv) (signature : Signature) (name : String) :
    ∀ (position : Nat) (es : List (Expr Unit)),
      Hands first (Expr.checkArgs env signature name position es) (PlacedAll first es)
  | _, [] => hands_pure placedAll_nil
  | position, e :: rest => by
      rw [Expr.checkArgs]
      apply (hands_expr env e).value
      intro x handed rewritten
      apply (hands_argument rewritten signature name position).bind
      intro y more placed
      apply (hands_args env signature name (position + 1) rest).bind
      intro others further othersPlaced
      apply hands_pure
      rw [List.append_nil, ← List.append_assoc]
      exact placed.cons othersPlaced

end

theorem hands_checkValue (env : TypeEnv) (e : Expr Unit) :
    Hands first (e.checkValue env) (e.Rewritten first) := by
  rw [Expr.checkValue]
  apply (hands_expr env e).bind
  intro x handed rewritten
  unfold requireValue
  split
  · exact hands_fail
  · exact hands_of_rewritten rewritten

theorem hands_checkValueOption (env : TypeEnv) : ∀ e : Option (Expr Unit),
    Hands first (Expr.checkValueOption env e) (PlacedOption first e)
  | none => hands_pure placedOption_none
  | some e => by
      apply (hands_checkValue env e).bind
      intro x handed rewritten
      apply hands_pure
      rw [List.append_nil]
      exact rewritten.placed.option

theorem hands_checkOption (env : TypeEnv) : ∀ e : Option (Expr Unit),
    Hands first (Expr.checkOption env e) (PlacedOption first e)
  | none => hands_pure placedOption_none
  | some e => by
      apply (hands_expr env e).bind
      intro x handed rewritten
      apply hands_pure
      rw [List.append_nil]
      exact rewritten.placed.option

/-! ## Parts of statements -/

/-- The check hands out no number. -/
abbrev HandsNone (first : Nat) (x : Check β) : Prop :=
  Hands first x fun _ handed => handed = []

theorem handsNone_declare (env : TypeEnv) (name : String) (type : Ty) (span : Span) :
    HandsNone first (declare env name type span) := by
  unfold declare
  split
  · exact hands_pure rfl
  · exact hands_fail

theorem handsNone_declareParams (span : Span) (env : TypeEnv) (params : List Param) :
    HandsNone first (declareParams span env params) := by
  induction params generalizing env with
  | nil => exact hands_pure rfl
  | cons param rest inductionHypothesis =>
      apply (handsNone_declare env _ _ span).bind
      rintro inner _ rfl
      exact inductionHypothesis inner

theorem handsNone_mustReturn (name : String) (ret : Ty) (body : List (Stmt Unit)) (span : Span) :
    HandsNone first (mustReturn name ret body span) := by
  unfold mustReturn
  split
  · exact hands_pure rfl
  · exact hands_fail

theorem handsNone_loopControl (around : Surroundings) (control : LoopControl) (span : Span) :
    HandsNone first (loopControl around control span) := by
  unfold loopControl
  split
  · exact hands_pure rfl
  · exact hands_fail

theorem handsNone_returnsNothing (expected : Option Ty) (span : Span) :
    HandsNone first (returnsNothing expected span) := by
  unfold returnsNothing
  split
  · split
    · exact hands_pure rfl
    · exact hands_fail
  · exact hands_pure rfl

theorem handsNone_elementType (iterable : TypedExpr) :
    HandsNone first (elementType iterable) := by
  unfold elementType
  split
  · exact hands_pure rfl
  · exact hands_pure rfl
  · exact hands_fail

theorem handsNone_itemType (written : Option TypeExpr) (element : Ty) (span : Span) :
    HandsNone first (itemType written element span) := by
  unfold itemType
  split
  · dsimp only
    split
    · exact hands_pure rfl
    · exact hands_fail
  · exact hands_pure rfl

theorem hands_initial {e : Expr Unit} {x : TypedExpr} {handed : List Nat}
    (rewritten : e.Rewritten first x handed) (written : Option TypeExpr) :
    Hands first (initial written x) fun typed more => e.Placed first typed.1 (handed ++ more) := by
  unfold initial
  split
  · apply (hands_coerce rewritten _ _).bind
    intro y more placed
    apply hands_pure
    rwa [List.append_nil]
  · exact hands_pure (by rw [List.append_nil]; exact rewritten.placed)

theorem hands_returned {e : Expr Unit} {x : TypedExpr} {handed : List Nat}
    (rewritten : e.Rewritten first x handed) (expected : Option Ty) :
    Hands first (returned expected x) fun y more => e.Placed first y (handed ++ more) := by
  unfold returned
  split
  · exact hands_coerce rewritten _ _
  · exact hands_of_placed rewritten.placed

/-! ## Statements -/

end Typing

namespace Stmt

/-- The statement is kept, and the numbers of its expressions are the old ones and those
handed out. -/
def Rewritten (first : Nat) (s : Stmt Unit) (checked : TypedStmt) (handed : List Nat) : Prop :=
  s.Kept first checked ∧ ExprEntry.Grown s.exprEntries checked.exprEntries handed

/-- The statement that may be missing is kept, and the numbers of its expressions are the
old ones and those handed out. -/
def RewrittenOption (first : Nat) (s : Option (Stmt Unit)) (checked : Option TypedStmt)
    (handed : List Nat) : Prop :=
  KeptOption first s checked ∧
    ExprEntry.Grown (exprEntriesOption s) (exprEntriesOption checked) handed

/-- The statements are kept, and the numbers of their expressions are the old ones and
those handed out. -/
def RewrittenAll (first : Nat) (stmts : List (Stmt Unit)) (checked : List TypedStmt)
    (handed : List Nat) : Prop :=
  KeptAll first stmts checked ∧
    ExprEntry.Grown (exprEntriesAll stmts) (exprEntriesAll checked) handed

end Stmt

namespace Typing

open Check Stmt

mutual

theorem hands_stmt (around : Surroundings) (env : TypeEnv) : ∀ s : Stmt Unit,
    Hands first (s.check around env) fun typed handed => s.Rewritten first typed.1 handed
  | .expr node e => by
      rw [Stmt.check]
      apply (hands_expr env e).bind
      intro x handed rewritten
      apply hands_pure
      rw [List.append_nil]
      exact ⟨⟨_, rewritten.placed.1, rfl⟩, rewritten.2⟩
  | .varDecl node binder init => by
      rw [Stmt.check]
      apply (hands_checkValue env init).bind
      intro x handed rewritten
      apply (hands_initial rewritten binder.type).bind
      rintro ⟨y, type⟩ more placed
      apply (handsNone_declare env binder.name _ node.span).bind
      rintro after _ rfl
      apply hands_pure
      simp only [List.append_nil]
      exact ⟨⟨_, placed.1, rfl⟩, placed.2⟩
  | .ret node none => by
      rw [Stmt.check]
      apply (handsNone_returnsNothing around.returns node.span).bind
      rintro _ _ rfl
      exact hands_pure ⟨⟨_, rfl, rfl⟩, ExprEntry.grown_nil⟩
  | .ret node (some e) => by
      rw [Stmt.check]
      apply (hands_checkValue env e).bind
      intro x handed rewritten
      apply (hands_returned rewritten around.returns).bind
      intro y more placed
      apply hands_pure
      rw [List.append_nil]
      exact ⟨⟨_, placed.option.1, rfl⟩, placed.2⟩
  | .ifElse node cond thenBranch elseBranch => by
      rw [Stmt.check]
      apply (hands_checkValue env cond).bind
      intro c handed condRewritten
      apply (hands_stmt around env.child thenBranch).bind
      rintro ⟨x, _⟩ more thenRewritten
      apply (hands_branch around env elseBranch).bind
      intro y further elseRewritten
      apply hands_pure
      rw [List.append_nil, ← List.append_assoc]
      exact ⟨⟨_, _, _, condRewritten.placed.1, thenRewritten.1, elseRewritten.1, rfl⟩,
        (condRewritten.2.append thenRewritten.2).append elseRewritten.2⟩
  | .whileLoop node cond body => by
      rw [Stmt.check]
      apply (hands_checkValue env cond).bind
      intro c handed condRewritten
      apply (hands_stmt around.loopBody env.child body).bind
      rintro ⟨x, _⟩ more bodyRewritten
      apply hands_pure
      rw [List.append_nil]
      exact ⟨⟨_, _, condRewritten.placed.1, bodyRewritten.1, rfl⟩,
        condRewritten.2.append bodyRewritten.2⟩
  | .doWhile node body cond => by
      rw [Stmt.check]
      apply (hands_checkValue env cond).bind
      intro c handed condRewritten
      apply (hands_stmt around.loopBody env.child body).bind
      rintro ⟨x, _⟩ more bodyRewritten
      apply hands_pure
      rw [List.append_nil]
      exact ⟨⟨_, _, condRewritten.placed.1, bodyRewritten.1, rfl⟩,
        (bodyRewritten.2.append condRewritten.2).trans
          (List.Perm.append_left _ List.perm_append_comm)⟩
  | .forLoop node init cond step body => by
      rw [Stmt.check]
      apply (hands_init around env.child init).bind
      rintro ⟨i, inner⟩ handed initRewritten
      apply (hands_checkValueOption inner cond).bind
      intro c more condPlaced
      apply (hands_checkOption inner step).bind
      intro n further stepPlaced
      apply (hands_stmt around.loopBody inner.child body).bind
      rintro ⟨x, _⟩ last bodyRewritten
      apply hands_pure
      rw [List.append_nil, ← List.append_assoc, ← List.append_assoc]
      exact ⟨⟨_, _, _, _, initRewritten.1, condPlaced.1, stepPlaced.1, bodyRewritten.1, rfl⟩,
        ((initRewritten.2.append condPlaced.2).append stepPlaced.2).append bodyRewritten.2⟩
  | .forEach node binder iterable body => by
      rw [Stmt.check]
      apply (hands_checkValue env iterable).bind
      intro xs handed iterableRewritten
      apply (handsNone_elementType xs).bind
      rintro element _ rfl
      apply (handsNone_itemType binder.type element node.span).bind
      rintro type _ rfl
      apply (handsNone_declare env.child binder.name _ node.span).bind
      rintro inner _ rfl
      apply (hands_stmt around.loopBody inner.child body).bind
      rintro ⟨x, _⟩ more bodyRewritten
      apply hands_pure
      rw [List.append_nil]
      exact ⟨⟨_, _, iterableRewritten.placed.1, bodyRewritten.1, rfl⟩,
        iterableRewritten.2.append bodyRewritten.2⟩
  | .brk node => by
      rw [Stmt.check]
      apply (handsNone_loopControl around .brk node.span).bind
      rintro _ _ rfl
      exact hands_pure ⟨rfl, ExprEntry.grown_nil⟩
  | .cont node => by
      rw [Stmt.check]
      apply (handsNone_loopControl around .cont node.span).bind
      rintro _ _ rfl
      exact hands_pure ⟨rfl, ExprEntry.grown_nil⟩
  | .block node stmts => by
      rw [Stmt.check]
      apply (hands_stmts around env.child stmts).bind
      rintro ⟨checked, _⟩ handed rewritten
      apply hands_pure
      rw [List.append_nil]
      exact ⟨⟨_, rewritten.1, rfl⟩, rewritten.2⟩
  | .function node written name params body => by
      rw [Stmt.check]
      apply (handsNone_declare env name _ node.span).bind
      rintro after _ rfl
      apply (handsNone_declareParams node.span after.child params).bind
      rintro inner _ rfl
      apply (hands_stmts _ inner body).bind
      rintro ⟨checked, _⟩ handed rewritten
      apply (handsNone_mustReturn name _ body node.span).bind
      rintro _ _ rfl
      apply hands_pure
      simp only [List.append_nil, List.nil_append]
      exact ⟨⟨_, rewritten.1, rfl⟩, rewritten.2⟩

theorem hands_branch (around : Surroundings) (env : TypeEnv) : ∀ s : Option (Stmt Unit),
    Hands first (Stmt.checkOption around env s) (RewrittenOption first s)
  | none => hands_pure ⟨rfl, ExprEntry.grown_nil⟩
  | some s => by
      rw [Stmt.checkOption]
      apply (hands_stmt around env.child s).bind
      rintro ⟨x, _⟩ handed rewritten
      apply hands_pure
      rw [List.append_nil]
      exact ⟨⟨_, rewritten.1, rfl⟩, rewritten.2⟩

theorem hands_init (around : Surroundings) (env : TypeEnv) : ∀ s : Option (Stmt Unit),
    Hands first (Stmt.checkInit around env s)
      fun typed handed => RewrittenOption first s typed.1 handed
  | none => hands_pure ⟨rfl, ExprEntry.grown_nil⟩
  | some s => by
      rw [Stmt.checkInit]
      apply (hands_stmt around env s).bind
      rintro ⟨x, _⟩ handed rewritten
      apply hands_pure
      rw [List.append_nil]
      exact ⟨⟨_, rewritten.1, rfl⟩, rewritten.2⟩

theorem hands_stmts (around : Surroundings) (env : TypeEnv) : ∀ stmts : List (Stmt Unit),
    Hands first (Stmt.checkAll around env stmts)
      fun typed handed => Stmt.RewrittenAll first stmts typed.1 handed
  | [] => hands_pure ⟨rfl, ExprEntry.grown_nil⟩
  | s :: rest => by
      rw [Stmt.checkAll]
      apply (hands_stmt around env s).bind
      rintro ⟨x, inner⟩ handed rewritten
      apply (hands_stmts around inner rest).bind
      rintro ⟨others, _⟩ more othersRewritten
      apply hands_pure
      rw [List.append_nil]
      exact ⟨⟨_, _, rewritten.1, othersRewritten.1, rfl⟩, rewritten.2.append othersRewritten.2⟩

end

theorem hands_program (globals : TypeEnv) (p : Program Unit) :
    Hands first (p.checked globals)
      fun q handed => p.Kept first q ∧ ExprEntry.Grown p.entries q.entries handed := by
  have body : Hands first (Stmt.checkAll .outside globals.child p.body)
      fun typed handed => Stmt.RewrittenAll first p.body typed.1 handed :=
    hands_stmts .outside globals.child p.body
  apply body.bind
  rintro ⟨body, env⟩ handed rewritten
  have tail : Hands first (Expr.checkOption env p.tail) (Expr.PlacedOption first p.tail) :=
    hands_checkOption env p.tail
  apply tail.bind
  intro tail more placed
  apply hands_pure
  rw [List.append_nil]
  exact ⟨⟨rewritten.1, placed.1, rfl⟩, rewritten.2.append placed.2⟩

end Typing

/-! ## Formulas -/

namespace Program

/-- What checking leaves of a formula with `exprs` expressions that are numbered from
zero on.

The statements are the same, number for number, and so is what stands at the end of the
formula.  Every expression keeps its number and its span, and there it is the same up to
a literal that is read as a date or a duration, or a cast of it to a type, both under
numbers from `exprs` on.  No number stands for two expressions, and none is used
twice.  Without the casts and with strings for dates and durations the formula is the one
that was read, and its free names and quoted texts are the same in any case. -/
structure RewrittenTo (p : Program Unit) (exprs : Nat) (q : TypedProgram) : Prop where
  statements : q.stmtEntries = p.stmtEntries
  body : q.body.map Stmt.number = p.body.map Stmt.number
  tail : q.tail.map Expr.number = p.tail.map Expr.number
  span : q.span = p.span
  old : p.numbers.Perm (List.range exprs)
  expressions : ∀ entry ∈ p.entries, entry.Becomes exprs q.entries
  numbers : q.numbers.Perm (List.range q.exprSize)
  uses : q.uses.Perm (List.range q.exprSize)
  restored : q.restored exprs = p
  freeVariables : q.freeVariables = p.freeVariables
  freeMethods : q.freeMethods = p.freeMethods
  strings : q.strings = p.strings

theorem kept_of_check {globals : TypeEnv} {p : Program Unit} {q : TypedProgram}
    (checked : p.check globals = .ok q) :
    p.Kept p.exprSize q ∧
      ∃ count, ExprEntry.Grown p.entries q.entries (List.range' p.exprSize count) := by
  simp only [check, StateT.run', Functor.map, Except.map] at checked
  cases ran : p.checked globals p.exprSize with
  | error error =>
      rw [ran] at checked
      cases checked
  | ok pair =>
      rw [ran] at checked
      cases checked
      have hands : Check.Hands p.exprSize (p.checked globals) _ := Typing.hands_program globals p
      rcases hands p.exprSize pair.1 pair.2 (Nat.le_refl _) ran with ⟨count, -, kept, grown⟩
      exact ⟨kept, count, grown⟩

end Program

/-- In a checked formula, too, no number is left out and none is given twice. -/
theorem Mode.numbers_of_check {mode : Mode} {tokens : TokenList} {output : Parser.Output}
    {globals : TypeEnv} {q : TypedProgram} (parsed : mode.parse tokens = .ok output)
    (checked : output.program.check globals = .ok q) :
    q.numbers.Perm (List.range q.exprSize) := by
  rcases Program.kept_of_check checked with ⟨-, count, grown⟩
  rw [exprSize_of_parse parsed] at grown
  have numbers : q.numbers.Perm (List.range (output.exprs + count)) := by
    have whole := grown.trans ((numbers_of_parse parsed).append_right _)
    have handed := List.range'_append_1 (s := 0) (m := output.exprs) (n := count)
    rw [Nat.zero_add] at handed
    rwa [List.range_eq_range', handed, ← List.range_eq_range'] at whole
  have total : q.exprSize = output.exprs + count := by
    have length := numbers.length_eq
    rwa [Program.numbers, ExprEntry.numbers, List.length_map, q.length_entries,
      List.length_range] at length
  rwa [← total] at numbers

/-- Checking rewrites a formula in two ways only: it wraps expressions in casts, and it
reads string literals as dates and durations. -/
theorem Mode.rewritten_of_check {mode : Mode} {tokens : TokenList} {output : Parser.Output}
    {globals : TypeEnv} {q : TypedProgram} (parsed : mode.parse tokens = .ok output)
    (checked : output.program.check globals = .ok q) :
    output.program.RewrittenTo output.exprs q := by
  have old := numbers_of_parse parsed
  have numbers := numbers_of_check parsed checked
  rcases Program.kept_of_check checked with ⟨kept, -⟩
  rw [exprSize_of_parse parsed] at kept
  have areOld : ExprEntry.AreOld output.exprs output.program.entries := by
    intro entry member
    have within := old.subset (List.mem_map_of_mem member)
    exact ⟨List.mem_range.mp within, isRead_of_parse parsed entry member⟩
  exact
    { statements := kept.stmtEntries
      body := kept.body.numbers
      tail := kept.tail.number
      span := kept.span
      old
      expressions := kept.becomes
      numbers
      uses := q.uses_perm_numbers.trans numbers
      restored := kept.restored areOld
      freeVariables := Program.freeNames_congr kept.free .variable
      freeMethods := Program.freeNames_congr kept.free .callee
      strings := kept.strings }

/-- In a declaration of a float with an integer, the integer is wrapped in a cast under
its old number. -/
theorem Mode.rewritten_of_check_declaration : ∃ tokens output q,
    Lexer.tokenize "float x = 1;" = .ok tokens ∧ Mode.program.parse tokens = .ok output ∧
      output.program.check .empty = .ok q ∧ output.exprs = 1 ∧ q.numbers = [0, 1, 2] ∧
        output.program.RewrittenTo output.exprs q := by
  have ends : (Lexer.tokenize "float x = 1;").toOption.bind (fun tokens =>
      (Mode.program.parse tokens).toOption.bind fun output =>
        (output.program.check .empty).toOption.map fun q => (output.exprs, q.numbers))
      = some (1, [0, 1, 2]) := by cbv
  rcases Option.bind_eq_some_iff.mp ends with ⟨tokens, lexed, ends⟩
  rcases Option.bind_eq_some_iff.mp ends with ⟨output, parsed, ends⟩
  rcases Option.map_eq_some_iff.mp ends with ⟨q, checked, numbers⟩
  have exprs : output.exprs = 1 := congrArg Prod.fst numbers
  have all : q.numbers = [0, 1, 2] := congrArg Prod.snd numbers
  have parsed' : Mode.program.parse tokens = .ok output := eq_ok_of_toOption parsed
  have checked' : output.program.check .empty = .ok q := eq_ok_of_toOption checked
  exact ⟨tokens, output, q, eq_ok_of_toOption lexed, parsed', checked', exprs, all,
    Mode.rewritten_of_check parsed' checked'⟩

end Formulae
