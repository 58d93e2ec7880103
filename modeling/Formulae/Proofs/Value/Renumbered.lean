import Formulae.Proofs.Value.Parts

/-!
# Functions under other numbers

A function that a formula declares is known by its identity and by the frame it was
declared in.  Nothing that is done with values depends on which numbers these are, as long
as different functions keep different identities: with its functions numbered anew
(`Value.renumber`), a value is combined, cast, indexed, written to and passed to built-in
functions as before, and the results and faults are the old ones numbered anew.
-/

namespace Formulae

/-- Other numbers for frames and functions.  Different functions stay different. -/
structure Renumbering where
  frame : Nat → Nat
  identity : Nat → Nat
  injective : Function.Injective identity

/-- The function under its other numbers. -/
def Closure.renumber (r : Renumbering) (f : Closure) : Closure :=
  { f with identity := r.identity f.identity, frame := r.frame f.frame }

/-- What can be called, under other numbers. -/
def Callable.renumber (r : Renumbering) : Callable → Callable
  | .declared f => .declared (f.renumber r)
  | .builtin f => .builtin f
  | .host f => .host f

namespace Value

mutual

/-- The value with its functions under other numbers. -/
def renumber (r : Renumbering) : Value → Value
  | .int n => .int n
  | .float x => .float x
  | .bool b => .bool b
  | .string text => .string text
  | .date d => .date d
  | .duration d => .duration d
  | .array items => .array (renumberAll r items)
  | .function f => .function (f.renumber r)
  | .enumeration type variant => .enumeration type variant
  | .null => .null
  | .void => .void

/-- Several values with their functions under other numbers. -/
def renumberAll (r : Renumbering) : List Value → List Value
  | [] => []
  | v :: rest => v.renumber r :: renumberAll r rest

end

end Value

/-- The fault with the functions in it under other numbers. -/
def EvalFault.renumber (r : Renumbering) : EvalFault → EvalFault
  | .invalidIndex subscript => .invalidIndex (subscript.renumber r)
  | .invalidCast value target => .invalidCast (value.renumber r) target
  | .invalidArgument function args => .invalidArgument function (Value.renumberAll r args)
  | fault => fault

/-- The failure with the functions in it under other numbers. -/
def EvalError.renumber (r : Renumbering) (e : EvalError) : EvalError :=
  { e with fault := e.fault.renumber r }

/-- The index with the functions in it under other numbers. -/
def Value.Step.renumber (r : Renumbering) (step : Value.Step) : Value.Step :=
  { step with subscript := step.subscript.renumber r }

namespace Renumbering

variable {β γ ε : Type} {bad : ε → ε} {good : β → β} {good' : γ → γ}

/-- An outcome with its result changed in one way and its failure in another. -/
def outcome (bad : ε → ε) (good : β → β) : Except ε β → Except ε β
  | .ok x => .ok (good x)
  | .error e => .error (bad e)

/-- How a computation ends under other numbers. -/
abbrev ends (r : Renumbering) (good : β → β) : Except EvalFault β → Except EvalFault β :=
  outcome (EvalFault.renumber r) good

/-- How a computation with a place in the source ends under other numbers. -/
abbrev endsAt (r : Renumbering) (good : β → β) : Except EvalError β → Except EvalError β :=
  outcome (EvalError.renumber r) good

/-- How a computation of a value ends under other numbers. -/
abbrev result (r : Renumbering) : Value.Result → Value.Result :=
  r.ends (Value.renumber r)

theorem outcome_bind {x : Except ε β} {f f' : β → Except ε γ}
    (step : ∀ b, f' (good b) = outcome bad good' (f b)) :
    (outcome bad good x >>= f') = outcome bad good' (x >>= f) := by
  cases x with
  | ok b => exact step b
  | error e => rfl

theorem outcome_map {x : Except ε β} {f : β → γ} (step : ∀ b, f (good b) = good' (f b)) :
    (outcome bad good x).map f = outcome bad good' (x.map f) := by
  cases x with
  | ok b => exact congrArg Except.ok (step b)
  | error e => rfl

end Renumbering

namespace Value

variable {r : Renumbering}

theorem renumberAll_eq_map (r : Renumbering) (vs : List Value) :
    renumberAll r vs = vs.map (renumber r) := by
  induction vs with
  | nil => rfl
  | cons v rest inductionHypothesis => rw [renumberAll, List.map_cons, inductionHypothesis]

@[simp]
theorem length_renumberAll (r : Renumbering) (vs : List Value) :
    (renumberAll r vs).length = vs.length := by
  rw [renumberAll_eq_map, List.length_map]

theorem renumber_of_isNumeric {v : Value} (numeric : v.isNumeric) : v.renumber r = v := by
  cases v <;> first | rfl | cases numeric

theorem renumberAll_of_isNumeric {vs : List Value} (numeric : vs.all isNumeric) :
    renumberAll r vs = vs := by
  have same : ∀ v ∈ vs, v.renumber r = v := fun v member =>
    renumber_of_isNumeric (List.all_eq_true.mp numeric v member)
  rw [renumberAll_eq_map, List.map_congr_left same, List.map_id']

/-! ## What does not depend on the numbers -/

@[simp]
theorem kind_renumber (v : Value) : (v.renumber r).kind = v.kind := by
  cases v <;> rfl

@[simp]
theorem isTruthy_renumber (v : Value) : (v.renumber r).isTruthy = v.isTruthy := by
  cases v with
  | array items => cases items <;> rfl
  | _ => rfl

@[simp]
theorem isNumeric_renumber (v : Value) : (v.renumber r).isNumeric = v.isNumeric := by
  cases v <;> rfl

@[simp]
theorem asFloat?_renumber (v : Value) : (v.renumber r).asFloat? = v.asFloat? := by
  cases v <;> rfl

@[simp]
theorem compare?_renumber (v w : Value) : (v.renumber r).compare? (w.renumber r) = v.compare? w := by
  cases v <;> cases w <;> rfl

mutual

@[simp]
theorem renderWith_renumber (spell : String → String → String) :
    ∀ v : Value, (v.renumber r).renderWith spell = v.renderWith spell
  | .array items => by
      rw [renumber, renderWith, renderWith, renderAll_renumber spell items]
  | .function f => by cases f <;> rfl
  | .int _ | .float _ | .bool _ | .string _ | .date _ | .duration _ | .enumeration _ _ | .null
  | .void => rfl

theorem renderAll_renumber (spell : String → String → String) :
    ∀ vs : List Value, renderAll spell (renumberAll r vs) = renderAll spell vs
  | [] => rfl
  | v :: rest => by
      rw [renumberAll, renderAll, renderAll, renderWith_renumber spell v,
        renderAll_renumber spell rest]

end

theorem same_function_renumber (f g : Callable) :
    (f.renumber r).same (g.renumber r) = f.same g := by
  cases f with
  | declared a =>
      cases g with
      | declared b => exact decide_eq_decide.mpr r.injective.eq_iff
      | _ => rfl
  | _ => cases g <;> rfl

mutual

theorem same_renumber : ∀ v w : Value, (v.renumber r).same (w.renumber r) = v.same w
  | .array as, w => by
      cases w with
      | array bs => simp only [renumber, same, sameAll_renumber as bs]
      | _ => rfl
  | .function f, w => by
      cases w with
      | function g => exact same_function_renumber f g
      | _ => rfl
  | .int _, w | .float _, w | .bool _, w | .string _, w | .date _, w | .duration _, w
  | .enumeration _ _, w | .null, w | .void, w => by cases w <;> rfl

theorem sameAll_renumber : ∀ vs ws : List Value,
    sameAll (renumberAll r vs) (renumberAll r ws) = sameAll vs ws
  | [], ws => by cases ws <;> rfl
  | v :: vs, ws => by
      cases ws with
      | nil => rfl
      | cons w ws => simp only [renumberAll, sameAll, same_renumber v w, sameAll_renumber vs ws]

end

theorem plainEquals_renumber (v w : Value) :
    (v.renumber r).plainEquals (w.renumber r) = v.plainEquals w := by
  simp only [plainEquals, isNumeric_renumber, compare?_renumber, same_renumber]

theorem equals_renumber_of_plain {v : Value} (plain : v.asArray? = none) (w : Value) :
    (v.renumber r).equals (w.renumber r) = v.equals w := by
  have same := plainEquals_renumber (r := r) v w
  cases v <;> first | exact same | cases plain

mutual

theorem equals_renumber : ∀ v w : Value, (v.renumber r).equals (w.renumber r) = v.equals w
  | .array as, w => by
      cases w with
      | array bs => simp only [renumber, equals, equalsAll_renumber as bs]
      | _ => rfl
  | .int _, w | .float _, w | .bool _, w | .string _, w | .date _, w | .duration _, w
  | .function _, w | .enumeration _ _, w | .null, w | .void, w => equals_renumber_of_plain rfl w

theorem equalsAll_renumber : ∀ vs ws : List Value,
    equalsAll (renumberAll r vs) (renumberAll r ws) = equalsAll vs ws
  | [], ws => by cases ws <;> rfl
  | v :: vs, ws => by
      cases ws with
      | nil => rfl
      | cons w ws =>
          simp only [renumberAll, equalsAll, equals_renumber v w, equalsAll_renumber vs ws]

end

/-! ## Operators -/

/-- The result holds nothing that has a number. -/
def Unnumbered (r : Renumbering) (result : Result) : Prop :=
  r.result result = result

theorem unnumbered_exact {α : Type} (arithmetic : Checked) {wrap : α → Value}
    (same : ∀ x, (wrap x).renumber r = wrap x) (result : Option α) :
    Unnumbered r (exact arithmetic wrap result) := by
  cases result with
  | none => rfl
  | some x => exact congrArg Except.ok (same x)

theorem unnumbered_integerArithmetic (op : Operator) (a b : Int64) :
    Unnumbered r (integerArithmetic op a b) := by
  unfold integerArithmetic
  split
  · exact unnumbered_exact _ (fun _ => rfl) _
  · exact unnumbered_exact _ (fun _ => rfl) _
  · exact unnumbered_exact _ (fun _ => rfl) _
  · split <;> rfl
  · split
    · rfl
    · exact unnumbered_exact _ (fun _ => rfl) _
  · rfl

theorem unnumbered_floatArithmetic (op : Operator) (x y : Float) :
    Unnumbered r (floatArithmetic op x y) := by
  unfold floatArithmetic
  split <;> rfl

theorem unnumbered_shifted (date : Option Date) : Unnumbered r (shifted date) := by
  cases date <;> rfl

theorem unnumbered_plainArithmetic {op : Operator} {left right : Value} {result : Result}
    (rule : plainArithmetic? op left right = some result) : Unnumbered r result := by
  unfold plainArithmetic? at rule
  split at rule
  · cases rule
    exact unnumbered_integerArithmetic _ _ _
  · cases rule
    exact unnumbered_floatArithmetic _ _ _
  · cases rule
    exact unnumbered_floatArithmetic _ _ _
  · cases rule
    exact unnumbered_floatArithmetic _ _ _
  · split at rule <;> cases rule
    rfl
  · split at rule <;> cases rule <;> exact unnumbered_shifted _
  · split at rule <;> cases rule
    rfl
  · split at rule <;> cases rule <;> exact unnumbered_exact _ (fun _ => rfl) _
  · split at rule <;> cases rule
    exact unnumbered_exact _ (fun _ => rfl) _
  · cases rule

theorem plainArithmetic?_renumber (op : Operator) (v w : Value) :
    plainArithmetic? op (v.renumber r) (w.renumber r) = plainArithmetic? op v w := by
  cases v <;> cases w <;> rfl

theorem mismatch_renumber (op : Operator) (v w : Value) :
    mismatch op (v.renumber r) (w.renumber r) = r.result (mismatch op v w) := by
  simp only [mismatch, kind_renumber]
  rfl

theorem scalarArithmetic_renumber (op : Operator) (v w : Value) :
    scalarArithmetic op (v.renumber r) (w.renumber r) = r.result (scalarArithmetic op v w) := by
  unfold scalarArithmetic
  rw [plainArithmetic?_renumber]
  split
  · next rule => exact (unnumbered_plainArithmetic rule).symm
  · split
    · rw [plainArithmetic?_renumber]
      cases rule : plainArithmetic? op w v with
      | none => exact mismatch_renumber op v w
      | some result => exact (unnumbered_plainArithmetic rule).symm
    · exact mismatch_renumber op v w

theorem array_renumber (vs : List Value) : array (renumberAll r vs) = (array vs).renumber r :=
  rfl

theorem spread_renumber_of_plain (op : Operator) (right : Value) {left : Value}
    (plain : left.asArray? = none) :
    spread op (right.renumber r) (left.renumber r) = r.result (spread op right left) := by
  have same := scalarArithmetic_renumber (r := r) op left right
  cases left <;> first | exact same | cases plain

mutual

theorem spread_renumber (op : Operator) (right : Value) : ∀ left : Value,
    spread op (right.renumber r) (left.renumber r) = r.result (spread op right left)
  | .array items => by
      rw [renumber, spread, spread, spreadAll_renumber op right items]
      exact Renumbering.outcome_map array_renumber
  | .int _ | .float _ | .bool _ | .string _ | .date _ | .duration _ | .function _
  | .enumeration _ _ | .null | .void => spread_renumber_of_plain op right rfl

theorem spreadAll_renumber (op : Operator) (right : Value) : ∀ lefts : List Value,
    spreadAll op (right.renumber r) (renumberAll r lefts) =
      r.ends (renumberAll r) (spreadAll op right lefts)
  | [] => rfl
  | left :: rest => by
      rw [renumberAll, spreadAll, spreadAll, spread_renumber op right left,
        spreadAll_renumber op right rest]
      exact Renumbering.outcome_bind fun _ => Renumbering.outcome_bind fun _ => rfl

end

theorem map_array_renumber {vs vs' : Except EvalFault (List Value)}
    (same : vs' = r.ends (renumberAll r) vs) : vs'.map array = r.result (vs.map array) :=
  (congrArg (Except.map array) same).trans (Renumbering.outcome_map array_renumber)

theorem arithmetic_renumber_of_plain_left (op : Operator) {left : Value}
    (plain : left.asArray? = none) (right : Value) :
    arithmetic op (left.renumber r) (right.renumber r) = r.result (arithmetic op left right) := by
  have scalar := scalarArithmetic_renumber (r := r) op left right
  cases right with
  | array bs =>
      have each := map_array_renumber (spreadAll_renumber (r := r) op left bs)
      cases left
      case array => cases plain
      all_goals
        simp only [renumber, arithmetic]
        split
        · exact each
        · rfl
  | _ =>
      cases left
      case array => cases plain
      all_goals exact scalar

theorem arithmetic_renumber_of_plain_right (op : Operator) (as : List Value) {right : Value}
    (plain : right.asArray? = none) :
    arithmetic op ((array as).renumber r) (right.renumber r) =
      r.result (arithmetic op (array as) right) := by
  have same := map_array_renumber (spreadAll_renumber (r := r) op right as)
  cases right <;> first | exact same | cases plain

mutual

theorem arithmetic_renumber (op : Operator) : ∀ left right : Value,
    arithmetic op (left.renumber r) (right.renumber r) = r.result (arithmetic op left right)
  | .array as, .array bs => by
      simp only [renumber, arithmetic, length_renumberAll]
      split
      · exact map_array_renumber (arithmeticAll_renumber op as bs)
      · rfl
  | .array as, .int _ | .array as, .float _ | .array as, .bool _ | .array as, .string _
  | .array as, .date _ | .array as, .duration _ | .array as, .function _
  | .array as, .enumeration _ _ | .array as, .null | .array as, .void =>
      arithmetic_renumber_of_plain_right op as rfl
  | .int _, right | .float _, right | .bool _, right | .string _, right | .date _, right
  | .duration _, right | .function _, right | .enumeration _ _, right | .null, right
  | .void, right => arithmetic_renumber_of_plain_left op rfl right

theorem arithmeticAll_renumber (op : Operator) : ∀ lefts rights : List Value,
    arithmeticAll op (renumberAll r lefts) (renumberAll r rights) =
      r.ends (renumberAll r) (arithmeticAll op lefts rights)
  | [], _ => rfl
  | _ :: _, [] => rfl
  | left :: lefts, right :: rights => by
      rw [renumberAll, renumberAll, arithmeticAll, arithmeticAll, arithmetic_renumber op left right,
        arithmeticAll_renumber op lefts rights]
      exact Renumbering.outcome_bind fun _ => Renumbering.outcome_bind fun _ => rfl

end

theorem binary_renumber (op : Operator) (v w : Value) :
    (v.renumber r).binary op (w.renumber r) = r.result (v.binary op w) := by
  cases op
  case add | sub | mul | div | mod => exact arithmetic_renumber _ v w
  case lt | gt | ltEq | gtEq =>
    simp only [binary, compare?_renumber]
    split
    · rfl
    · exact mismatch_renumber _ v w
  all_goals
    simp only [binary, isTruthy_renumber, equals_renumber]
    rfl

mutual

theorem negated_renumber : ∀ v : Value, (v.renumber r).negated = r.result v.negated
  | .int _ => (unnumbered_exact _ (fun _ => rfl) _).symm
  | .duration _ => (unnumbered_exact _ (fun _ => rfl) _).symm
  | .array items => by
      rw [renumber, negated, negated, negatedAll_renumber items]
      exact Renumbering.outcome_map array_renumber
  | .float _ | .bool _ | .string _ | .date _ | .function _ | .enumeration _ _ | .null | .void =>
      rfl

theorem negatedAll_renumber : ∀ vs : List Value,
    negatedAll (renumberAll r vs) = r.ends (renumberAll r) (negatedAll vs)
  | [] => rfl
  | v :: rest => by
      rw [renumberAll, negatedAll, negatedAll, negated_renumber v, negatedAll_renumber rest]
      exact Renumbering.outcome_bind fun _ => Renumbering.outcome_bind fun _ => rfl

end

theorem unary_renumber (op : Operator) (v : Value) :
    (v.renumber r).unary op = r.result (v.unary op) := by
  cases op
  case not =>
    simp only [unary, isTruthy_renumber]
    rfl
  case neg => exact negated_renumber v
  all_goals
    simp only [unary, unaryMismatch, kind_renumber]
    rfl

theorem value_renumber (constant : Constant) : r.result constant.value = constant.value := by
  unfold Constant.value
  split
  case h_7 | h_8 => split <;> rfl
  all_goals rfl

/-! ## Casts -/

theorem converted_renumber (v : Value) (target : Ty) :
    converted (v.renumber r) target (plainCast? target (v.renumber r)) =
      r.result (converted v target (plainCast? target v)) := by
  have same : plainCast? target (v.renumber r) = (plainCast? target v).map (renumber r) := by
    cases target with
    | basic type isFinal =>
        cases type
        case string =>
          cases v <;> simp only [plainCast?, renumber, render, Option.map_some]
          case array items =>
            exact congrArg (some ∘ string) (renderWith_renumber _ (.array items))
          case function f => exact congrArg (some ∘ string) (renderWith_renumber _ (.function f))
        case boolean =>
          simp only [plainCast?, isTruthy_renumber]
          rfl
        case int =>
          cases v
          case float x =>
            simp only [plainCast?, renumber, Option.map_map]
            rfl
          all_goals rfl
        case date | duration =>
          cases v
          case string text =>
            simp only [plainCast?, renumber, Option.map_map]
            rfl
          all_goals rfl
        all_goals cases v <;> rfl
    | enumeration name isFinal =>
        cases v
        case enumeration type variant =>
          simp only [plainCast?, renumber]
          split <;> rfl
        all_goals rfl
    | _ => cases v <;> rfl
  rw [same]
  cases plainCast? target v <;> rfl

theorem mapM_renumber {f : Value → Result} {vs : List Value}
    (each : ∀ v ∈ vs, f (v.renumber r) = r.result (f v)) :
    (renumberAll r vs).mapM f = r.ends (renumberAll r) (vs.mapM f) := by
  induction vs with
  | nil => rfl
  | cons v rest inductionHypothesis =>
      rw [List.forall_mem_cons] at each
      rw [renumberAll, List.mapM_cons, List.mapM_cons, each.1, inductionHypothesis each.2]
      exact Renumbering.outcome_bind fun _ => Renumbering.outcome_bind fun _ => rfl

theorem cast_renumber : ∀ (target : Ty) (v : Value),
    cast target (v.renumber r) = r.result (cast target v)
  | .array element length isFinal, v => by
      cases v with
      | array items =>
          rw [renumber, cast, cast, mapM_renumber fun item _ => cast_renumber element item]
          exact Renumbering.outcome_map array_renumber
      | _ => exact converted_renumber _ _
  | .basic _ _, v | .null _, v | .function _ _ _ _ _, v | .enumeration _ _, v
  | .typeLiteral _ _, v => converted_renumber v _

/-! ## Elements -/

theorem position_renumber (subscript : Value) (length : Nat) :
    (subscript.renumber r).position length = r.ends id (subscript.position length) := by
  cases subscript with
  | int n =>
      simp only [renumber, position]
      split <;> rfl
  | _ => rfl

theorem item_renumber (items : List Value) (n : Nat) :
    (renumberAll r items)[n]?.getD .null = (items[n]?.getD .null).renumber r := by
  rw [renumberAll_eq_map, List.getElem?_map]
  cases items[n]? <;> rfl

theorem element_renumber (receiver subscript : Value) :
    (receiver.renumber r).element (subscript.renumber r) = r.result (receiver.element subscript) := by
  cases receiver with
  | array items =>
      rw [renumber, element, element, length_renumberAll, position_renumber]
      apply Renumbering.outcome_bind
      exact fun n => congrArg Except.ok (item_renumber items n)
  | _ =>
      simp only [renumber, element, notIndexable, kind_renumber]
      rfl

theorem locate_renumber {β : Type} {good : β → β} (span : Span) (x : Except EvalFault β) :
    locate span (r.ends good x) = r.endsAt good (locate span x) := by
  cases x <;> rfl

theorem combined_renumber (base : Option Operator) (value : Value) (span : Span) (old : Value) :
    combined base (value.renumber r) span (old.renumber r) =
      r.endsAt (renumber r) (combined base value span old) := by
  cases base with
  | none => rfl
  | some op =>
      simp only [combined, binary_renumber]
      exact locate_renumber span (old.binary op value)

theorem set_renumber (items : List Value) (n : Nat) (v : Value) :
    (renumberAll r items).set n (v.renumber r) = renumberAll r (items.set n v) := by
  rw [renumberAll_eq_map, renumberAll_eq_map, List.map_set]

theorem update_renumber {store store' : Value → Except EvalError Value}
    (same : ∀ old, store' (old.renumber r) = r.endsAt (renumber r) (store old)) :
    ∀ (path : List Step) (old : Value),
      (old.renumber r).update store' (path.map (Step.renumber r)) =
        r.endsAt (Prod.map (renumber r) (renumber r)) (old.update store path)
  | [], old => by
      rw [List.map_nil, update, update, same]
      exact Renumbering.outcome_bind fun _ => rfl
  | step :: rest, old => by
      cases old with
      | array items =>
          rw [List.map_cons, renumber, update, update, length_renumberAll]
          have position := position_renumber (r := r) step.subscript items.length
          rw [Step.renumber, position, locate_renumber]
          apply Renumbering.outcome_bind
          intro n
          dsimp only [id]
          rw [item_renumber, update_renumber same rest (items[n]?.getD .null)]
          apply Renumbering.outcome_bind
          rintro ⟨element, new⟩
          exact congrArg (fun items => Except.ok (array items, new.renumber r))
            (set_renumber items n element)
      | _ =>
          simp only [List.map_cons, renumber, update, Step.renumber, notIndexable, kind_renumber]
          rfl

/-! ## Built-in functions -/

theorem floatArg_renumber (function : Builtin) (arg : Value) :
    function.floatArg (arg.renumber r) = r.ends id (function.floatArg arg) := by
  simp only [Builtin.floatArg, asFloat?_renumber]
  cases arg.asFloat? <;> rfl

theorem candidates_renumber (args : List Value) :
    Builtin.candidates (renumberAll r args) = renumberAll r (Builtin.candidates args) := by
  match args with
  | [] => rfl
  | [v] => cases v <;> rfl
  | v :: w :: rest => cases v <;> rfl

theorem all_isNumeric_renumberAll (vs : List Value) :
    (renumberAll r vs).all isNumeric = vs.all isNumeric := by
  rw [renumberAll_eq_map, List.all_map]
  exact congrArg (List.all vs) (funext isNumeric_renumber)

theorem extremum_renumber (function : Builtin) (direction : Ordering) (args : List Value) :
    function.extremum direction (renumberAll r args) =
      r.result (function.extremum direction args) := by
  have refused : function.refused (renumberAll r args) = r.result (function.refused args) := rfl
  unfold Builtin.extremum
  rw [candidates_renumber, refused]
  cases Builtin.candidates args with
  | nil => rfl
  | cons first rest =>
      by_cases numeric : (first :: rest).all isNumeric
      · rw [renumberAll_of_isNumeric numeric]
        dsimp only
        rw [if_pos numeric, if_pos numeric]
        have best : (rest.foldl (Builtin.further direction) first).isNumeric :=
          List.all_eq_true.mp numeric _ further_mem
        split
        · have arg := floatArg_renumber (r := r) function
            (rest.foldl (Builtin.further direction) first)
          rw [renumber_of_isNumeric best] at arg
          exact (congrArg (Except.map float) arg).trans (Renumbering.outcome_map fun _ => rfl)
        · exact congrArg Except.ok (renumber_of_isNumeric best).symm
      · have none := all_isNumeric_renumberAll (r := r) (first :: rest)
        rw [renumberAll] at none ⊢
        dsimp only
        rw [none, if_neg numeric, if_neg numeric]

theorem floatFunction_renumber (function : Builtin) (f : Float → Float) (args : List Value) :
    function.floatFunction f (renumberAll r args) = r.result (function.floatFunction f args) := by
  match args with
  | [] => rfl
  | [arg] =>
      simp only [renumberAll, Builtin.floatFunction, floatArg_renumber]
      exact Renumbering.outcome_map fun _ => rfl
  | _ :: _ :: rest =>
      simp only [renumberAll, Builtin.floatFunction, List.length_cons, length_renumberAll]
      rfl

theorem absolute_renumber (args : List Value) :
    Builtin.absolute (renumberAll r args) = r.result (Builtin.absolute args) := by
  -- Which magnitude is given is no concern here; finding it would count up to its bound.
  obtain ⟨magnitude?, same⟩ : ∃ f, f = Number.abs? := ⟨_, rfl⟩
  unfold Builtin.absolute
  rw [← same]
  match args with
  | [] => rfl
  | [v] =>
      cases v with
      | int n =>
          simp only [renumberAll, renumber]
          cases magnitude? n <;> rfl
      | _ => rfl
  | v :: _ :: _ => cases v <;> rfl

theorem power_renumber (args : List Value) :
    Builtin.power (renumberAll r args) = r.result (Builtin.power args) := by
  match args with
  | [] => rfl
  | [_] => rfl
  | [base, exponent] =>
      simp only [renumberAll, Builtin.power, floatArg_renumber]
      exact Renumbering.outcome_bind fun _ => Renumbering.outcome_bind fun _ => rfl
  | _ :: _ :: _ :: rest =>
      simp only [renumberAll, Builtin.power, List.length_cons, length_renumberAll]
      rfl

theorem vector_renumber (args : List Value) :
    Builtin.vector (renumberAll r args) = (Builtin.vector args).renumber r := by
  by_cases numeric : args.all isNumeric
  · rw [renumberAll_of_isNumeric numeric]
    unfold Builtin.vector
    split
    · symm
      apply congrArg array
      apply renumberAll_of_isNumeric
      rw [List.all_eq_true]
      intro v member
      rcases List.mem_filterMap.mp member with ⟨arg, _, isFloat⟩
      rcases Option.map_eq_some_iff.mp isFloat with ⟨x, _, rfl⟩
      rfl
    · exact congrArg array (renumberAll_of_isNumeric numeric).symm
  · have none : args.all isNumeric = false := Bool.eq_false_iff.mpr numeric
    simp only [Builtin.vector, all_isNumeric_renumberAll, none, Bool.false_and]
    rfl

theorem size_renumber (args : List Value) :
    Builtin.size (renumberAll r args) = r.result (Builtin.size args) := by
  match args with
  | [] => rfl
  | [v] =>
      cases v with
      | array items =>
          simp only [renumberAll, renumber, Builtin.size, length_renumberAll]
          rfl
      | _ => rfl
  | v :: _ :: _ => cases v <;> rfl

theorem call_renumber (function : Builtin) (args : List Value) :
    function.call (renumberAll r args) = r.result (function.call args) := by
  cases function with
  | min | max => exact extremum_renumber _ _ args
  | abs => exact absolute_renumber args
  | pow => exact power_renumber args
  | sqrt | floor | ceil | round | sin | cos | tan => exact floatFunction_renumber _ _ args
  | asVector => exact congrArg Except.ok (vector_renumber args)
  | sizeof => exact size_renumber args

/-! ## Functions that keep their numbers -/

mutual

theorem renumber_eq_self_iff : ∀ v : Value,
    v.renumber r = v ↔ v.Functions fun f => f.renumber r = f
  | .array items => by
      rw [Functions, every_array, renumber, array.injEq, renumberAll_eq_self_iff items]
      rfl
  | .function (.declared f) => by
      rw [functions_declared]
      simp [renumber, Callable.renumber]
  | .function (.builtin f) => iff_of_true rfl (functions_builtin f)
  | .function (.host f) => iff_of_true rfl (functions_host f)
  | .enumeration type variant =>
      iff_of_true rfl (@every_of_part _ (enumeration type variant) rfl nofun)
  | .void => iff_of_true rfl functions_void
  | .int _ | .float _ | .bool _ | .string _ | .date _ | .duration _ | .null =>
      iff_of_true rfl (functions_of_isData rfl)

theorem renumberAll_eq_self_iff : ∀ vs : List Value,
    renumberAll r vs = vs ↔ ∀ v ∈ vs, v.Functions fun f => f.renumber r = f
  | [] => iff_of_true rfl nofun
  | v :: rest => by
      rw [renumberAll, List.cons.injEq, renumber_eq_self_iff v, renumberAll_eq_self_iff rest,
        List.forall_mem_cons]

end

end Value

end Formulae
