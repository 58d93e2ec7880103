import Formulae.Proofs.Value.Ends

/-!
# What values are made of

A value is data, a function, nothing, or an array of values.  Operators make data;
casts, elements, assignments to elements and built-in functions hand on parts of their
operands besides.  So none of them makes a function: what holds of data and of all
parts of the operands holds of all parts of the result.  Nor do their faults ever speak
of names, or of anything but values (`EvalFault.isOfValues`).
-/

namespace Formulae

/-- The fault is about what a name is bound to. -/
def EvalFault.isAboutName : EvalFault → Bool
  | .unboundVariable _ | .unresolvedMethod _ | .bug (.finalAssigned _) => true
  | _ => false

/-- The fault is one of those that computations on values end with. -/
def EvalFault.isOfValues : EvalFault → Bool
  | .outOfRange _ _ | .invalidIndex _ | .binaryMismatch _ _ _ | .unaryMismatch _ _
  | .invalidCast _ _ | .divisionByZero | .overflow _ | .dateOutOfRange | .lengthMismatch _ _
  | .argumentCount _ _ _ | .invalidArgument _ _
  | .bug (.operatorWithoutRule _) | .bug .unparsableDate | .bug .unparsableDuration => true
  | _ => false

theorem EvalFault.isAboutName_of_isOfValues {fault : EvalFault} (isOfValues : fault.isOfValues) :
    fault.isAboutName = false := by
  cases fault with
  | bug cause => cases cause <;> first | rfl | cases isOfValues
  | _ => first | rfl | cases isOfValues

namespace Value

mutual

/-- The parts of a value that are no arrays. -/
def parts : Value → List Value
  | .array items => partsAll items
  | v => [v]

/-- The parts of several values that are no arrays. -/
def partsAll : List Value → List Value
  | [] => []
  | v :: rest => v.parts ++ partsAll rest

end

/-- All parts of the value have a property. -/
def Every (property : Value → Prop) (v : Value) : Prop :=
  ∀ part ∈ v.parts, property part

/-- Numbers, truth values, texts, dates, durations and null. -/
def isData : Value → Bool
  | .int _ | .float _ | .bool _ | .string _ | .date _ | .duration _ | .null => true
  | .array _ | .function _ | .enumeration _ _ | .void => false

/-- A result made of data, or a fault of values. -/
abbrev GivesData : Result → Prop :=
  Ends (Every (isData ·)) fun fault => fault.isOfValues

/-- A result whose parts have a property, or a fault of values. -/
abbrev Gives (property : Value → Prop) : Result → Prop :=
  Ends (Every property) fun fault => fault.isOfValues

variable {property : Value → Prop} {v w : Value}

theorem mem_partsAll {part : Value} {vs : List Value} :
    part ∈ partsAll vs ↔ ∃ v ∈ vs, part ∈ v.parts := by
  induction vs with
  | nil => simp [partsAll]
  | cons v rest inductionHypothesis => simp [partsAll, inductionHypothesis]

theorem every_array {items : List Value} :
    (array items).Every property ↔ ∀ v ∈ items, v.Every property := by
  constructor
  · exact fun every v member part isPart => every part (mem_partsAll.mpr ⟨v, member, isPart⟩)
  · intro every part isPart
    rcases mem_partsAll.mp isPart with ⟨v, member, isPart⟩
    exact every v member part isPart

theorem every_of_part (single : v.parts = [v]) (h : property v) : v.Every property := by
  intro part isPart
  rw [single, List.mem_singleton] at isPart
  exact isPart ▸ h

theorem Every.mono {property' : Value → Prop} (every : v.Every property)
    (h : ∀ part, property part → property' part) : v.Every property' :=
  fun part isPart => h part (every part isPart)

theorem every_data (data : v.isData) (h : ∀ part, part.isData → property part) :
    v.Every property := by
  apply every_of_part
  · cases v <;> first | rfl | cases data
  · exact h v data

/-! ## Functions in values -/

/-- Every function in the value that was declared in a formula has a property. -/
def Functions (property : Closure → Prop) (v : Value) : Prop :=
  v.Every fun part => ∀ f, part = .function (.declared f) → property f

section

variable {holds holds' : Closure → Prop}

theorem no_function_of_isData {part : Value} (data : part.isData) (f : Closure)
    (isFunction : part = .function (.declared f)) : holds f := by
  subst isFunction
  cases data

theorem functions_of_isData (data : v.isData) : v.Functions holds :=
  every_data data fun _ => no_function_of_isData

theorem functions_void : void.Functions holds :=
  @every_of_part _ void rfl nofun

theorem functions_builtin (function : Builtin) :
    (Value.function (.builtin function)).Functions holds :=
  @every_of_part _ (.function (.builtin function)) rfl nofun

theorem functions_host (f : HostFunction) : (Value.function (.host f)).Functions holds :=
  @every_of_part _ (.function (.host f)) rfl nofun

theorem functions_declared {f : Closure} :
    (Value.function (.declared f)).Functions holds ↔ holds f := by
  constructor
  · exact fun every => every _ (List.mem_singleton_self _) f rfl
  · intro h
    refine @every_of_part _ (.function (.declared f)) rfl ?_
    rintro _ ⟨⟩
    exact h

theorem Functions.mono (every : v.Functions holds) (h : ∀ f, holds f → holds' f) :
    v.Functions holds' :=
  Every.mono every fun _ each f isFunction => h f (each f isFunction)

end

/-! ## Operators give data -/

theorem givesData_ok (data : v.isData) : GivesData (.ok v) :=
  every_data data fun _ => id

theorem givesData_exact {α : Type} (arithmetic : Checked) {wrap : α → Value}
    (data : ∀ x, (wrap x).isData) (result : Option α) :
    GivesData (exact arithmetic wrap result) := by
  cases result with
  | none => exact ends_error rfl
  | some x => exact givesData_ok (data x)

theorem givesData_integerArithmetic (op : Operator) (a b : Int64) :
    GivesData (integerArithmetic op a b) := by
  unfold integerArithmetic
  split
  · exact givesData_exact _ (fun _ => rfl) _
  · exact givesData_exact _ (fun _ => rfl) _
  · exact givesData_exact _ (fun _ => rfl) _
  · split
    · exact ends_error rfl
    · exact givesData_ok rfl
  · split
    · exact ends_error rfl
    · exact givesData_exact _ (fun _ => rfl) _
  · exact ends_error rfl

theorem givesData_floatArithmetic (op : Operator) (x y : Float) :
    GivesData (floatArithmetic op x y) := by
  unfold floatArithmetic
  split <;> first | exact givesData_ok rfl | exact ends_error rfl

theorem givesData_shifted (date : Option Date) : GivesData (shifted date) := by
  cases date with
  | none => exact ends_error rfl
  | some d => exact givesData_ok rfl

theorem givesData_plainArithmetic {op : Operator} {left right : Value} {result : Result}
    (rule : plainArithmetic? op left right = some result) : GivesData result := by
  unfold plainArithmetic? at rule
  split at rule
  · cases rule
    exact givesData_integerArithmetic _ _ _
  · cases rule
    exact givesData_floatArithmetic _ _ _
  · cases rule
    exact givesData_floatArithmetic _ _ _
  · cases rule
    exact givesData_floatArithmetic _ _ _
  · split at rule <;> cases rule
    exact givesData_ok rfl
  · split at rule <;> cases rule <;> exact givesData_shifted _
  · split at rule <;> cases rule
    exact givesData_ok rfl
  · split at rule <;> cases rule <;> exact givesData_exact _ (fun _ => rfl) _
  · split at rule <;> cases rule
    exact givesData_exact _ (fun _ => rfl) _
  · cases rule

theorem givesData_scalarArithmetic (op : Operator) (left right : Value) :
    GivesData (scalarArithmetic op left right) := by
  unfold scalarArithmetic
  split
  · next rule => exact givesData_plainArithmetic rule
  · split
    · cases rule : plainArithmetic? op right left with
      | none => exact ends_error rfl
      | some result => exact givesData_plainArithmetic rule
    · exact ends_error rfl

/-- The results of one step, put before those of the others. -/
theorem ends_cons {first : Result} {others : Except EvalFault (List Value)}
    {bad : EvalFault → Prop} (one : Ends (Every property) bad first)
    (more : Ends (fun vs => ∀ v ∈ vs, v.Every property) bad others) :
    Ends (fun vs => ∀ v ∈ vs, v.Every property) bad
      (do let v ← first
          let vs ← others
          return v :: vs) :=
  one.bind fun _ head => more.bind fun _ tail => ends_ok (List.forall_mem_cons.mpr ⟨head, tail⟩)

mutual

theorem givesData_spread (op : Operator) (right : Value) :
    ∀ left, GivesData (spread op right left)
  | .array items => by
      rw [spread]
      exact (givesData_spreadAll op right items).map fun _ => every_array.mpr
  | .int _ | .float _ | .bool _ | .string _ | .date _ | .duration _ | .function _
  | .enumeration _ _ | .null | .void => by
      simp only [spread]
      exact givesData_scalarArithmetic op _ right

theorem givesData_spreadAll (op : Operator) (right : Value) :
    ∀ lefts, Ends (fun vs => ∀ v ∈ vs, v.Every (isData ·)) (fun fault => fault.isOfValues)
      (spreadAll op right lefts)
  | [] => ends_ok nofun
  | left :: rest => by
      rw [spreadAll]
      exact ends_cons (givesData_spread op right left) (givesData_spreadAll op right rest)

end

mutual

theorem givesData_arithmetic (op : Operator) : ∀ left right, GivesData (arithmetic op left right)
  | .array as, right => by
      cases right with
      | array bs =>
          rw [arithmetic]
          split
          · exact (givesData_arithmeticAll op as bs).map fun _ => every_array.mpr
          · exact ends_error rfl
      | _ =>
          simp only [arithmetic]
          exact (givesData_spreadAll op _ as).map fun _ => every_array.mpr
  | .int _, right | .float _, right | .bool _, right | .string _, right | .date _, right
  | .duration _, right | .function _, right | .enumeration _ _, right | .null, right
  | .void, right => by
      cases right with
      | array bs =>
          simp only [arithmetic]
          split
          · exact (givesData_spreadAll op _ bs).map fun _ => every_array.mpr
          · exact ends_error rfl
      | _ =>
          simp only [arithmetic]
          exact givesData_scalarArithmetic op _ _

theorem givesData_arithmeticAll (op : Operator) :
    ∀ lefts rights, Ends (fun vs => ∀ v ∈ vs, v.Every (isData ·))
      (fun fault => fault.isOfValues) (arithmeticAll op lefts rights)
  | [], _ => ends_ok nofun
  | _ :: _, [] => ends_ok nofun
  | left :: lefts, right :: rights => by
      rw [arithmeticAll]
      exact ends_cons (givesData_arithmetic op left right)
        (givesData_arithmeticAll op lefts rights)

end

theorem givesData_binary (op : Operator) (left right : Value) :
    GivesData (binary op left right) := by
  unfold binary
  split <;> first
    | exact givesData_arithmetic _ _ _
    | exact givesData_ok rfl
    | exact ends_error rfl
    | skip
  all_goals
    split
    · exact givesData_ok rfl
    · exact ends_error rfl

mutual

theorem givesData_negated : ∀ v : Value, GivesData v.negated
  | .int _ => givesData_exact _ (fun _ => rfl) _
  | .float _ => givesData_ok rfl
  | .duration _ => givesData_exact _ (fun _ => rfl) _
  | .array items => by
      rw [negated]
      exact (givesData_negatedAll items).map fun _ => every_array.mpr
  | .bool _ | .string _ | .date _ | .function _ | .enumeration _ _ | .null | .void =>
      ends_error rfl

theorem givesData_negatedAll :
    ∀ operands, Ends (fun vs => ∀ v ∈ vs, v.Every (isData ·))
      (fun fault => fault.isOfValues) (negatedAll operands)
  | [] => ends_ok nofun
  | operand :: rest => by
      rw [negatedAll]
      exact ends_cons (givesData_negated operand) (givesData_negatedAll rest)

end

theorem givesData_unary (op : Operator) (operand : Value) : GivesData (unary op operand) := by
  unfold unary
  split
  · exact givesData_ok rfl
  · exact givesData_negated operand
  · exact ends_error rfl

theorem givesData_constant (constant : Constant) : GivesData constant.value := by
  unfold Constant.value
  split
  case h_7 | h_8 =>
    split
    · exact givesData_ok rfl
    · exact ends_error rfl
  all_goals exact givesData_ok rfl

/-! ## Parts of results -/

theorem isData_or_eq_of_plainCast {target : Ty} (given : plainCast? target v = some w) :
    w.isData ∨ w = v := by
  unfold plainCast? at given
  split at given
  case h_15 =>
    split at given <;> cases given
    exact .inr rfl
  all_goals
    first
    | (cases given; exact .inl rfl)
    | (cases given; exact .inr rfl)
    | (rcases Option.map_eq_some_iff.mp given with ⟨_, _, rfl⟩; exact .inl rfl)
    | cases given

section

variable (data : ∀ part, part.isData → property part)
include data

theorem GivesData.gives {result : Result} (givesData : GivesData result) :
    Gives property result :=
  givesData.mono (fun _ every => every.mono data) fun _ => id

theorem gives_converted {target : Ty} (every : v.Every property) :
    Gives property (converted v target (plainCast? target v)) := by
  cases found : plainCast? target v with
  | none => exact ends_error rfl
  | some x =>
      rcases isData_or_eq_of_plainCast found with isData | rfl
      · exact ends_ok (every_data isData data)
      · exact ends_ok every

theorem gives_cast : ∀ (target : Ty) {v : Value}, v.Every property →
    Gives property (cast target v)
  | .array element length isFinal, v, every => by
      cases v with
      | array items =>
          rw [cast]
          apply Ends.map (ends_mapM ?_) fun _ => every_array.mpr
          exact fun item isItem => gives_cast element (every_array.mp every item isItem)
      | _ => exact gives_converted data every
  | .basic _ _, _, every | .null _, _, every | .function _ _ _ _ _, _, every
  | .enumeration _ _, _, every | .typeLiteral _ _, _, every => gives_converted data every

theorem every_item {items : List Value} (every : (array items).Every property) (n : Nat) :
    (items[n]?.getD .null).Every property := by
  cases found : items[n]? with
  | none => exact every_data rfl data
  | some item => exact every_array.mp every item (List.mem_of_getElem? found)

omit data in
theorem ends_position (subscript : Value) (length : Nat) :
    Ends (fun _ => True) (fun fault => fault.isOfValues)
      (subscript.position length) := by
  unfold position
  split
  · split
    · exact ends_ok trivial
    · exact ends_error rfl
  · exact ends_error rfl

theorem gives_element {receiver subscript : Value} (every : receiver.Every property) :
    Gives property (receiver.element subscript) := by
  cases receiver with
  | array items =>
      rw [element]
      exact (ends_position subscript items.length).bind fun n _ =>
        ends_ok (every_item data every n)
  | _ => exact ends_error rfl

/-- A new element for an old one with its parts, or a fault of values. -/
abbrev GivesAt (property : Value → Prop) : Except EvalError Value → Prop :=
  Ends (Every property) fun e => e.fault.isOfValues

theorem gives_combined {base : Option Operator} {span : Span} (old : Value)
    (every : v.Every property) : GivesAt property (combined base v span old) := by
  cases base with
  | none => exact ends_ok every
  | some op => exact (GivesData.gives data (givesData_binary op old v)).locate

theorem ends_update {store : Value → Except EvalError Value}
    (stores : ∀ old, old.Every property → GivesAt property (store old)) :
    ∀ (path : List Step) {old : Value}, old.Every property →
      Ends (fun given => given.1.Every property ∧ given.2.Every property)
        (fun e => e.fault.isOfValues) (old.update store path)
  | [], old, every => by
      rw [update]
      exact (stores old every).bind fun _ stored => ends_ok ⟨stored, stored⟩
  | step :: rest, old, every => by
      cases old with
      | array items =>
          rw [update]
          apply (ends_position step.subscript items.length).locate.bind
          intro n _
          apply (ends_update stores rest (every_item data every n)).bind
          rintro ⟨element, new⟩ ⟨elementEvery, newEvery⟩
          refine ends_ok ⟨?_, newEvery⟩
          rw [every_array]
          intro v member
          rcases List.mem_or_eq_of_mem_set member with older | rfl
          · exact every_array.mp every v older
          · exact elementEvery
      | _ => exact ends_error rfl

/-! ## Built-in functions -/

omit data in
theorem further_mem {direction : Ordering} {candidates : List Value} {best : Value} :
    candidates.foldl (Builtin.further direction) best ∈ best :: candidates := by
  induction candidates generalizing best with
  | nil => exact List.mem_singleton_self _
  | cons candidate rest inductionHypothesis =>
      rw [List.foldl_cons]
      have later := @inductionHypothesis (Builtin.further direction best candidate)
      rcases List.mem_cons.mp later with isBest | member
      · rw [isBest, Builtin.further]
        split
        · exact List.mem_cons_of_mem _ List.mem_cons_self
        · exact List.mem_cons_self
      · exact List.mem_cons_of_mem _ (List.mem_cons_of_mem _ member)

omit data in
theorem ends_floatArg (function : Builtin) (arg : Value) :
    Ends (fun _ => True) (fun fault => fault.isOfValues)
      (Builtin.floatArg function arg) := by
  unfold Builtin.floatArg
  split
  · exact ends_ok trivial
  · exact ends_error rfl

omit data in
theorem givesData_extremum (function : Builtin) (direction : Ordering) (args : List Value) :
    GivesData (Builtin.extremum function direction args) := by
  unfold Builtin.extremum
  split
  · exact ends_error rfl
  · next first rest _ =>
      split
      · next numeric =>
          dsimp only
          split
          · exact (ends_floatArg _ _).map fun _ _ => every_data rfl fun _ => id
          · have chosen : rest.foldl (Builtin.further direction) first ∈ first :: rest :=
              further_mem
            have isNumeric := List.all_eq_true.mp numeric _ chosen
            generalize rest.foldl (Builtin.further direction) first = best at isNumeric
            cases best <;> first | exact givesData_ok rfl | cases isNumeric
      · exact ends_error rfl

omit data in
theorem givesData_floatFunction (function : Builtin) (f : Float → Float) (args : List Value) :
    GivesData (Builtin.floatFunction function f args) := by
  unfold Builtin.floatFunction
  split
  · exact (ends_floatArg _ _).map fun _ _ => every_data rfl fun _ => id
  · exact ends_error rfl

omit data in
theorem givesData_absolute (args : List Value) : GivesData (Builtin.absolute args) := by
  -- Which magnitude is given is no concern here; finding it would count up to its bound.
  obtain ⟨magnitude?, same⟩ : ∃ f, f = Number.abs? := ⟨_, rfl⟩
  unfold Builtin.absolute
  rw [← same]
  split
  · split
    · exact givesData_ok rfl
    · exact ends_error rfl
  · exact givesData_ok rfl
  · exact ends_error rfl

omit data in
theorem givesData_power (args : List Value) : GivesData (Builtin.power args) := by
  unfold Builtin.power
  split
  · apply (ends_floatArg _ _).bind
    intro x _
    apply (ends_floatArg _ _).bind
    exact fun y _ => givesData_ok rfl
  · exact ends_error rfl

omit data in
theorem givesData_size (args : List Value) : GivesData (Builtin.size args) := by
  unfold Builtin.size
  split
  · exact givesData_ok rfl
  · exact ends_error rfl

theorem every_vector {args : List Value} (every : ∀ arg ∈ args, arg.Every property) :
    (Builtin.vector args).Every property := by
  unfold Builtin.vector
  split
  · rw [every_array]
    intro v member
    rcases List.mem_filterMap.mp member with ⟨arg, _, isFloat⟩
    rcases Option.map_eq_some_iff.mp isFloat with ⟨x, _, rfl⟩
    exact every_data rfl data
  · rw [every_array]
    exact every

theorem gives_call (function : Builtin) {args : List Value}
    (every : ∀ arg ∈ args, arg.Every property) : Gives property (function.call args) := by
  cases function with
  | min | max => exact GivesData.gives data (givesData_extremum _ _ args)
  | sqrt | floor | ceil | round | sin | cos | tan =>
      exact GivesData.gives data (givesData_floatFunction _ _ args)
  | abs => exact GivesData.gives data (givesData_absolute args)
  | pow => exact GivesData.gives data (givesData_power args)
  | asVector => exact ends_ok (every_vector data every)
  | sizeof => exact GivesData.gives data (givesData_size args)

end

end Value

end Formulae
