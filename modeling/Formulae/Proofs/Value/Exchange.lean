import Formulae.Proofs.Value.Ends
import Formulae.Proofs.Value.Operators
import Formulae.Proofs.Value.Rules

/-!
# Exchanged operands

The operands of commutative operators may be exchanged, on types (`Ty.binaryResult?_comm`) and
on values (`Value.toOption_binary_comm`), however deep the arrays are on either side.  Floats
and strings are left out on values, since strings are joined in order.
-/

namespace Formulae

/-! ## Types -/

namespace Ty

variable {op : Operator} {a b : Ty}

theorem lengthsAgree_or_comm {m n : Option Nat} (agree : lengthsAgree m n) : m.or n = n.or m := by
  cases m <;> cases n <;> simp_all [lengthsAgree]

/-- A rule in either order gives one result. -/
theorem plainArithmetic?_unique {result result' : Ty}
    (forward : plainArithmetic? op a b = some result)
    (backward : plainArithmetic? op b a = some result') : result = result' := by
  cases arithmeticRule_of_eq_some forward <;> cases arithmeticRule_of_eq_some backward <;> rfl

theorem scalarArithmetic?_comm (commutative : op.isCommutative) :
    scalarArithmetic? op a b = scalarArithmetic? op b a := by
  rw [scalarArithmetic?, scalarArithmetic?, if_pos commutative, if_pos commutative]
  cases forward : plainArithmetic? op a b with
  | none => rw [Option.none_or, Option.or_none]
  | some result =>
      cases backward : plainArithmetic? op b a with
      | none => rfl
      | some result' => rw [plainArithmetic?_unique forward backward]

theorem arithmetic?_comm (commutative : op.isCommutative) :
    ∀ a b : Ty, arithmetic? op a b = arithmetic? op b a
  | .array a m _, .array b n _ => by
      rw [arithmetic?, arithmetic?, lengthsAgree_comm n m, arithmetic?_comm commutative a b]
      split
      · next agree => rw [lengthsAgree_or_comm agree]
      · rfl
  | .array _ _ _, .basic _ _ | .array _ _ _, .null _ | .array _ _ _, .function _ _ _ _ _
  | .array _ _ _, .enumeration _ _ | .array _ _ _, .typeLiteral _ _ => by
      rw [arithmetic?_array_left rfl, arithmetic?_array_right rfl, if_pos commutative]
  | .basic _ _, b | .null _, b | .function _ _ _ _ _, b | .enumeration _ _, b
  | .typeLiteral _ _, b => by
      cases b with
      | array => rw [arithmetic?_array_left rfl, arithmetic?_array_right rfl, if_pos commutative]
      | _ =>
          rw [arithmetic?_of_not_array rfl rfl, arithmetic?_of_not_array rfl rfl,
            scalarArithmetic?_comm commutative]

theorem isComparable_comm (a b : Ty) : a.isComparable b = b.isComparable a := by
  rw [isComparable, isComparable, Bool.or_comm (a.accepts b), Bool.or_right_comm]

/-- The operands of a commutative operator may be exchanged in its typing. -/
theorem binaryResult?_comm (commutative : op.isCommutative) (a b : Ty) :
    binaryResult? op a b = binaryResult? op b a := by
  unfold binaryResult?
  rw [Bool.or_comm]
  split
  · rfl
  · cases op with
    | add | mul => exact arithmetic?_comm commutative a b
    | and | or | xor => rfl
    | eq | notEq => dsimp only; rw [isComparable_comm]
    | _ => cases commutative

end Ty

/-! ## Values -/

namespace Value

variable {op : Operator} {v w : Value}

/-- Neither a float nor a string. -/
def isExchangeable : Value → Bool
  | .float _ | .string _ => false
  | _ => true

theorem toOption_bind {ε α β : Type} (x : Except ε α) (f : α → Except ε β) :
    (x >>= f).toOption = x.toOption.bind fun a => (f a).toOption := by
  cases x <;> rfl

theorem toOption_map {ε α β : Type} (x : Except ε α) (f : α → β) :
    (x.map f).toOption = x.toOption.map f := by
  cases x <;> rfl

theorem add?_comm (a b : Duration) : a.add? b = b.add? a := by
  simp only [Duration.add?, Number.add?, Int.add_comm]

theorem integerArithmetic_comm (commutative : op.isCommutative) (m n : Int64) :
    integerArithmetic op m n = integerArithmetic op n m := by
  cases op with
  | add => rw [integerArithmetic, integerArithmetic, Number.add?, Number.add?, Int.add_comm]
  | mul => rw [integerArithmetic, integerArithmetic, Number.mul?, Number.mul?, Int.mul_comm]
  | xor | and | or | eq | notEq => rfl
  | _ => cases commutative

section

variable (commutative : op.isCommutative)
include commutative

/-- Rules in both orders come to the same. -/
theorem plainArithmetic?_unique (left : v.isExchangeable) (right : w.isExchangeable)
    {outcome outcome' : Result} (forward : plainArithmetic? op v w = some outcome)
    (backward : plainArithmetic? op w v = some outcome') : outcome = outcome' := by
  rw [plainArithmetic?_eq_some_iff] at forward backward
  cases forward with
  | ints m n =>
      cases backward
      exact integerArithmetic_comm commutative m n
  | intFloat | floats | texts => cases right
  | floatInt => cases left
  | later | earlier | multiple => cases backward
  | between isSub =>
      subst isSub
      cases commutative
  | difference isSub =>
      subst isSub
      cases commutative
  | sum isAdd p q =>
      cases backward with
      | sum => rw [add?_comm]
      | difference isSub =>
          subst isSub
          cases isAdd

theorem toOption_scalarArithmetic_comm (left : v.isExchangeable) (right : w.isExchangeable) :
    (scalarArithmetic op v w).toOption = (scalarArithmetic op w v).toOption := by
  unfold scalarArithmetic
  cases forward : plainArithmetic? op v w with
  | none =>
      cases backward : plainArithmetic? op w v with
      | none => simp only [if_pos commutative]; rfl
      | some outcome => simp only [if_pos commutative]; rfl
  | some outcome =>
      cases backward : plainArithmetic? op w v with
      | none => simp only [if_pos commutative]; rfl
      | some outcome' =>
          rw [plainArithmetic?_unique commutative left right forward backward]

omit commutative in
theorem toOption_arithmeticAll_comm {lefts rights : List Value}
    (each : ∀ left ∈ lefts, ∀ right ∈ rights,
      (arithmetic op left right).toOption = (arithmetic op right left).toOption) :
    (arithmeticAll op lefts rights).toOption = (arithmeticAll op rights lefts).toOption := by
  induction lefts generalizing rights with
  | nil => cases rights <;> rfl
  | cons left lefts inductionHypothesis =>
      cases rights with
      | nil => rfl
      | cons right rights =>
          have first := each left List.mem_cons_self right List.mem_cons_self
          have others := inductionHypothesis fun left member right member' =>
            each left (List.mem_cons_of_mem _ member) right (List.mem_cons_of_mem _ member')
          simp only [arithmeticAll, toOption_bind, first, others]

theorem toOption_arithmetic_comm_of_not_array (notArray : v.asArray? = none)
    (notArray' : w.asArray? = none) (left : v.isExchangeable) (right : w.isExchangeable) :
    (arithmetic op v w).toOption = (arithmetic op w v).toOption := by
  rw [arithmetic_of_not_array notArray notArray', arithmetic_of_not_array notArray' notArray]
  exact toOption_scalarArithmetic_comm commutative left right

theorem toOption_arithmetic_comm (v w : Value) (left : v.Every (isExchangeable ·))
    (right : w.Every (isExchangeable ·)) :
    (arithmetic op v w).toOption = (arithmetic op w v).toOption := by
  cases v with
  | array as =>
      cases w with
      | array bs =>
          rw [arithmetic, arithmetic]
          by_cases sameLength : as.length = bs.length
          · have each : ∀ v ∈ as, ∀ w ∈ bs, _ := fun v member w member' =>
              toOption_arithmetic_comm v w (every_array.mp left v member)
                (every_array.mp right w member')
            rw [if_pos sameLength, if_pos sameLength.symm, toOption_map, toOption_map,
              toOption_arithmeticAll_comm each]
          · rw [if_neg sameLength, if_neg (Ne.symm sameLength)]
            rfl
      | _ => rw [arithmetic_array_left rfl, arithmetic_array_right rfl, if_pos commutative]
  | _ =>
      cases w with
      | array bs => rw [arithmetic_array_left rfl, arithmetic_array_right rfl, if_pos commutative]
      | _ =>
          exact toOption_arithmetic_comm_of_not_array commutative rfl rfl
            (left _ (List.mem_singleton_self _)) (right _ (List.mem_singleton_self _))

end

/-! ## Equality -/

theorem sameInstant_comm (a b : Date) : a.sameInstant b = b.sameInstant a := by
  have parts (a b : Date) : a.sameInstant b ↔ a.seconds = b.seconds ∧ a.nanos = b.nanos := by
    simp [Date.sameInstant, Date.compare, Ordering.then_eq_eq]
  rw [Bool.eq_iff_iff, parts, parts, eq_comm, eq_comm (a := a.nanos)]

theorem callable_same_comm (f g : Callable) : f.same g = g.same f := by
  cases f <;> cases g <;> first | rfl | exact decide_eq_decide.mpr eq_comm

theorem same_comm_of_not_array (notArray : v.asArray? = none) (left : v.isExchangeable) :
    v.same w = w.same v := by
  cases v with
  | array => cases notArray
  | float | string => cases left
  | int | bool | duration => cases w <;> first | rfl | exact decide_eq_decide.mpr eq_comm
  | date d => cases w <;> first | rfl | exact sameInstant_comm _ _
  | function f => cases w <;> first | rfl | exact callable_same_comm _ _
  | enumeration type variant =>
      cases w with
      | enumeration type' variant' =>
          simp only [same, eq_comm]
      | _ => rfl
  | null | void => cases w <;> rfl

theorem plainEquals_comm (notArray : v.asArray? = none) (left : v.isExchangeable)
    (right : w.isExchangeable) : plainEquals v w = plainEquals w v := by
  rw [plainEquals, plainEquals, Bool.and_comm, same_comm_of_not_array notArray left]
  split
  · next numeric =>
      rw [Bool.and_eq_true] at numeric
      cases v with
      | int m =>
          cases w with
          | int n =>
              apply decide_eq_decide.mpr
              simp only [compare?, Option.some.injEq, compare_eq_iff_eq]
              exact eq_comm
          | float => cases right
          | _ => cases numeric.1
      | float => cases left
      | _ => cases numeric.2
  · rfl

theorem equalsAll_comm {vs ws : List Value}
    (each : ∀ v ∈ vs, ∀ w ∈ ws, v.equals w = w.equals v) : equalsAll vs ws = equalsAll ws vs := by
  induction vs generalizing ws with
  | nil => cases ws <;> rfl
  | cons v vs inductionHypothesis =>
      cases ws with
      | nil => rfl
      | cons w ws =>
          rw [equalsAll, equalsAll, each v List.mem_cons_self w List.mem_cons_self,
            inductionHypothesis fun v member w member' =>
              each v (List.mem_cons_of_mem _ member) w (List.mem_cons_of_mem _ member')]

theorem equals_comm (v w : Value) (left : v.Every (isExchangeable ·))
    (right : w.Every (isExchangeable ·)) : v.equals w = w.equals v := by
  cases v with
  | array as =>
      cases w with
      | array bs =>
          rw [equals, equals]
          exact equalsAll_comm fun v member w member' =>
            equals_comm v w (every_array.mp left v member) (every_array.mp right w member')
      | _ => rfl
  | _ =>
      cases w with
      | array bs => rfl
      | _ =>
          exact plainEquals_comm rfl (left _ (List.mem_singleton_self _))
            (right _ (List.mem_singleton_self _))

/-! ## All operators -/

theorem toOption_binary_comm (commutative : op.isCommutative) (left : v.Every (isExchangeable ·))
    (right : w.Every (isExchangeable ·)) :
    (binary op v w).toOption = (binary op w v).toOption := by
  cases op with
  | add | mul => exact toOption_arithmetic_comm commutative v w left right
  | and => rw [binary, binary, Bool.and_comm]
  | or => rw [binary, binary, Bool.or_comm]
  | xor => rw [binary, binary, Bool.xor_comm]
  | eq | notEq => rw [binary, binary, equals_comm v w left right]
  | _ => cases commutative

theorem fail_or_ok_of_toOption {ε α : Type} {x y : Except ε α} (same : x.toOption = y.toOption) :
    (∃ e e', x = .error e ∧ y = .error e') ∨ ∃ a, x = .ok a ∧ y = .ok a := by
  cases x with
  | error e =>
      cases y with
      | error e' => exact .inl ⟨e, e', rfl, rfl⟩
      | ok b => cases same
  | ok a =>
      cases y with
      | error e' => cases same
      | ok b => exact .inr ⟨a, rfl, congrArg Except.ok (Option.some.inj same).symm⟩

/-- The operands of a commutative operator may be exchanged.  Its typing stays the same, and
values without floats and strings fail in both orders or give the same value in both. -/
theorem binary_exchange (commutative : op.isCommutative) :
    (∀ a b : Ty, Ty.binaryResult? op a b = Ty.binaryResult? op b a) ∧
      ∀ v w : Value, v.Every (isExchangeable ·) → w.Every (isExchangeable ·) →
        (∃ fault fault', binary op v w = .error fault ∧ binary op w v = .error fault') ∨
          ∃ r, binary op v w = .ok r ∧ binary op w v = .ok r :=
  ⟨Ty.binaryResult?_comm commutative, fun _ _ left right =>
    fail_or_ok_of_toOption (toOption_binary_comm commutative left right)⟩

/-- A month for each of the numbers of an array, in both orders. -/
theorem binary_exchange_months :
    (∀ a b : Ty, Ty.binaryResult? .mul a b = Ty.binaryResult? .mul b a) ∧
      binary .mul (.duration ⟨1, 0⟩) (.array [.int 2, .array [.int 3]]) =
        .ok (.array [.duration ⟨2, 0⟩, .array [.duration ⟨3, 0⟩]]) ∧
      ((∃ fault fault',
        binary .mul (.duration ⟨1, 0⟩) (.array [.int 2, .array [.int 3]]) = .error fault ∧
          binary .mul (.array [.int 2, .array [.int 3]]) (.duration ⟨1, 0⟩) = .error fault') ∨
        ∃ r, binary .mul (.duration ⟨1, 0⟩) (.array [.int 2, .array [.int 3]]) = .ok r ∧
          binary .mul (.array [.int 2, .array [.int 3]]) (.duration ⟨1, 0⟩) = .ok r) := by
  have exchange := @binary_exchange .mul rfl
  exact ⟨exchange.1, rfl, exchange.2 _ _ (List.all_eq_true.mp rfl) (List.all_eq_true.mp rfl)⟩

end Value

end Formulae
