import Formulae.Proofs.Typing.Meets

/-!
# What rules of checking have in common

Rules take each part as it was checked, or read as a date or a duration (`Typing.Reads`).  Most of
them compare types only, and what they reject is neither an unknown name nor a bug
(`Typing.Ordinary`).
-/

namespace Formulae

/-- The fault is neither an unknown name nor a bug. -/
def TypeFault.isOrdinary : TypeFault → Bool
  | .unknownIdentifier _ | .bug _ => false
  | _ => true

namespace Typing

open Check

/-! ## Literals of the calendar -/

/-- The expression is the value, or the date or the duration that it is read as. -/
def Reads (value read : TypedExpr) : Prop :=
  read = value ∨ calendarLiteral? value = some read

theorem reads_getD_calendarLiteral (e : TypedExpr) : Reads e ((calendarLiteral? e).getD e) := by
  cases read : calendarLiteral? e with
  | none => exact .inl rfl
  | some literal => exact .inr read

theorem reads_readFor (target : Ty) (e : TypedExpr) : Reads e (readFor target e) := by
  unfold readFor
  split
  · split
    · next literal read =>
        split
        · exact .inr read
        · exact .inl rfl
    · exact .inl rfl
  · exact .inl rfl

theorem reads_operands (op : Operator) (left right : TypedExpr) :
    Reads left (operands op left right).1 ∧ Reads right (operands op left right).2 := by
  unfold operands
  split
  · simp only [calendarOperands?]
    split
    · exact ⟨.inl rfl, .inl rfl⟩
    · split
      · exact ⟨reads_getD_calendarLiteral left, reads_getD_calendarLiteral right⟩
      · exact ⟨.inl rfl, .inl rfl⟩
  · exact ⟨.inl rfl, .inl rfl⟩

theorem reads_compoundOperand (base : Operator) (slot : Ty) (e : TypedExpr) :
    Reads e (compoundOperand base slot e) := by
  unfold compoundOperand
  split
  · exact .inl rfl
  · split
    · next literal read =>
        split
        · exact .inr read
        · exact .inl rfl
    · exact .inl rfl

theorem eq_assign_of_compoundBase {op : Operator} (assigns : op.isAssignment)
    (plain : op.compoundBase = none) : op = .assign := by
  cases op <;> simp_all [Operator.isAssignment, Operator.compoundBase]

/-! ## Faults -/

variable {β : Type}

/-- The check does not reject for an unknown name, and it reports no bugs. -/
def Ordinary (x : Check β) : Prop :=
  Meets x (fun _ => True) fun error => error.fault.isOrdinary

theorem ordinary_pure (value : β) : Ordinary (pure value) :=
  meets_pure trivial

theorem ordinary_fail {fault : TypeFault} {span : Span} (ordinary : fault.isOrdinary) :
    Ordinary (fail fault span : Check β) :=
  meets_fail ordinary

/-! ## Rules for expressions -/

theorem ordinary_requireValue (e : TypedExpr) : Ordinary (requireValue e) := by
  unfold requireValue
  split
  · exact ordinary_fail rfl
  · exact ordinary_pure e

theorem ordinary_unary (node : Bare) (op : Operator) (operand : TypedExpr) :
    Ordinary (unary node op operand) := by
  unfold unary
  split
  · exact ordinary_pure _
  · exact ordinary_fail rfl

theorem ordinary_binary (node : Bare) (op : Operator) (left right : TypedExpr) :
    Ordinary (binary node op left right) := by
  unfold binary
  dsimp only
  split
  · exact ordinary_pure _
  · exact ordinary_fail rfl

theorem ordinary_cast (node literal : Bare) (written : TypeExpr) (operand : TypedExpr) :
    Ordinary (cast node literal written operand) := by
  simp only [cast]
  split
  · exact ordinary_pure _
  · exact ordinary_fail rfl

theorem ordinary_assignable (node : Bare) (target : TypedExpr) :
    Ordinary (assignable node target) := by
  unfold assignable
  split
  · exact ordinary_fail rfl
  · exact ordinary_pure target

theorem ordinary_compoundAssign (node : Bare) (op base : Operator) (target value : TypedExpr) :
    Ordinary (compoundAssign node op base target value) := by
  simp only [compoundAssign]
  split
  · exact ordinary_fail rfl
  · split
    · exact ordinary_pure _
    · exact ordinary_fail rfl

theorem ordinary_index (node : Bare) (receiver subscript : TypedExpr) :
    Ordinary (index node receiver subscript) := by
  unfold index
  split
  · split
    · exact ordinary_pure _
    · exact ordinary_fail rfl
  · exact ordinary_fail rfl

theorem ordinary_call (node : Bare) (signature : Signature) (name : String) (callee : TypedExpr)
    (args : List TypedExpr) : Ordinary (call node signature name callee args) := by
  simp only [call]
  split
  · exact ordinary_pure _
  · exact ordinary_fail rfl

/-! ## Rules for statements -/

theorem ordinary_declare (env : TypeEnv) (name : String) (type : Ty) (span : Span) :
    Ordinary (declare env name type span) := by
  unfold declare
  split
  · exact ordinary_pure _
  · exact ordinary_fail rfl

theorem ordinary_returnsNothing (expected : Option Ty) (span : Span) :
    Ordinary (returnsNothing expected span) := by
  unfold returnsNothing
  split
  · split
    · exact ordinary_pure ()
    · exact ordinary_fail rfl
  · exact ordinary_pure ()

theorem ordinary_elementType (iterable : TypedExpr) : Ordinary (elementType iterable) := by
  unfold elementType
  split
  · exact ordinary_pure _
  · exact ordinary_pure _
  · exact ordinary_fail rfl

theorem ordinary_itemType (written : Option TypeExpr) (element : Ty) (span : Span) :
    Ordinary (itemType written element span) := by
  cases written with
  | none => exact ordinary_pure _
  | some written =>
      simp only [itemType]
      split
      · exact ordinary_pure _
      · exact ordinary_fail rfl

theorem ordinary_loopControl (around : Surroundings) (control : LoopControl) (span : Span) :
    Ordinary (loopControl around control span) := by
  unfold loopControl
  split
  · exact ordinary_pure ()
  · exact ordinary_fail rfl

theorem ordinary_mustReturn (name : String) (ret : Ty) (body : List (Stmt Unit)) (span : Span) :
    Ordinary (mustReturn name ret body span) := by
  unfold mustReturn
  split
  · exact ordinary_pure ()
  · exact ordinary_fail rfl

end Typing

end Formulae
