import Formulae.Proofs.Tree.Control
import Formulae.Proofs.Typing.Derivation

/-!
# Control in checked formulas

In a checked formula no `break` or `continue` leaves a function or the formula, and a function
that gives a value returns one on every way through its body (`Typing.controlled_program`).
-/

namespace Formulae

open Check

/-- In a declaration of a function, nothing but a `return` leaves the function before the end
of its body.  If the function gives a value, then the end is not reached, and every `return`
has a value; else no `return` has one. -/
def Stmt.EndsWell : TypedStmt → Prop
  | .function _ written _ _ body =>
      escapesAll body = false ∧
        ((Ty.ofExpr written).isVoid = false → someReturns body ∧ none ∉ returnedAll body) ∧
        ((Ty.ofExpr written).isVoid → ∀ e, some e ∉ returnedAll body)
  | _ => True

/-- Statements that may be left by a `break` or `continue` or not, return these values, and
have these statements in them, stand where they may. -/
structure Surroundings.Controls (around : Surroundings) (escapes : Bool)
    (returned : List (Option TypedExpr)) (stmts : List TypedStmt) : Prop where
  escapes : escapes → around.inLoop
  valued : around.returns = none → ∀ e : TypedExpr, some e ∈ returned → e.HasValue
  silent : ∀ ret, around.returns = some ret → ret.isVoid → ∀ e, some e ∉ returned
  returned : ∀ ret, around.returns = some ret → ret.isVoid = false → none ∉ returned
  endWell : ∀ s ∈ stmts, s.EndsWell

namespace Surroundings.Controls

variable {around : Surroundings} {escapes escapes' : Bool}
  {returned returned' : List (Option TypedExpr)} {stmts stmts' : List TypedStmt}

theorem append (first : around.Controls escapes returned stmts)
    (second : around.Controls escapes' returned' stmts') :
    around.Controls (escapes || escapes') (returned ++ returned') (stmts ++ stmts') where
  escapes either := by
    rcases Bool.or_eq_true_iff.mp either with escapes | escapes
    · exact first.escapes escapes
    · exact second.escapes escapes
  returned ret returns value member := by
    rcases List.mem_append.mp member with member | member
    · exact first.returned ret returns value member
    · exact second.returned ret returns value member
  silent ret returns isVoid e member := by
    rcases List.mem_append.mp member with member | member
    · exact first.silent ret returns isVoid e member
    · exact second.silent ret returns isVoid e member
  valued outside e member := by
    rcases List.mem_append.mp member with member | member
    · exact first.valued outside e member
    · exact second.valued outside e member
  endWell := List.forall_mem_append.mpr ⟨first.endWell, second.endWell⟩

/-- Outside of loops nothing is left so. -/
theorem stays (controls : around.Controls escapes returned stmts)
    (outside : around.inLoop = false) : escapes = false := by
  rw [Bool.eq_false_iff]
  intro leaves
  rw [controls.escapes leaves] at outside
  cases outside

/-- Nothing leaves a loop by the `break`s and `continue`s of its body. -/
theorem loop (body : around.loopBody.Controls escapes returned stmts) :
    around.Controls false returned stmts where
  escapes := nofun
  returned := body.returned
  silent := body.silent
  valued := body.valued
  endWell := body.endWell

/-- A statement that is no declaration of a function around other statements. -/
theorem around_inner {s : TypedStmt} (plain : s.EndsWell)
    (inner : around.Controls escapes returned stmts) :
    around.Controls escapes returned (s :: stmts) where
  escapes := inner.escapes
  returned := inner.returned
  silent := inner.silent
  valued := inner.valued
  endWell := List.forall_mem_cons.mpr ⟨plain, inner.endWell⟩

theorem nothing : around.Controls false [] [] where
  escapes := nofun
  returned _ _ _ := nofun
  silent _ _ _ _ := nofun
  valued _ _ := nofun
  endWell := nofun

end Surroundings.Controls

/-- The typed statement is controlled and returns always if the statement does. -/
structure Stmt.Controlled (around : Surroundings) (s : Stmt Unit) (typed : TypedStmt) :
    Prop where
  alwaysReturns : typed.alwaysReturns = s.alwaysReturns
  controls : around.Controls typed.escapes typed.returned typed.stmts

/-- The same of a statement that may be missing. -/
structure Stmt.ControlledOption (around : Surroundings) (s : Option (Stmt Unit))
    (typed : Option TypedStmt) : Prop where
  alwaysReturns : typed.any Stmt.alwaysReturns = s.any Stmt.alwaysReturns
  controls : around.Controls (escapesOption typed) (returnedOption typed) (stmtsOption typed)

/-- The same of several statements. -/
structure Stmt.ControlledAll (around : Surroundings) (stmts : List (Stmt Unit))
    (typed : List TypedStmt) : Prop where
  someReturns : someReturns typed = someReturns stmts
  controls : around.Controls (escapesAll typed) (returnedAll typed) (stmtsAll typed)

namespace Typing

open Surroundings (Controls)

theorem meets_loopControl (around : Surroundings) (control : LoopControl) (span : Span) :
    Meets (loopControl around control span) (fun _ => around.inLoop) fun _ => True := by
  unfold loopControl
  split
  · next inLoop => exact meets_pure inLoop
  · exact meets_fail trivial

theorem meets_returnsNothing (expected : Option Ty) (span : Span) :
    Meets (returnsNothing expected span)
      (fun _ => ∀ ret, expected = some ret → ret.isVoid) fun _ => True := by
  unfold returnsNothing
  split
  · split
    · next isVoid =>
        apply meets_pure
        rintro ret ⟨⟩
        exact isVoid
    · exact meets_fail trivial
  · exact meets_pure nofun

theorem hasValue_checkValue (env : TypeEnv) (e : Expr Unit) :
    Meets (e.checkValue env) Expr.HasValue fun _ => True :=
  (meets_rule _).bind fun _ _ =>
    (meets_requireValue _).mono (fun _ ⟨_, hasValue⟩ => hasValue) fun _ _ => trivial

/-- No place without a value takes one. -/
theorem valued_coerce (fit : Fit) (target : Ty) (value : TypedExpr) :
    Meets (coerce fit target value) (fun _ => target.isVoid = false) fun _ => True := by
  simp only [coerce]
  split
  · next accepts =>
      have hasValue := Ty.not_isVoid_of_castableTo (Ty.castableTo_of_accepts accepts)
      exact (meets_rule _).mono (fun _ _ => hasValue) fun _ => id
  · split
    · next casts =>
        have hasValue := Ty.not_isVoid_of_castableTo (Bool.and_eq_true_iff.mp casts).2
        exact (meets_rule _).mono (fun _ _ => hasValue) fun _ => id
    · exact meets_fail trivial

theorem hasValue_returned (expected : Option Ty) {value : TypedExpr} (hasValue : value.HasValue) :
    Meets (returned expected value)
      (fun given => (expected = none → given.HasValue) ∧
        ∀ ret, expected = some ret → ret.isVoid = false) fun _ => True := by
  cases expected with
  | none => exact meets_pure ⟨fun _ => hasValue, nofun⟩
  | some type =>
      refine (valued_coerce _ type value).mono (fun _ notVoid => ⟨nofun, ?_⟩) fun _ => id
      rintro _ ⟨⟩
      exact notVoid

theorem meets_mustReturn (name : String) (ret : Ty) (body : List (Stmt Unit)) (span : Span) :
    Meets (mustReturn name ret body span)
      (fun _ => ret.isVoid = false → Stmt.someReturns body) fun _ => True := by
  unfold mustReturn
  split
  · next fits =>
      apply meets_pure
      intro hasValue
      rwa [hasValue, Bool.false_or] at fits
  · exact meets_fail trivial

mutual

theorem controlled_stmt (around : Surroundings) (env : TypeEnv) : ∀ s : Stmt Unit,
    Meets (s.check around env) (fun typed => s.Controlled around typed.1) fun _ => True
  | .expr node e => by
      rw [Stmt.check]
      exact (meets_rule _).bind fun _ _ => meets_pure ⟨rfl, .around_inner trivial .nothing⟩
  | .varDecl node binder init => by
      rw [Stmt.check]
      apply (meets_rule _).bind
      intro _ _
      apply (meets_rule _).bind
      intro _ _
      exact (meets_rule _).bind fun _ _ => meets_pure ⟨rfl, .around_inner trivial .nothing⟩
  | .ret node none => by
      rw [Stmt.check]
      apply (meets_returnsNothing _ _).bind
      intro _ isVoid
      apply meets_pure
      refine ⟨rfl, nofun, fun _ _ member => by simp [Stmt.returned] at member,
        fun _ _ _ _ member => by simp [Stmt.returned] at member, ?_, fun s member => ?_⟩
      · intro ret returns hasValue
        rw [isVoid ret returns] at hasValue
        cases hasValue
      · rw [List.mem_singleton.mp member]
        trivial
  | .ret node (some e) => by
      rw [Stmt.check]
      apply (hasValue_checkValue _ _).bind
      intro value hasValue
      apply (hasValue_returned _ hasValue).bind
      rintro given ⟨valued, notVoid⟩
      apply meets_pure
      refine ⟨rfl, nofun, fun outside e member => ?_, fun ret returns isVoid => ?_,
        fun _ _ _ => by simp [Stmt.returned], fun s member => ?_⟩
      · rw [Stmt.returned, List.mem_singleton] at member
        cases member
        exact valued outside
      · rw [notVoid ret returns] at isVoid
        cases isVoid
      · rw [List.mem_singleton.mp member]
        trivial
  | .ifElse node cond thenBranch elseBranch => by
      rw [Stmt.check]
      apply (meets_rule _).bind
      intro c _
      apply (controlled_stmt around env.child thenBranch).bind
      rintro ⟨x, _⟩ thenControlled
      apply (controlled_branch around env elseBranch).bind
      intro y elseControlled
      apply meets_pure
      constructor
      · rw [Stmt.alwaysReturns_ifElse, Stmt.alwaysReturns_ifElse, thenControlled.alwaysReturns,
          elseControlled.alwaysReturns]
      · exact .around_inner trivial (thenControlled.controls.append elseControlled.controls)
  | .whileLoop node cond body => by
      rw [Stmt.check]
      apply (meets_rule _).bind
      intro c _
      apply (controlled_stmt around.loopBody env.child body).bind
      rintro ⟨x, _⟩ controlled
      exact meets_pure ⟨rfl, .around_inner trivial controlled.controls.loop⟩
  | .doWhile node body cond => by
      rw [Stmt.check]
      apply (meets_rule _).bind
      intro c _
      apply (controlled_stmt around.loopBody env.child body).bind
      rintro ⟨x, _⟩ controlled
      exact meets_pure ⟨rfl, .around_inner trivial controlled.controls.loop⟩
  | .forLoop node init cond step body => by
      rw [Stmt.check]
      apply (controlled_init around env.child init).bind
      rintro ⟨i, inner⟩ initControlled
      apply (meets_rule _).bind
      intro c _
      apply (meets_rule _).bind
      intro n _
      apply (controlled_stmt around.loopBody inner.child body).bind
      rintro ⟨x, _⟩ controlled
      apply meets_pure
      have parts := initControlled.controls.append controlled.controls.loop
      exact ⟨rfl, .around_inner trivial { parts with escapes := nofun }⟩
  | .forEach node binder iterable body => by
      rw [Stmt.check]
      apply (meets_rule _).bind
      intro xs _
      apply (meets_rule _).bind
      intro element _
      apply (meets_rule _).bind
      intro type _
      apply (meets_rule _).bind
      intro inner _
      apply (controlled_stmt around.loopBody inner.child body).bind
      rintro ⟨x, _⟩ controlled
      exact meets_pure ⟨rfl, .around_inner trivial controlled.controls.loop⟩
  | .brk node | .cont node => by
      rw [Stmt.check]
      apply (meets_loopControl _ _ _).bind
      intro _ inLoop
      apply meets_pure
      exact ⟨rfl, .around_inner trivial { Controls.nothing with escapes := fun _ => inLoop }⟩
  | .block node stmts => by
      rw [Stmt.check]
      apply (controlled_stmts around env.child stmts).bind
      rintro ⟨typed, _⟩ controlled
      exact meets_pure ⟨controlled.someReturns, .around_inner trivial controlled.controls⟩
  | .function node written name params body => by
      rw [Stmt.check]
      apply (meets_rule _).bind
      intro after _
      apply (meets_rule _).bind
      intro inner _
      apply (controlled_stmts (.functionBody (Ty.ofExpr written)) inner body).bind
      rintro ⟨typed, _⟩ controlled
      apply (meets_mustReturn _ _ _ _).bind
      intro _ mustReturn
      apply meets_pure
      refine ⟨rfl, nofun, fun _ _ => nofun, fun _ _ _ _ => nofun, fun _ _ _ => nofun,
        List.forall_mem_cons.mpr ⟨⟨?_, fun hasValue => ?_, ?_⟩, ?_⟩⟩
      · exact controlled.controls.stays rfl
      · rw [controlled.someReturns]
        exact ⟨mustReturn hasValue, controlled.controls.returned _ rfl hasValue⟩
      · exact controlled.controls.silent _ rfl
      · exact controlled.controls.endWell

theorem controlled_branch (around : Surroundings) (env : TypeEnv) : ∀ s : Option (Stmt Unit),
    Meets (Stmt.checkOption around env s) (Stmt.ControlledOption around s) fun _ => True
  | none => meets_pure ⟨rfl, .nothing⟩
  | some s => by
      rw [Stmt.checkOption]
      exact (controlled_stmt around env.child s).bind fun _ controlled =>
        meets_pure ⟨controlled.alwaysReturns, controlled.controls⟩

theorem controlled_init (around : Surroundings) (env : TypeEnv) : ∀ s : Option (Stmt Unit),
    Meets (Stmt.checkInit around env s) (fun typed => Stmt.ControlledOption around s typed.1)
      fun _ => True
  | none => meets_pure ⟨rfl, .nothing⟩
  | some s => by
      rw [Stmt.checkInit]
      exact (controlled_stmt around env s).bind fun _ controlled =>
        meets_pure ⟨controlled.alwaysReturns, controlled.controls⟩

theorem controlled_stmts (around : Surroundings) (env : TypeEnv) : ∀ stmts : List (Stmt Unit),
    Meets (Stmt.checkAll around env stmts) (fun typed => Stmt.ControlledAll around stmts typed.1)
      fun _ => True
  | [] => meets_pure ⟨rfl, .nothing⟩
  | s :: rest => by
      rw [Stmt.checkAll]
      apply (controlled_stmt around env s).bind
      rintro ⟨first, inner⟩ controlled
      apply (controlled_stmts around inner rest).bind
      rintro ⟨others, _⟩ othersControlled
      apply meets_pure
      constructor
      · rw [Stmt.someReturns, Stmt.someReturns, controlled.alwaysReturns,
          othersControlled.someReturns]
      · exact controlled.controls.append othersControlled.controls

end

/-- In a checked formula no `break` or `continue` stands outside of loops, every function ends
well, and what is returned outside of functions has a value. -/
theorem controlled_program (globals : TypeEnv) (p : Program Unit) :
    Meets (p.checked globals)
      (fun q => Stmt.escapesAll q.body = false ∧ (∀ s ∈ q.stmts, s.EndsWell) ∧
        ∀ e : TypedExpr, some e ∈ Stmt.returnedAll q.body → e.HasValue) fun _ => True := by
  apply (controlled_stmts .outside globals.child p.body).bind
  rintro ⟨body, env⟩ controlled
  apply (meets_rule _).bind
  intro tail _
  apply meets_pure
  exact ⟨controlled.controls.stays rfl, controlled.controls.endWell,
    controlled.controls.valued rfl⟩

end Typing

end Formulae
