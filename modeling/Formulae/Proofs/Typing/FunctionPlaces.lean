import Formulae.Proofs.RoundTrip
import Formulae.Proofs.Typing.Compound
import Mathlib

/-!
# Functions in variables of their own type

A variable that is declared with the type of a function takes the function, unless void stands in
that type (`Typing.check_ownPlace`).
-/

namespace Formulae

open Check Typing

/-- The type of a function as other declarations write it. -/
def TypeExpr.ofFunction (params : List Param) (ret : TypeExpr) : TypeExpr :=
  .function (params.map (·.type)) ret

/-- The declaration of a variable that has the type of a function and holds the function. -/
def Stmt.ownPlace (node : StmtNode) (mutable : Bool) (params : List Param) (ret : TypeExpr)
    (name : String) (inner : Bare) (function : String) : Stmt Unit :=
  .varDecl node ⟨mutable, some (.ofFunction params ret), name⟩ (.ident inner function)

namespace Typing

variable {params : List Param} {ret : TypeExpr}

theorem ofExprs_eq_map (types : List TypeExpr) : Ty.ofExprs types = types.map Ty.ofExpr := by
  induction types with
  | nil => rfl
  | cons type rest inductionHypothesis => rw [Ty.ofExprs, inductionHypothesis, List.map_cons]

theorem ofExpr_ofFunction (params : List Param) (ret : TypeExpr) :
    Ty.ofExpr (.ofFunction params ret) = functionType params ret := by
  rw [TypeExpr.ofFunction, Ty.ofExpr, ofExprs_eq_map, List.map_map, functionType]
  rfl

theorem castableTo_functionType (params : List Param) (ret : TypeExpr) :
    (functionType params ret).castableTo (functionType params ret) =
      (functionType params ret).accepts (functionType params ret) :=
  rfl

/-- A function goes into a place of its own type as it is, unless void stands in the type. -/
theorem coerce_functionType (fit : Fit) {e : TypedExpr}
    (isFunction : e.label = functionType params ret) :
    coerce fit (functionType params ret) e =
      if (functionType params ret).mentionsVoid then
        fail (.notAssignable (functionType params ret) (functionType params ret)) e.span
      else pure e := by
  have fits := Ty.accepts_iff_of_equals (Ty.equals_refl (functionType params ret))
  have unread : readFor (functionType params ret) e = e := rfl
  rw [coerce, unread, isFunction, castableTo_functionType]
  cases void : (functionType params ret).mentionsVoid with
  | true =>
      have refused : (functionType params ret).accepts (functionType params ret) = false := by
        rw [void] at fits
        simpa using fits
      simp only [refused, Bool.and_false, Bool.false_eq_true, if_false, if_true]
  | false =>
      rw [if_pos (fits.mpr void), if_neg Bool.false_ne_true]
      rfl

theorem declare_eq (env : TypeEnv) (name : String) (type : Ty) (span : Span) :
    declare env name type span =
      if env.isLocal name then fail (.duplicateDeclaration name) span
      else pure (env.bind name type) := by
  rw [declare, TypeEnv.declare?]
  cases env.isLocal name <;> rfl

/-- After the declaration of a function its name stands for it. -/
theorem lookup_of_check_function {around : Surroundings} {env after : TypeEnv} {node : StmtNode}
    {name : String} {body : List (Stmt Unit)} {next stop : Nat} {checked : TypedStmt}
    (declared : (Stmt.function node ret name params body).check around env next =
      .ok ((checked, after), stop)) : after.lookup name = some (functionType params ret) := by
  simp only [Stmt.check, bind_eq_ok_iff] at declared
  rcases declared with ⟨bound, _, isBound, _, _, -, _, _, -, _, _, -, ended⟩
  cases ended
  rw [declare_eq] at isBound
  split at isBound
  · cases isBound
  · cases isBound
    exact TypeEnv.lookup_bind_self env name _

/-- A function may be stored in a variable that is declared with the type of the function, under any
name that is free, exactly if void stands nowhere in that type; and so it is for all types that mean
the same. -/
theorem check_ownPlace {around : Surroundings} {env after : TypeEnv} {node : StmtNode}
    {name : String} {body : List (Stmt Unit)} {next stop : Nat} {checked : TypedStmt}
    (declared : (Stmt.function node ret name params body).check around env next =
      .ok ((checked, after), stop))
    (place : StmtNode) (mutable : Bool) (inner : Bare) {other : String}
    (unbound : after.isLocal other = false) :
    (Stmt.ownPlace place mutable params ret other inner name).check around after stop =
        (if (functionType params ret).mentionsVoid then
          .error ⟨.notAssignable (functionType params ret) (functionType params ret), inner.span⟩
        else
          .ok ((.varDecl place ⟨mutable, some (.ofFunction params ret), other⟩
            (.ident (inner.typed (functionType params ret)) name),
            after.bind other ((functionType params ret).withFinal !mutable)), stop)) ∧
      ∀ a b : Ty, a.equals b → (a.accepts b ↔ a.mentionsVoid = false) := by
  refine ⟨?_, fun a b same => Ty.accepts_iff_of_equals same⟩
  have isFunction := lookup_of_check_function declared
  have hasValue : (Expr.ident (inner.typed (functionType params ret)) name).label.isVoid = false :=
    rfl
  have own : (Expr.ident (inner.typed (functionType params ret)) name).label =
      functionType params ret := rfl
  rw [Stmt.ownPlace, Stmt.check, Expr.checkValue, Expr.check, ident_of_lookup isFunction, pure_bind,
    requireValue_of_hasValue hasValue, pure_bind]
  simp only [initial, ofExpr_ofFunction, coerce_functionType .castable own, declare_eq, unbound]
  cases (functionType params ret).mentionsVoid <;> rfl

/-- The type of functions from integers to integers. -/
def intToInt : TypeExpr :=
  .function [.basic .int] (.basic .int)

/-- The parameters of a function that takes a function and an array. -/
def pickParams : List Param :=
  [⟨false, intToInt, "f", ⟨26, 48⟩⟩, ⟨false, .array (.basic .int), "xs", ⟨50, 58⟩⟩]

/-- A function that takes a function, which it gives back, and an array. -/
def pick : Stmt Unit :=
  .function ⟨0, ⟨0, 73⟩⟩ intToInt "pick" pickParams
    [.ret ⟨1, ⟨62, 71⟩⟩ (some (.ident ⟨0, ⟨69, 70⟩, ()⟩ "f"))]

/-- A function that takes and gives functions is stored in a variable of its type. -/
theorem check_ownPlace_pick : ∃ checked after held,
    pick.check .outside .empty 2 = .ok ((checked, after), 2) ∧ after.isLocal "g" = false ∧
      (Stmt.ownPlace ⟨2, ⟨74, 149⟩⟩ true pickParams intToInt "g" ⟨1, ⟨144, 148⟩, ()⟩ "pick").check
          .outside after 2 =
        .ok ((held, after.bind "g" ((functionType pickParams intToInt).withFinal false)), 2) := by
  have declared : pick.check .outside .empty 2 = .ok (_, 2) := rfl
  exact ⟨_, _, _, declared, rfl,
    (check_ownPlace declared ⟨2, ⟨74, 149⟩⟩ true ⟨1, ⟨144, 148⟩, ()⟩ rfl).1⟩

end Typing

/-- The type of functions that take nothing and have no result. -/
def Ty.procedure : Ty :=
  .function [] none .void none true

/-- A function without result does not fit a variable of its own type, though that type and the
type of the variable are equal. -/
theorem Mode.refuses_of_check_procedure : ∃ tokens output,
    Lexer.tokenize "void f() \x7b \x7d function() -> void g = f;" = .ok tokens ∧
      Mode.program.parse tokens = .ok output ∧
      output.program.check .empty =
        .error ⟨.notAssignable Ty.procedure Ty.procedure, ⟨36, 37⟩⟩ := by
  have ends : (Lexer.tokenize "void f() \x7b \x7d function() -> void g = f;").toOption.bind
      (fun tokens => (Mode.program.parse tokens).toOption.bind fun output =>
        refusal? (output.program.check .empty))
      = some ⟨.notAssignable Ty.procedure Ty.procedure, ⟨36, 37⟩⟩ := by cbv
  rcases Mode.reads_of_toOption ends with ⟨tokens, output, lexed, parsed, refused⟩
  exact ⟨tokens, output, lexed, parsed, eq_error_of_refusal? refused⟩

end Formulae
