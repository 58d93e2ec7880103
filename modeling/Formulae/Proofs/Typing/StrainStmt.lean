import Formulae.Proofs.RoundTrip
import Formulae.Proofs.Typing.Strain
import Mathlib

/-!
# Where checking a formula relies on more than it ensures

Checking a formula that source can give comes to expressions in the environments of their scopes
(`Stmt.Encounters`).  It reports a bug only at one with a part that strains
(`Mode.strains_of_check`).
-/

namespace Formulae

open Check Typing

namespace Stmt

mutual

/-- Checking the statement comes to an expression of which `P` holds in its environment. -/
def Encounters (P : TypeEnv → Expr Unit → Prop) (around : Surroundings) (env : TypeEnv) :
    Stmt Unit → Prop
  | .expr _ e | .varDecl _ _ e | .ret _ (some e) => P env e
  | .ret _ none | .brk _ | .cont _ => False
  | .ifElse _ cond thenBranch elseBranch =>
      P env cond ∨ Encounters P around env.child thenBranch ∨
        EncountersOption P around env.child elseBranch
  | .whileLoop _ cond body | .doWhile _ body cond =>
      P env cond ∨ Encounters P around.loopBody env.child body
  | .forLoop _ init cond step body =>
      EncountersOption P around env.child init ∨
        ∃ checked inner, Gives (checkInit around env.child init) (checked, inner) ∧
          ((∃ e ∈ cond, P inner e) ∨ (∃ e ∈ step, P inner e) ∨
            Encounters P around.loopBody inner.child body)
  | .forEach node binder iterable body =>
      P env iterable ∨
        ∃ xs element type inner, Gives (iterable.checkValue env) xs ∧
          Gives (elementType xs) element ∧ Gives (itemType binder.type element node.span) type ∧
            Gives (declare env.child binder.name (type.withFinal !binder.mutable) node.span) inner ∧
              Encounters P around.loopBody inner.child body
  | .block _ stmts => EncountersAll P around env.child stmts
  | .function node written name params body =>
      ∃ after inner, Gives (declare env name (functionType params written) node.span) after ∧
        Gives (declareParams node.span after.child params) inner ∧
          EncountersAll P (.functionBody (Ty.ofExpr written)) inner body

/-- Checking the statement, if there is one, comes to such an expression. -/
def EncountersOption (P : TypeEnv → Expr Unit → Prop) (around : Surroundings) (env : TypeEnv) :
    Option (Stmt Unit) → Prop
  | none => False
  | some s => Encounters P around env s

/-- Checking the statements in turn comes to such an expression. -/
def EncountersAll (P : TypeEnv → Expr Unit → Prop) (around : Surroundings) (env : TypeEnv) :
    List (Stmt Unit) → Prop
  | [] => False
  | s :: rest =>
      Encounters P around env s ∨
        ∃ checked inner, Gives (s.check around env) (checked, inner) ∧
          EncountersAll P around inner rest

end

end Stmt

/-- Checking the formula comes to an expression of which `P` holds in its environment. -/
def Program.Encounters (P : TypeEnv → Expr Unit → Prop) (globals : TypeEnv) (p : Program Unit) :
    Prop :=
  Stmt.EncountersAll P .outside globals.child p.body ∨
    ∃ body env, Gives (Stmt.checkAll .outside globals.child p.body) (body, env) ∧
      ∃ e ∈ p.tail, P env e

namespace Typing

/-- A part of the expression strains in the environment. -/
def strainsAt (target : Ty) (span : Span) (env : TypeEnv) (e : Expr Unit) : Prop :=
  Expr.StrainsIn env e.exprs target span

/-! ## Rules -/

theorem silent_declareParams (span : Span) (env : TypeEnv) (params : List Param) :
    Silent (declareParams span env params) := by
  induction params generalizing env with
  | nil => exact reports_pure env
  | cons param rest inductionHypothesis =>
      rw [declareParams]
      exact (ordinary_declare _ _ _ _).reports.bind fun inner _ => inductionHypothesis inner

theorem silent_initial (written : Option TypeExpr) (value : TypedExpr) :
    Silent (initial written value) := by
  cases written with
  | none => exact reports_pure _
  | some written =>
      exact (silent_coerce .castable (by simp [Ty.toExpr?_ofExpr]) value).thenPure

theorem silent_returned {expected : Option Ty} (written : ∀ type ∈ expected, type.toExpr? ≠ none)
    (value : TypedExpr) : Silent (returned expected value) := by
  cases expected with
  | none => exact reports_pure value
  | some type => exact silent_coerce .accepted (written type rfl) value

/-! ## Statements -/

section

variable {floats : Float → Prop} {env : TypeEnv}

theorem reports_checkValue (env : TypeEnv) {e : Expr Unit} (readable : e.Readable floats) :
    Reports (fun target span => strainsAt target span env e) (e.checkValue env) := by
  rw [Expr.checkValue, ← bind_pure (e.check env >>= requireValue), bind_assoc]
  exact Reports.value (reports_expr env e readable) fun value _ => reports_pure value

theorem reports_checkValueOption (env : TypeEnv) {e : Option (Expr Unit)}
    (readable : ∀ x ∈ e, x.Readable floats) :
    Reports (fun target span => ∃ x ∈ e, strainsAt target span env x)
      (Expr.checkValueOption env e) := by
  cases e with
  | none => exact reports_pure none
  | some e =>
      apply Reports.thenPure
      exact (reports_checkValue env (readable e rfl)).mono fun _ _ strains => ⟨e, rfl, strains⟩

theorem reports_checkOption (env : TypeEnv) {e : Option (Expr Unit)}
    (readable : ∀ x ∈ e, x.Readable floats) :
    Reports (fun target span => ∃ x ∈ e, strainsAt target span env x)
      (Expr.checkOption env e) := by
  cases e with
  | none => exact reports_pure none
  | some e =>
      apply Reports.thenPure
      exact (reports_expr env e (readable e rfl)).mono fun _ _ strains => ⟨e, rfl, strains⟩

end

/-- The types that the functions around a statement return are written. -/
def ReturnsWritten (around : Surroundings) : Prop :=
  ∀ type ∈ around.returns, type.toExpr? ≠ none

theorem ReturnsWritten.loopBody {around : Surroundings} (written : ReturnsWritten around) :
    ReturnsWritten around.loopBody :=
  written

theorem returnsWritten_functionBody (written : TypeExpr) :
    ReturnsWritten (.functionBody (Ty.ofExpr written)) := by
  rintro _ ⟨rfl⟩
  simp [Ty.toExpr?_ofExpr]

variable {floats : Float → Prop}

mutual

theorem reports_stmt {around : Surroundings} (written : ReturnsWritten around) (env : TypeEnv) :
    ∀ s : Stmt Unit, s.Readable floats →
      Reports (fun target span => s.Encounters (strainsAt target span) around env)
        (s.check around env)
  | .expr node e, readable => by
      rw [Stmt.check]
      exact (reports_expr env e readable).thenPure
  | .varDecl node binder init, readable => by
      rw [Stmt.check]
      apply (reports_checkValue env readable.2).bind
      intro value _
      apply (silent_initial binder.type value).reports.bind
      intro typed _
      exact (ordinary_declare _ _ _ _).reports.thenPure
  | .ret node none, _ => by
      rw [Stmt.check]
      exact (ordinary_returnsNothing _ _).reports.thenPure
  | .ret node (some e), readable => by
      rw [Stmt.check]
      apply (reports_checkValue env (readable e rfl)).bind
      intro value _
      exact (silent_returned written value).reports.thenPure
  | .ifElse node cond thenBranch elseBranch, readable => by
      rw [Stmt.check]
      apply ((reports_checkValue env readable.1).mono fun _ _ => .inl).bind
      intro c _
      apply ((reports_stmt written env.child thenBranch readable.2.1).mono fun _ _ strains =>
        .inr (.inl strains)).bind
      intro x _
      apply Reports.thenPure
      exact (reports_branch written env elseBranch readable.2.2.1).mono fun _ _ strains =>
        .inr (.inr strains)
  | .whileLoop node cond body, readable => by
      rw [Stmt.check]
      apply ((reports_checkValue env readable.1).mono fun _ _ => .inl).bind
      intro c _
      apply Reports.thenPure
      exact (reports_stmt written.loopBody env.child body readable.2).mono fun _ _ => .inr
  | .doWhile node body cond, readable => by
      rw [Stmt.check]
      apply ((reports_checkValue env readable.2).mono fun _ _ => .inl).bind
      intro c _
      apply Reports.thenPure
      exact (reports_stmt written.loopBody env.child body readable.1).mono fun _ _ => .inr
  | .forLoop node init cond step body, readable => by
      obtain ⟨initReadable, -, condReadable, stepReadable, bodyReadable⟩ := readable
      rw [Stmt.check]
      apply ((reports_init written env.child init initReadable).mono fun _ _ => .inl).bind
      rintro ⟨i, inner⟩ given
      apply ((reports_checkValueOption inner condReadable).mono fun _ _ strains =>
        .inr ⟨i, inner, given, .inl strains⟩).bind
      intro c _
      apply ((reports_checkOption inner stepReadable).mono fun _ _ strains =>
        .inr ⟨i, inner, given, .inr (.inl strains)⟩).bind
      intro n _
      apply Reports.thenPure
      exact (reports_stmt written.loopBody inner.child body bodyReadable).mono fun _ _ strains =>
        .inr ⟨i, inner, given, .inr (.inr strains)⟩
  | .forEach node binder iterable body, readable => by
      rw [Stmt.check]
      apply ((reports_checkValue env readable.2.1).mono fun _ _ => .inl).bind
      intro xs isIterable
      apply (ordinary_elementType xs).reports.bind
      intro element isElement
      apply (ordinary_itemType binder.type element node.span).reports.bind
      intro type isType
      apply (ordinary_declare _ _ _ _).reports.bind
      intro inner isInner
      apply Reports.thenPure
      exact (reports_stmt written.loopBody inner.child body readable.2.2).mono fun _ _ strains =>
        .inr ⟨xs, element, type, inner, isIterable, isElement, isType, isInner, strains⟩
  | .brk node, _ | .cont node, _ => by
      rw [Stmt.check]
      exact (ordinary_loopControl _ _ _).reports.thenPure
  | .block node stmts, readable => by
      rw [Stmt.check]
      exact (reports_stmts written env.child stmts readable).thenPure
  | .function node written name params body, readable => by
      rw [Stmt.check]
      apply (ordinary_declare _ _ _ _).reports.bind
      intro after isAfter
      apply (silent_declareParams _ _ _).reports.bind
      intro inner isInner
      have ofBody := returnsWritten_functionBody written
      apply ((reports_stmts ofBody inner body readable.2.2.2).mono fun _ _ strains =>
        ⟨after, inner, isAfter, isInner, strains⟩).bind
      intro checked _
      exact (ordinary_mustReturn _ _ _ _).reports.thenPure

theorem reports_branch {around : Surroundings} (written : ReturnsWritten around) (env : TypeEnv) :
    ∀ s : Option (Stmt Unit), Stmt.ReadableOption floats s →
      Reports (fun target span => Stmt.EncountersOption (strainsAt target span) around env.child s)
        (Stmt.checkOption around env s)
  | none, _ => reports_pure none
  | some s, readable => by
      rw [Stmt.checkOption]
      exact (reports_stmt written env.child s readable).thenPure

theorem reports_init {around : Surroundings} (written : ReturnsWritten around) (env : TypeEnv) :
    ∀ s : Option (Stmt Unit), Stmt.ReadableOption floats s →
      Reports (fun target span => Stmt.EncountersOption (strainsAt target span) around env s)
        (Stmt.checkInit around env s)
  | none, _ => reports_pure (none, env)
  | some s, readable => by
      rw [Stmt.checkInit]
      exact (reports_stmt written env s readable).thenPure

theorem reports_stmts {around : Surroundings} (written : ReturnsWritten around) (env : TypeEnv) :
    ∀ stmts : List (Stmt Unit), Stmt.ReadableAll floats stmts →
      Reports (fun target span => Stmt.EncountersAll (strainsAt target span) around env stmts)
        (Stmt.checkAll around env stmts)
  | [], _ => reports_pure ([], env)
  | s :: rest, readable => by
      rw [Stmt.checkAll]
      apply ((reports_stmt written env s readable.1).mono fun _ _ => .inl).bind
      rintro ⟨first, inner⟩ given
      apply Reports.thenPure
      exact (reports_stmts written inner rest readable.2).mono fun _ _ strains =>
        .inr ⟨first, inner, given, strains⟩

end

/-! ## Formulas -/

theorem reports_program (globals : TypeEnv) {p : Program Unit} (readable : p.Readable floats) :
    Reports (fun target span => p.Encounters (strainsAt target span) globals)
      (p.checked globals) := by
  have outside : ReturnsWritten .outside := nofun
  apply ((reports_stmts outside globals.child p.body readable.body).mono fun _ _ => .inl).bind
  rintro ⟨body, env⟩ given
  apply Reports.thenPure
  exact (reports_checkOption env readable.tail).mono fun _ _ strains =>
    .inr ⟨body, env, given, strains⟩

end Typing

/-- A formula that can be read is checked without bugs, unless checking comes to a part that
assigns a mixed value to a place of a type that cannot be written, or gives it for a parameter of
such a type. -/
theorem Mode.strains_of_check {mode : Mode} {source : String} {tokens : TokenList}
    {output : Parser.Output} {globals : TypeEnv} {cause : TypeBug} {span : Span}
    (lexed : Lexer.tokenize source = .ok tokens) (parsed : mode.parse tokens = .ok output)
    (failed : output.program.check globals = .error ⟨.bug cause, span⟩) :
    ∃ target, cause = .unwritableCast target ∧
      output.program.Encounters
        (fun env e => ∃ part ∈ e.exprs, part.Strains env target span) globals := by
  have readable := (Mode.readable_of_parse (Lexer.lexed_of_tokenize lexed) parsed).1
  exact (Typing.reports_program globals readable).of_error failed cause rfl

/-- Checking comes to an assignment of a mixed value to a variable that holds a function of any
number of arguments. -/
theorem Mode.strains_of_check_max : ∃ tokens output,
    Lexer.tokenize "mut var f = max; f = \x7b1, \"a\"\x7d[0];" = .ok tokens ∧
      Mode.program.parse tokens = .ok output ∧
      output.program.check .empty =
        .error ⟨.bug (.unwritableCast Builtin.max.signature.type), ⟨21, 32⟩⟩ ∧
      output.program.Encounters
        (fun env e => ∃ part ∈ e.exprs, part.Strains env Builtin.max.signature.type ⟨21, 32⟩)
        .empty := by
  have ends : (Lexer.tokenize "mut var f = max; f = \x7b1, \"a\"\x7d[0];").toOption.bind
      (fun tokens => (Mode.program.parse tokens).toOption.bind fun output =>
        refusal? (output.program.check .empty))
      = some ⟨.bug (.unwritableCast Builtin.max.signature.type), ⟨21, 32⟩⟩ := by cbv
  rcases Mode.reads_of_toOption ends with ⟨tokens, output, lexed, parsed, refused⟩
  have failed := eq_error_of_refusal? refused
  rcases Mode.strains_of_check lexed parsed failed with ⟨_, ⟨rfl⟩, strains⟩
  exact ⟨tokens, output, lexed, parsed, failed, strains⟩

/-- Assigning a mixed value to a variable that was declared with the null value is reported as a
bug. -/
theorem Mode.bug_of_check_null : ∃ tokens output,
    Lexer.tokenize "mut var x = null; x = \x7b1, \"a\"\x7d[0];" = .ok tokens ∧
      Mode.program.parse tokens = .ok output ∧
      output.program.check .empty = .error ⟨.bug (.unwritableCast (.null true)), ⟨22, 33⟩⟩ := by
  have ends : (Lexer.tokenize "mut var x = null; x = \x7b1, \"a\"\x7d[0];").toOption.bind
      (fun tokens => (Mode.program.parse tokens).toOption.bind fun output =>
        refusal? (output.program.check .empty))
      = some ⟨.bug (.unwritableCast (.null true)), ⟨22, 33⟩⟩ := by cbv
  rcases Mode.reads_of_toOption ends with ⟨tokens, output, lexed, parsed, refused⟩
  exact ⟨tokens, output, lexed, parsed, eq_error_of_refusal? refused⟩

end Formulae
