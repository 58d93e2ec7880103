import Formulae.Arena.Reader
import Formulae.Proofs.Arena.Stored
import Formulae.Proofs.Parser.Counts

/-!
# Two readers side by side

A step of reading into storage follows a rule of reading trees if both succeed or both fail with
the same error, and if both stand at the same place after a success.  A step that fails has only
added to storage, so going back restores what there was.
-/

namespace Formulae

open Formulae.Parser (Outcome Parsed Extended State orFurther)

/-- A result of reading trees, and the state after it. -/
def Parser.Parsed.result {α : Type} {s : State} (parsed : Parsed α s) : α × State :=
  (parsed.value, parsed.state)

/-- A result of reading trees, and the state after it. -/
def Parser.Extended.result {α : Type} {s : State} (extended : Extended α s) : α × State :=
  (extended.value, extended.state)

/-- Which of three errors lies furthest on does not depend on where one starts. -/
theorem ParseError.further_assoc (one two three : ParseError) :
    (one.further two).further three = one.further (two.further three) := by
  grind [ParseError.further]

namespace Build

variable {α β γ δ ρ σ : Type}

/-- From this place the step gives what the rule gives, with a value that stands for the value
of the rule.  The result of the rule is seen through `view`, and `Failed` says where the step may
stand if it fails. -/
inductive Agrees (Failed : Place → Prop) (view : ρ → α × State) (Stands : α → β → Arena → Prop)
    (p : Place) (outcome : Except ParseError ρ) (step : Build β) : Prop
  | ok {result : ρ} {value : β} {p' : Place} (gives : outcome = .ok result)
      (ran : step p = .ok value p') (state : p'.state = (view result).2)
      (grown : p.arena ≤ p'.arena) (stands : Stands (view result).1 value p'.arena)
  | error {error : ParseError} {p' : Place} (fails : outcome = .error error)
      (ran : step p = .error error p') (failed : Failed p')

/-- The step follows the rule; if it fails, it has only added to storage. -/
def Follows (view : ρ → α × State) (Stands : α → β → Arena → Prop) (p : Place)
    (outcome : Except ParseError ρ) (step : Build β) : Prop :=
  Agrees (p.arena ≤ ·.arena) view Stands p outcome step

/-- The step follows the rule; if it fails, it is back where it began. -/
def Tries (view : ρ → α × State) (Stands : α → β → Arena → Prop) (p : Place)
    (outcome : Except ParseError ρ) (step : Build β) : Prop :=
  Agrees (· = p) view Stands p outcome step

variable {view : ρ → α × State} {Stands : α → β → Arena → Prop} {p p' : Place}
  {outcome : Except ParseError ρ} {x : Build β}

theorem Tries.follows (tries : Tries view Stands p outcome x) : Follows view Stands p outcome x := by
  cases tries with
  | ok gives ran state grown stands => exact .ok gives ran state grown stands
  | error fails ran same => exact .error fails ran (same ▸ Arena.le_refl _)

/-- Only what the step does from this place counts. -/
theorem Agrees.of_eq {Failed : Place → Prop} {y : Build β}
    (agrees : Agrees Failed view Stands p outcome x) (same : y p = x p) :
    Agrees Failed view Stands p outcome y := by
  cases agrees with
  | ok gives ran state grown stands => exact .ok gives (same.trans ran) state grown stands
  | error fails ran failed => exact .error fails (same.trans ran) failed

/-! ## Steps in a row -/

theorem bind_of_ok {next : β → Build δ} {value : β} (ran : x p = .ok value p') :
    (x >>= next) p = next value p' := by
  change EStateM.bind x next p = _
  rw [EStateM.bind, ran]

theorem bind_of_error {next : β → Build δ} {error : ParseError} (ran : x p = .error error p') :
    (x >>= next) p = .error error p' := by
  change EStateM.bind x next p = _
  rw [EStateM.bind, ran]

/-- A step that the rule does not see. -/
theorem Follows.step {first : Build γ} {next : γ → Build β} {value : γ}
    (ran : first p = .ok value p') (grown : p.arena ≤ p'.arena)
    (rest : Follows view Stands p' outcome (next value)) :
    Follows view Stands p outcome (first >>= next) := by
  have run := (bind_of_ok ran : (first >>= next) p = _)
  cases rest with
  | ok gives ran' state grown' stands =>
      exact .ok gives (run.trans ran') state (Arena.le_trans grown grown') stands
  | error fails ran' grown' => exact .error fails (run.trans ran') (Arena.le_trans grown grown')

/-- A look at the place. -/
theorem Follows.look {first : Build γ} {next : γ → Build β} {value : γ}
    (ran : first p = .ok value p) (rest : Follows view Stands p outcome (next value)) :
    Follows view Stands p outcome (first >>= next) :=
  .step ran (Arena.le_refl _) rest

/-- Passing the next token, which the rule has seen. -/
theorem Follows.advance {next : Unit → Build β}
    (rest : Follows view Stands ⟨p.cursor.advance, p.arena⟩ outcome (next ())) :
    Follows view Stands p outcome (Build.advance >>= next) :=
  .step rfl (Arena.le_refl _) rest

/-- Looking up the stretch of source of an expression. -/
theorem Follows.exprSpan {next : Span → Build β} {id : Nat} {span : Span}
    (shows : p.arena.Shows id span) (rest : Follows view Stands p outcome (next span)) :
    Follows view Stands p outcome (Build.exprSpan id >>= next) :=
  .look (by rw [Build.exprSpan, shows.exprSpan]) rest

/-- Adding an expression. -/
theorem Follows.addExpr {next : Nat → Build β} {kind : ExprKind} {span : Span}
    (rest : Follows view Stands ⟨p.cursor, (Arena.addExpr kind span p.arena).2⟩ outcome
      (next (Arena.addExpr kind span p.arena).1)) :
    Follows view Stands p outcome (Build.addExpr kind span >>= next) :=
  .step rfl (Arena.le_addExpr kind span p.arena) rest

/-- A rule in two parts is followed by a step in two parts. -/
theorem Follows.bind {next : ρ → Except ParseError σ} {andThen : β → Build δ}
    {view' : σ → γ × State} {Stands' : γ → δ → Arena → Prop}
    (first : Follows view Stands p outcome x)
    (rest : ∀ result value p', p'.state = (view result).2 → p.arena ≤ p'.arena →
      Stands (view result).1 value p'.arena →
        Follows view' Stands' p' (next result) (andThen value)) :
    Follows view' Stands' p (outcome >>= next) (x >>= andThen) := by
  cases first with
  | ok gives ran state grown stands =>
      rw [gives]
      exact .step ran grown (rest _ _ _ state grown stands)
  | error fails ran grown =>
      rw [fails]
      exact .error rfl (bind_of_error ran) grown

/-- A rule whose first part gives a result without the step doing anything. -/
theorem Follows.okBind {result : σ} {next : σ → Except ParseError ρ}
    (rest : Follows view Stands p (next result) x) :
    Follows view Stands p (.ok result >>= next) x :=
  rest

/-- A rule that gives the result of another in another form. -/
theorem Follows.map {f : ρ → σ} {view' : σ → α × State}
    (first : Follows view Stands p outcome x) (same : ∀ result, view' (f result) = view result) :
    Follows view' Stands p (outcome >>= fun result => pure (f result)) x := by
  cases first with
  | ok gives ran state grown stands =>
      rw [gives]
      exact .ok rfl ran (state.trans (by rw [same])) grown (by rw [same]; exact stands)
  | error fails ran grown =>
      rw [fails]
      exact .error rfl ran grown

/-! ## Rules that pass tokens -/

section Passing

variable {s s₀ : State}

theorem Follows.kind {next : Token.Kind → Build β} (here : p.state = s)
    (rest : Follows view Stands p outcome (next s.kind)) :
    Follows view Stands p outcome (Build.kind >>= next) :=
  .look (here ▸ rfl) rest

theorem Follows.nextKind {next : Token.Kind → Build β} (here : p.state = s)
    (rest : Follows view Stands p outcome (next s.cursor.nextKind)) :
    Follows view Stands p outcome (Build.nextKind >>= next) :=
  .look (here ▸ rfl) rest

theorem Follows.span {next : Span → Build β} (here : p.state = s)
    (rest : Follows view Stands p outcome (next s.span)) :
    Follows view Stands p outcome (Build.span >>= next) :=
  .look (here ▸ rfl) rest

theorem Follows.spanFrom {next : Span → Build β} {start : Span} (here : p.state = s)
    (rest : Follows view Stands p outcome (next (s.spanFrom start))) :
    Follows view Stands p outcome (Build.spanFrom start >>= next) :=
  .look (here ▸ rfl) rest

theorem Follows.within {h : s.remaining < s₀.remaining} {first : Outcome α s}
    (follows : Follows Parsed.result Stands p first x) :
    Follows Parsed.result Stands p (first.within h) x := by
  have inOneStep : first.within h = first >>= fun parsed => pure (parsed.within h) := by
    cases first <;> rfl
  rw [inOneStep]
  exact follows.map fun _ => rfl

/-- A rule that begins with another one. -/
theorem Follows.andThen {first : Outcome α s} {next : Parsed α s → Except ParseError σ}
    {andThen : β → Build δ} {view' : σ → γ × State} {Stands' : γ → δ → Arena → Prop}
    (follows : Follows Parsed.result Stands p first x)
    (rest : ∀ value s₁ h id p', p'.state = s₁ → p.arena ≤ p'.arena → Stands value id p'.arena →
      Follows view' Stands' p' (next ⟨value, s₁, h⟩) (andThen id)) :
    Follows view' Stands' p (first >>= next) (x >>= andThen) :=
  follows.bind fun result id p' => rest result.value result.state result.shorter id p'

/-- The step gives the value itself, and leaves storage as it is. -/
def Passes (p : Place) (value given : α) (a : Arena) : Prop :=
  given = value ∧ a = p.arena

/-- A rule that begins with one that completes no node. -/
theorem Follows.pass {first : Outcome α s} {x : Build α}
    {next : Parsed α s → Except ParseError σ} {andThen : α → Build δ} {view' : σ → γ × State}
    {Stands' : γ → δ → Arena → Prop} (follows : Follows Parsed.result (Passes p) p first x)
    (rest : ∀ value s₁ h c, (⟨c, p.arena⟩ : Place).state = s₁ →
      Follows view' Stands' ⟨c, p.arena⟩ (next ⟨value, s₁, h⟩) (andThen value)) :
    Follows view' Stands' p (first >>= next) (x >>= andThen) := by
  refine follows.andThen fun value s₁ h given p' state _ passes => ?_
  obtain ⟨c, a⟩ := p'
  obtain ⟨sameValue, sameArena⟩ := passes
  subst sameValue
  change a = p.arena at sameArena
  subst sameArena
  exact rest _ s₁ h c state

theorem Follows.eaten {next : Bool → Build β} {kind : Token.Kind} (here : p.state = s)
    (found : s.kind = kind)
    (rest : Follows view Stands ⟨p.cursor.advance, p.arena⟩ outcome (next true)) :
    Follows view Stands p outcome (eat kind >>= next) := by
  have eaten : p.cursor.eat kind = (true, p.cursor.advance) := by
    subst here
    exact if_pos (decide_eq_true found)
  have ran : eat kind p = .ok true ⟨p.cursor.advance, p.arena⟩ := by rw [eat, eaten]
  exact .step ran (Arena.le_refl _) rest

theorem Follows.notEaten {next : Bool → Build β} {kind : Token.Kind} (here : p.state = s)
    (other : s.kind ≠ kind) (rest : Follows view Stands p outcome (next false)) :
    Follows view Stands p outcome (eat kind >>= next) := by
  have eaten : p.cursor.eat kind = (false, p.cursor) := by
    subst here
    exact if_neg fun found => other (of_decide_eq_true found)
  refine .look ?_ rest
  rw [eat, eaten]

/-- Reading by a rule that completes no node. -/
theorem follows_read {rule : (s : State) → Outcome α s} (here : p.state = s)
    (keeps : ∀ {value s'}, Parser.Gives (rule s) value s' → s'.counts = s.counts) :
    Follows Parsed.result (Passes p) p (rule s) (read rule) := by
  subst here
  cases given : rule p.state with
  | error error =>
      refine .error rfl ?_ (Arena.le_refl _)
      simp only [read, given]
  | ok parsed =>
      have counts := keeps (Parser.gives_of_eq_ok given)
      have ran : read rule p = .ok parsed.value ⟨parsed.state.cursor, p.arena⟩ := by
        simp only [read, given]
      have state : (⟨parsed.state.cursor, p.arena⟩ : Place).state = parsed.state :=
        congrArg (fun counts : Nat × Nat =>
          (⟨parsed.state.cursor, counts.1, counts.2⟩ : State)) counts.symm
      exact .ok rfl ran state (Arena.le_refl _) ⟨rfl, rfl⟩

theorem follows_expectMarkAs (mark : Mark) (expected : String) (here : p.state = s) :
    Follows Parsed.result (Passes p) p (Parser.expectMarkAs mark expected s)
      (read (Parser.expectMarkAs mark expected)) :=
  follows_read here fun gives => by
    rw [(Parser.gives_expectMarkAs.mp gives).2.2, State.counts_advance]

theorem follows_mark (mark : Mark) (here : p.state = s) :
    Follows Parsed.result (Passes p) p (Parser.expectMark mark s) (Build.mark mark) :=
  follows_expectMarkAs mark _ here

/-- Passing a mark that the rule has seen. -/
theorem Follows.marked {mark : Mark} {next : Span → Build β} (here : p.state = s)
    (found : s.kind = .mark mark)
    (rest : Follows view Stands ⟨p.cursor.advance, p.arena⟩ outcome (next s.span)) :
    Follows view Stands p outcome (Build.mark mark >>= next) := by
  subst here
  have ran : Build.mark mark p = .ok p.state.span ⟨p.cursor.advance, p.arena⟩ := by
    simp only [Build.mark, read, Parser.expectMark_of_kind found]
    rfl
  exact .step ran (Arena.le_refl _) rest

theorem follows_keyword (word : Keyword) (here : p.state = s) :
    Follows Parsed.result (Passes p) p (Parser.expectKeyword word s) (keyword word) :=
  follows_read here fun gives => by
    rw [(Parser.gives_expectKeyword.mp gives).2.2, State.counts_advance]

theorem follows_ident (here : p.state = s) :
    Follows Parsed.result (Passes p) p (Parser.expectIdent s) (read Parser.expectIdent) :=
  follows_read here fun gives => by
    rw [(Parser.gives_expectIdent.mp gives).2, State.counts_advance]

theorem follows_type (here : p.state = s) :
    Follows Parsed.result (Passes p) p (Parser.typeExpr s) (read Parser.typeExpr) :=
  follows_read here (Parser.counts_typeExpr s)

theorem follows_binder (here : p.state = s) :
    Follows Parsed.result (Passes p) p (Parser.binder s) (read Parser.binder) :=
  follows_read here Parser.counts_binder

theorem follows_params (here : p.state = s) :
    Follows Parsed.result (Passes p) p (Parser.params s) (read Parser.params) :=
  follows_read here Parser.counts_params

end Passing

/-! ## Choice -/

theorem Follows.attempt (follows : Follows view Stands p outcome x) :
    Tries view Stands p outcome (attempt x) := by
  cases follows with
  | ok gives ran state grown stands =>
      refine .ok gives ?_ state grown stands
      rw [Build.attempt, ran]
  | error fails ran grown =>
      refine .error fails ?_ rfl
      simp only [Build.attempt, ran, Arena.rollback_checkpoint grown]

/-- The first of two steps succeeds. -/
theorem Follows.orAttempt_ok {next : γ → Build β} {other : Build β} {first : Build γ} {value : γ}
    (ran : first p = .ok value p') (grown : p.arena ≤ p'.arena)
    (rest : Follows view Stands p' outcome (next value)) :
    Follows view Stands p outcome (orAttempt first next other) := by
  have run : orAttempt first next other p = (first >>= next) p := by
    rw [bind_of_ok ran, orAttempt, ran]
  exact (Follows.step ran grown rest).of_eq run

/-- The first of two steps fails and is back where it began. -/
theorem Follows.orAttempt_error {next : γ → Build β} {other : Build β} {first : Build γ}
    {error : ParseError} (ran : first p = .error error p)
    (rest : Follows view Stands p outcome other) :
    Follows view Stands p (orFurther (.error error) fun _ => outcome)
      (orAttempt first next other) := by
  cases rest.attempt with
  | @ok _ value p' gives ran' state grown stands =>
      have run : orAttempt first next other p = .ok value p' := by
        simp only [orAttempt, ran, ran']
      rw [gives]
      exact .ok rfl run state grown stands
  | @error error' _ fails ran' same =>
      have run : orAttempt first next other p = .error (error.further error') p := by
        rw [same] at ran'
        simp only [orAttempt, ran, ran']
      rw [fails]
      exact .error rfl run (Arena.le_refl _)

/-- Two steps of which the second is tried only if the first fails. -/
theorem Tries.orAttempt {second : Except ParseError ρ} {other : Build β}
    (first : Tries view Stands p outcome x) (follows : Follows view Stands p second other) :
    Follows view Stands p (orFurther outcome fun _ => second) (orAttempt x pure other) := by
  cases first with
  | ok gives ran state grown stands =>
      rw [gives]
      exact .orAttempt_ok ran grown (.ok rfl rfl state (Arena.le_refl _) stands)
  | error fails ran same =>
      rw [same] at ran
      rw [fails]
      exact .orAttempt_error ran follows

/-- The last of several forms. -/
theorem Follows.firstOf_last (best : ParseError) (follows : Follows view Stands p outcome x) :
    Tries view Stands p (orFurther (.error best) fun _ => outcome) (firstOf (some best) [x]) := by
  cases follows.attempt with
  | ok gives ran state grown stands =>
      refine .ok ?_ ?_ state grown stands
      · rw [gives]
        rfl
      · simp only [firstOf, ran]
  | @error error _ fails ran same =>
      have run : Build.firstOf (some best) [x] p = .error (best.further error) p := by
        rw [same] at ran
        simp only [Build.firstOf, ran]
        rfl
      rw [fails]
      exact .error rfl run rfl

/-- One of several forms that is not the last. -/
theorem Follows.firstOf_cons {best : ParseError} {second : Unit → Except ParseError ρ}
    {others : List (Build β)} (follows : Follows view Stands p outcome x)
    (rest : ∀ error, Tries view Stands p (orFurther (.error error) second)
      (firstOf (some error) others)) :
    Tries view Stands p (orFurther (.error best) fun _ => orFurther outcome second)
      (firstOf (some best) (x :: others)) := by
  cases follows.attempt with
  | ok gives ran state grown stands =>
      refine .ok ?_ ?_ state grown stands
      · rw [gives]
        rfl
      · simp only [firstOf, ran]
  | @error error _ fails ran same =>
      rw [same] at ran
      have regroup : (orFurther (.error best) fun _ => orFurther outcome second)
          = orFurther (.error (best.further error)) second := by
        rw [fails]
        unfold orFurther
        cases second () with
        | ok result => rfl
        | error other => exact congrArg Except.error (ParseError.further_assoc _ _ _).symm
      have run : firstOf (some best) (x :: others) p
          = firstOf (some (best.further error)) others p := by
        simp only [firstOf, ran]
        rfl
      rw [regroup]
      cases rest (best.further error) with
      | ok gives ran state grown stands => exact .ok gives (run.trans ran) state grown stands
      | error fails ran same => exact .error fails (run.trans ran) same

/-- The first of several forms. -/
theorem Follows.firstOf {second : Unit → Except ParseError ρ} {others : List (Build β)}
    (follows : Follows view Stands p outcome x)
    (rest : ∀ error, Tries view Stands p (orFurther (.error error) second)
      (firstOf (some error) others)) :
    Tries view Stands p (orFurther outcome second) (firstOf none (x :: others)) := by
  cases follows.attempt with
  | ok gives ran state grown stands =>
      refine .ok ?_ ?_ state grown stands
      · rw [gives]
        rfl
      · simp only [Build.firstOf, ran]
  | @error error _ fails ran same =>
      rw [same] at ran
      have run : Build.firstOf none (x :: others) p = Build.firstOf (some error) others p := by
        simp only [Build.firstOf, ran]
        rfl
      rw [fails]
      cases rest error with
      | ok gives ran state grown stands => exact .ok gives (run.trans ran) state grown stands
      | error fails ran same => exact .error fails (run.trans ran) same

end Build

end Formulae
