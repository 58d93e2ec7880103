import Formulae.Parser.Stmt

/-!
# What the rules of the grammar give

`Gives outcome value state` says that a rule succeeds with a value and leads to a
state; that this state has fewer tokens ahead is out of sight.  Each combinator and
each rule of the grammar has one law that says exactly what it gives, and both
directions of the round trip are read off these laws.
-/

namespace Formulae.Parser

variable {α β : Type} {s s₁ s' : State}

/-- The rule succeeds with this value and leads to this state. -/
def Gives (outcome : Outcome α s) (value : α) (state : State) : Prop :=
  ∃ shorter, outcome = .ok ⟨value, state, shorter⟩

/-- The continuation succeeds with this value and leads to this state. -/
def Reaches (outcome : Except ParseError (Extended α s)) (value : α) (state : State) : Prop :=
  ∃ shorter, outcome = .ok ⟨value, state, shorter⟩

/-- The rule does not succeed. -/
def Fails (outcome : Outcome α s) : Prop :=
  ∀ value state, ¬Gives outcome value state

theorem Gives.remaining_lt {outcome : Outcome α s} {value : α} {state : State}
    (h : Gives outcome value state) : state.remaining < s.remaining :=
  h.1

theorem gives_of_eq_ok {outcome : Outcome α s} {parsed : Parsed α s} (h : outcome = .ok parsed) :
    Gives outcome parsed.value parsed.state :=
  ⟨parsed.shorter, h⟩

theorem fails_iff {outcome : Outcome α s} : Fails outcome ↔ ∃ error, outcome = .error error := by
  cases outcome with
  | error error => simp [Fails, Gives]
  | ok parsed =>
      constructor
      · intro fails
        exact absurd (gives_of_eq_ok rfl) (fails _ _)
      · rintro ⟨error, impossible⟩
        cases impossible

/-! ## Steps in a row -/

@[simp]
theorem gives_ok {parsed : Parsed α s} {value : α} {state : State} :
    Gives (.ok parsed) value state ↔ value = parsed.value ∧ state = parsed.state := by
  constructor
  · rintro ⟨shorter, equal⟩
    cases equal
    exact ⟨rfl, rfl⟩
  · rintro ⟨rfl, rfl⟩
    exact ⟨parsed.shorter, rfl⟩

@[simp]
theorem gives_pure {parsed : Parsed α s} {value : α} {state : State} :
    Gives (pure parsed : Except ParseError _) value state
      ↔ value = parsed.value ∧ state = parsed.state :=
  gives_ok

@[simp]
theorem gives_error {error : ParseError} {value : α} {state : State} :
    ¬Gives (s := s) (.error error) value state := by
  rintro ⟨_, impossible⟩
  cases impossible

@[simp]
theorem gives_within {h : s₁.remaining < s.remaining} {outcome : Outcome α s₁} {value : α}
    {state : State} : Gives (outcome.within h) value state ↔ Gives outcome value state := by
  constructor
  · rintro ⟨shorter, equal⟩
    rcases Outcome.within_eq_ok_iff.mp equal with ⟨⟨_, _, own⟩, first, rfl, rfl⟩
    exact ⟨own, first⟩
  · rintro ⟨shorter, rfl⟩
    exact ⟨Nat.lt_trans shorter h, rfl⟩

@[simp]
theorem gives_within_addExpr {h : s₁.remaining < s.remaining} {outcome : Outcome α s₁.addExpr}
    {value : α} {state : State} :
    Gives (@Outcome.within α s s₁.addExpr h outcome) value state ↔
      Gives outcome value state :=
  gives_within

theorem gives_bind {start : State} {first : Outcome β start} {next : Parsed β start → Outcome α s}
    {value : α} {state : State} : Gives (first >>= next) value state ↔
      ∃ b s₁, ∃ h : Gives first b s₁, Gives (next ⟨b, s₁, h.remaining_lt⟩) value state := by
  cases first with
  | error error =>
      constructor
      · intro impossible
        exact absurd impossible gives_error
      · rintro ⟨_, _, impossible, _⟩
        exact absurd impossible gives_error
  | ok parsed =>
      constructor
      · intro gives
        exact ⟨parsed.value, parsed.state, gives_of_eq_ok rfl, gives⟩
      · rintro ⟨b, s₁, ⟨_, equal⟩, gives⟩
        cases equal
        exact gives

theorem reaches_ok {extended : Extended α s} {value : α} {state : State} :
    Reaches (.ok extended) value state ↔ value = extended.value ∧ state = extended.state := by
  constructor
  · rintro ⟨_, equal⟩
    cases equal
    exact ⟨rfl, rfl⟩
  · rintro ⟨rfl, rfl⟩
    exact ⟨extended.shorter, rfl⟩

/-- A rule that goes on from an operand gives what the continuation gives. -/
@[simp]
theorem gives_bind_within {first : Except ParseError (Extended α s₁)}
    {h : s₁.remaining < s.remaining} {value : α} {state : State} :
    Gives (s := s) (first >>= fun whole => pure (whole.within h)) value state
      ↔ Reaches first value state := by
  cases first with
  | error error =>
      constructor <;>
        · rintro ⟨_, impossible⟩
          cases impossible
  | ok extended => exact gives_ok.trans reaches_ok.symm

@[simp]
theorem reaches_unchanged {value value' : α} {state : State} :
    Reaches (s := s) (.ok (.unchanged value s)) value' state ↔ value' = value ∧ state = s :=
  reaches_ok

theorem reaches_bind {first : Outcome β s}
    {next : Parsed β s → Except ParseError (Extended α s)} {value : α} {state : State} :
    Reaches (first >>= next) value state ↔
      ∃ b s₁, ∃ h : Gives first b s₁, Reaches (next ⟨b, s₁, h.remaining_lt⟩) value state := by
  cases first with
  | error error =>
      constructor
      · rintro ⟨_, impossible⟩
        cases impossible
      · rintro ⟨_, _, impossible, _⟩
        exact absurd impossible gives_error
  | ok parsed =>
      constructor
      · intro reaches
        exact ⟨parsed.value, parsed.state, gives_of_eq_ok rfl, reaches⟩
      · rintro ⟨b, s₁, ⟨_, equal⟩, reaches⟩
        cases equal
        exact reaches

/-- A continuation that goes on behind one more node gives what its own
continuation gives. -/
@[simp]
theorem reaches_bind_addExpr {first : Except ParseError (Extended α s₁.addExpr)}
    {h : s₁.remaining < s.remaining} {value : α} {state : State} :
    Reaches (s := s)
        (first >>= fun whole => pure (.ofParsed (@Extended.within α s s₁.addExpr h whole)))
        value state
      ↔ Reaches first value state := by
  cases first with
  | error error =>
      constructor <;>
        · rintro ⟨_, impossible⟩
          cases impossible
  | ok extended =>
      have same : Reaches (s := s) (.ok (.ofParsed (@Extended.within α s s₁.addExpr h extended)))
          value state ↔ value = extended.value ∧ state = extended.state := reaches_ok
      exact same.trans reaches_ok.symm

/-! ## Single tokens and choice -/

theorem nextMark?_of_kind {mark : Mark} (h : s.kind = .mark mark) :
    nextMark? mark s = some ⟨s.span, s.advance, State.remaining_advance_lt_of_mark h⟩ :=
  dif_pos h

theorem nextMark?_of_ne {mark : Mark} (h : s.kind ≠ .mark mark) : nextMark? mark s = none :=
  dif_neg h

theorem nextKeyword?_of_kind {word : Keyword} (h : s.kind = .keyword word) :
    nextKeyword? word s = some ⟨s.span, s.advance, State.remaining_advance_lt_of_keyword h⟩ :=
  dif_pos h

theorem nextKeyword?_of_ne {word : Keyword} (h : s.kind ≠ .keyword word) :
    nextKeyword? word s = none :=
  dif_neg h

theorem expectMark_of_kind {mark : Mark} (h : s.kind = .mark mark) :
    expectMark mark s = .ok ⟨s.span, s.advance, State.remaining_advance_lt_of_mark h⟩ := by
  rw [expectMark, expectMarkAs, nextMark?_of_kind h]

@[simp]
theorem gives_expectMarkAs {mark : Mark} {expected : String} {span : Span} {state : State} :
    Gives (expectMarkAs mark expected s) span state ↔
      s.kind = .mark mark ∧ span = s.span ∧ state = s.advance := by
  unfold expectMarkAs
  by_cases h : s.kind = .mark mark
  · simp [nextMark?_of_kind h, h]
  · simp [nextMark?_of_ne h, h]

@[simp]
theorem gives_expectMark {mark : Mark} {span : Span} {state : State} :
    Gives (expectMark mark s) span state ↔
      s.kind = .mark mark ∧ span = s.span ∧ state = s.advance :=
  gives_expectMarkAs

@[simp]
theorem gives_expectKeyword {word : Keyword} {span : Span} {state : State} :
    Gives (expectKeyword word s) span state ↔
      s.kind = .keyword word ∧ span = s.span ∧ state = s.advance := by
  unfold expectKeyword
  by_cases h : s.kind = .keyword word
  · simp [nextKeyword?_of_kind h, h]
  · simp [nextKeyword?_of_ne h, h]

@[simp]
theorem gives_expectIdent {name : String} {state : State} :
    Gives (expectIdent s) name state ↔ s.kind = .ident name ∧ state = s.advance := by
  unfold expectIdent
  split
  · next found h => simp [h, eq_comm]
  · next other =>
      simp only [gives_error, false_iff, not_and]
      exact fun h => (other name h).elim

@[simp]
theorem gives_orFurther {first : Outcome α s} {second : Unit → Outcome α s} {value : α}
    {state : State} : Gives (orFurther first second) value state ↔
      Gives first value state ∨ Fails first ∧ Gives (second ()) value state := by
  cases first with
  | ok parsed =>
      constructor
      · exact .inl
      · rintro (gives | ⟨fails, _⟩)
        · exact gives
        · exact absurd (gives_of_eq_ok rfl) (fails _ _)
  | error error =>
      have fails : Fails (.error error : Outcome α s) := fun _ _ => gives_error
      simp only [gives_error, fails, true_and, false_or, orFurther]
      cases second () with
      | ok other => rfl
      | error other => simp

end Formulae.Parser
