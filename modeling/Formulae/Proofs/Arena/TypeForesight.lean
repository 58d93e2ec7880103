import Formulae.Proofs.Arena.ExprFollows
import Formulae.Proofs.Arena.Foresight

/-!
# How far reading types and declarations looks ahead

The rules for types, binders and parameters complete no node, and they are written with the states
of reading trees.  Each of them is the same as a row of steps (`Agree`), and for those it is known
how far they look ahead.
-/

namespace Formulae.Build

open Formulae.Parser (Extended Outcome Parsed State)

variable {α β ρ : Type} {a b : Nat} {p p₁ : Place} {s : State}

/-! ## Steps that do the same -/

/-- From this place the two steps do the same, but they may fail at different places. -/
inductive Agree (p : Place) (step other : Build α) : Prop
  | ok {value : α} {p₁ : Place} (ran : step p = .ok value p₁) (ran' : other p = .ok value p₁)
  | error {error : ParseError} {p₁ p₂ : Place} (ran : step p = .error error p₁)
      (grown : p.arena ≤ p₁.arena) (ran' : other p = .error error p₂)

theorem Agree.ok_iff {step other : Build α} {value : α} (agree : Agree p step other) :
    step p = .ok value p₁ ↔ other p = .ok value p₁ := by
  cases agree with
  | ok ran ran' => rw [ran, ran']
  | error ran _ ran' => simp [ran, ran']

theorem Agree.error_iff {step other : Build α} {error : ParseError} (agree : Agree p step other) :
    (∃ p₁, step p = .error error p₁ ∧ p.arena ≤ p₁.arena) ↔ ∃ p₂, other p = .error error p₂ := by
  cases agree with
  | ok ran ran' => simp [ran, ran']
  | error ran grown ran' => simp [ran, ran', grown]

/-- Two steps that follow one rule do the same if a result of the rule stands for one value only
and is stored in one way only. -/
theorem agree_of_follows {view : ρ → α × State} {Stands : α → β → Arena → Prop}
    {outcome : Except ParseError ρ} {step other : Build β}
    (first : Follows view Stands p outcome step) (second : Follows view Stands p outcome other)
    (determined : ∀ {value given given' arena arena'}, Stands value given arena →
      Stands value given' arena' → given = given' ∧ arena = arena') : Agree p step other := by
  cases first with
  | error fails ran grown =>
      cases second with
      | ok gives => cases fails.symm.trans gives
      | error fails' ran' =>
          cases fails.symm.trans fails'
          exact .error ran grown ran'
  | @ok result value p₁ gives ran state grown stands =>
      cases second with
      | error fails => cases fails.symm.trans gives
      | @ok _ value' p₂ gives' ran' state' grown' stands' =>
          cases gives.symm.trans gives'
          obtain ⟨rfl, sameArena⟩ := determined stands stands'
          have same : p₁ = p₂ := by
            have sameCursor := congrArg State.cursor (state.trans state'.symm)
            obtain ⟨cursor, arena⟩ := p₁
            obtain ⟨cursor', arena'⟩ := p₂
            cases sameCursor
            cases sameArena
            rfl
          subst same
          exact .ok ran ran'

/-- A step that does the same as steps within a bound, once the bound is high enough, looks no
further ahead than they do. -/
theorem Decided.of_bounds {step : Build α} {bounded : Nat → Build α}
    (decided : ∀ n, Decided a b p (bounded n))
    (agree : ∀ p', ∃ n, ∀ m, n ≤ m → Agree p' step (bounded m)) : Decided a b p step := by
  intro rising
  obtain ⟨n, enough⟩ := agree p
  cases decided n rising with
  | ok ran grown passes depth _ =>
      have ran' := (enough n (Nat.le_refl _)).ok_iff.mpr ran
      refine .ok ran' grown passes depth fun {x p'} alike near => ?_
      obtain ⟨n', enough'⟩ := agree p'
      have higher := (enough (max n n') (Nat.le_max_left ..)).ok_iff.mp ran'
      obtain ⟨p₁', again, alike₁⟩ := (decided (max n n') rising).again higher alike near
      exact ⟨p₁', (enough' (max n n') (Nat.le_max_right ..)).ok_iff.mpr again, alike₁⟩
  | error ran _ seen _ =>
      obtain ⟨p₁, ran', grown⟩ := (enough n (Nat.le_refl _)).error_iff.mpr ⟨_, ran⟩
      refine .error ran' grown seen fun {x p'} alike near => ?_
      obtain ⟨n', enough'⟩ := agree p'
      obtain ⟨p₂, higher⟩ :=
        (enough (max n n') (Nat.le_max_left ..)).error_iff.mp ⟨_, ran', grown⟩
      obtain ⟨p₁', again, -⟩ := (decided (max n n') rising).failsAgain higher alike near
      exact (enough' (max n n') (Nat.le_max_right ..)).error_iff.mpr ⟨p₁', again⟩

theorem Decided.of_agree {step other : Build α} (decided : Decided a b p other)
    (agree : ∀ p', Agree p' step other) : Decided a b p step :=
  .of_bounds (fun _ => decided) fun p' => ⟨0, fun _ _ => agree p'⟩

/-- Reading by a rule that completes no node does the same as other steps that follow the rule. -/
theorem agree_read {rule : (s : State) → Outcome α s} {steps : Build α}
    (keeps : ∀ {s value s'}, Parser.Gives (rule s) value s' → s'.counts = s.counts)
    (follows : ∀ {s}, p.state = s → Follows Parsed.result (Passes p) p (rule s) steps) :
    Agree p (read rule) steps := by
  refine agree_of_follows (follows_read rfl keeps) (follows rfl) fun stands stands' => ?_
  obtain ⟨rfl, rfl⟩ := stands
  obtain ⟨rfl, rfl⟩ := stands'
  exact ⟨rfl, rfl⟩

theorem remaining_lt_of_read {rule : (s : State) → Outcome α s} {value : α}
    (ran : read rule p = .ok value p₁) : p₁.cursor.remaining < p.cursor.remaining := by
  unfold read at ran
  split at ran
  · next parsed given =>
      cases ran
      exact parsed.shorter
  · cases ran

/-! ## Types -/

/-- A rule that adds no node and may pass no token. -/
def readOn (rule : (s : State) → Extended α s) : Build α :=
  fun p => .ok (rule p.state).value { p with cursor := (rule p.state).state.cursor }

/-- The rule for brackets after a type as steps. -/
def suffixSteps (element : TypeExpr) : Build TypeExpr := do
  let next ← kind
  if next = .mark .leftBracket then
    let second ← nextKind
    if second = .mark .rightBracket then
      advance
      advance
      readOn (Parser.arraySuffix (.array element))
    else
      return element
  else
    return element

/-- The rule for types as steps. -/
def typeSteps : Build TypeExpr := do
  let next ← kind
  match next with
  | .basicType word =>
      advance
      readOn (Parser.arraySuffix (.basic word))
  | .ident name =>
      advance
      readOn (Parser.arraySuffix (.named name))
  | .keyword .functionWord =>
      advance
      let _ ← mark .leftParen
      let params ← read Parser.typeList
      let _ ← mark .arrow
      let ret ← read Parser.typeExpr
      return .function params ret
  | _ => unexpected "type"

/-- The rule for the types of parameters as steps. -/
def typeListSteps : Build (List TypeExpr) := do
  if ← eat (.mark .rightParen) then
    return []
  else
    read Parser.typesFrom

/-- The rule for one and more types as steps. -/
def typesSteps : Build (List TypeExpr) := do
  let first ← read Parser.typeExpr
  if ← eat (.mark .comma) then
    let rest ← read Parser.typesFrom
    return first :: rest
  else
    let _ ← mark .rightParen
    return [first]

theorem kind_advance {c : Cursor} (real : c.kind ≠ .endOfInput) : c.advance.kind = c.nextKind := by
  unfold Cursor.kind Cursor.current at real ⊢
  unfold Cursor.nextKind Cursor.advance
  obtain ⟨passed, ahead, stop⟩ := c
  match ahead with
  | [] => exact absurd rfl real
  | [_] | _ :: _ :: _ => rfl

theorem readOn_arraySuffix (element : TypeExpr) (p : Place) :
    readOn (Parser.arraySuffix element) p = suffixSteps element p := by
  have look : suffixSteps element p =
      (if p.cursor.kind = .mark .leftBracket then
        nextKind >>= fun second =>
          if second = .mark .rightBracket then
            advance >>= fun _ => advance >>= fun _ => readOn (Parser.arraySuffix (.array element))
          else
            pure element
      else pure element : Build TypeExpr) p := rfl
  rw [look]
  by_cases opening : p.cursor.kind = .mark .leftBracket
  · rw [if_pos opening]
    have real : p.cursor.kind ≠ .endOfInput := by simp [opening]
    change _ = (if p.cursor.nextKind = .mark .rightBracket then
      advance >>= fun _ => advance >>= fun _ => readOn (Parser.arraySuffix (.array element))
    else pure element : Build TypeExpr) p
    rw [← kind_advance real]
    by_cases closing : p.cursor.advance.kind = .mark .rightBracket
    · rw [if_pos closing]
      obtain ⟨value, state⟩ :=
        Parser.arraySuffix_of_brackets (s := p.state) element opening closing
      unfold readOn
      rw [value, state]
      rfl
    · rw [if_neg closing]
      unfold readOn
      rw [Parser.arraySuffix_of_stop (s := p.state) element fun _ => closing]
      rfl
  · rw [if_neg opening]
    unfold readOn
    rw [Parser.arraySuffix_of_stop (s := p.state) element fun found => absurd found opening]
    rfl

theorem decided_arraySuffix (element : TypeExpr) (p : Place) :
    Decided 0 0 p (readOn (Parser.arraySuffix element)) := by
  refine Decided.congr ?_ fun p' _ => readOn_arraySuffix element p'
  refine .kind ?_
  by_cases opening : p.cursor.kind = .mark .leftBracket
  · rw [if_pos opening]
    have real : p.cursor.kind ≠ .endOfInput := by simp [opening]
    refine .nextKind ?_
    by_cases closing : p.cursor.nextKind = .mark .rightBracket
    · rw [if_pos closing]
      have second : p.cursor.advance.kind = .mark .rightBracket := (kind_advance real).trans closing
      have real' : p.cursor.advance.kind ≠ .endOfInput := by simp [second]
      have shorter := Cursor.remaining_advance_lt real
      have shorter' := Cursor.remaining_advance_lt real'
      refine .pass (by rw [opening]; rfl) (.pass (by rw [second]; rfl) ?_)
      exact decided_arraySuffix (.array element) ⟨p.cursor.advance.advance, p.arena⟩
    · rw [if_neg closing]
      exact (quiet_pure element).decided
  · rw [if_neg opening]
    exact (quiet_pure element).decided
termination_by p.cursor.remaining

theorem follows_simpleType (type : TypeExpr) (here : p.state = s)
    (h : s.advance.remaining < s.remaining) :
    Follows Parsed.result (Passes p) p (.ok (Parser.simpleType type s h))
      (advance >>= fun _ => readOn (Parser.arraySuffix type)) := by
  subst here
  have counts := Parser.counts_arraySuffix type p.state.advance
  have state : (⟨(Parser.arraySuffix type p.state.advance).state.cursor, p.arena⟩ : Place).state =
      (Parser.arraySuffix type p.state.advance).state :=
    congrArg (fun counts : Nat × Nat => (⟨(Parser.arraySuffix type p.state.advance).state.cursor,
      counts.1, counts.2⟩ : State)) counts.symm
  exact .ok rfl rfl state (Arena.le_refl _) ⟨rfl, rfl⟩

theorem agree_typeExpr (p : Place) : Agree p (read Parser.typeExpr) typeSteps := by
  refine agree_read (Parser.counts_typeExpr _) fun {s} here => ?_
  rw [Parser.typeExpr, typeSteps]
  refine .kind here ?_
  split
  · next word found =>
      simp only [found]
      exact follows_simpleType (.basic word) here _
  · next name found =>
      simp only [found]
      exact follows_simpleType (.named name) here _
  · next found =>
      simp only [found]
      refine .advance ?_
      refine (follows_mark .leftParen (Place.state_advance here)).within.pass
        fun _ s₁ h₁ c₁ here₁ => ?_
      refine (follows_read here₁ (Parser.counts_typeList _)).within.pass
        fun params s₂ h₂ c₂ here₂ => ?_
      refine (follows_mark .arrow here₂).within.pass fun _ s₃ h₃ c₃ here₃ => ?_
      refine (follows_type here₃).within.pass fun ret s₄ h₄ c₄ here₄ => ?_
      exact .ok rfl rfl here₄ (Arena.le_refl _) ⟨rfl, rfl⟩
  · next noWord noName noFunction =>
      split
      · next word found => exact absurd found (noWord word)
      · next name found => exact absurd found (noName name)
      · next found => exact absurd found noFunction
      · exact .error rfl (here ▸ rfl) (Arena.le_refl _)

theorem agree_typeList (p : Place) : Agree p (read Parser.typeList) typeListSteps := by
  refine agree_read (Parser.counts_typeList _) fun {s} here => ?_
  rw [Parser.typeList, typeListSteps]
  by_cases closes : s.kind = .mark .rightParen
  · rw [Parser.nextMark?_of_kind closes]
    exact .eaten here closes (.ok rfl rfl (Place.state_advance here) (Arena.le_refl _) ⟨rfl, rfl⟩)
  · rw [Parser.nextMark?_of_ne closes]
    exact .notEaten here closes (follows_read here (Parser.counts_typesFrom _))

theorem agree_typesFrom (p : Place) : Agree p (read Parser.typesFrom) typesSteps := by
  refine agree_read (Parser.counts_typesFrom _) fun {s} here => ?_
  rw [Parser.typesFrom, typesSteps]
  refine (follows_type here).pass fun first s₁ h₁ c₁ here₁ => ?_
  by_cases comma : s₁.kind = .mark .comma
  · simp only [Parser.nextMark?_of_kind comma]
    refine .eaten here₁ comma ?_
    refine (follows_read (Place.state_advance here₁)
      (Parser.counts_typesFrom _)).within.within.pass fun rest s₂ h₂ c₂ here₂ => ?_
    exact .ok rfl rfl here₂ (Arena.le_refl _) ⟨rfl, rfl⟩
  · simp only [Parser.nextMark?_of_ne comma]
    refine .notEaten here₁ comma ?_
    refine (follows_mark .rightParen here₁).within.pass fun _ s₂ h₂ c₂ here₂ => ?_
    exact .ok rfl rfl here₂ (Arena.le_refl _) ⟨rfl, rfl⟩

/-- The rules for types look no further than one token ahead. -/
theorem decided_types (p : Place) : Decided 0 0 p (read Parser.typeExpr) ∧
    Decided 0 0 p (read Parser.typesFrom) ∧ Decided 0 0 p (read Parser.typeList) := by
  have smaller (p' : Place) (shorter : p'.cursor.remaining < p.cursor.remaining) := decided_types p'
  have type : Decided 0 0 p (read Parser.typeExpr) := by
    refine Decided.of_agree ?_ agree_typeExpr
    refine .kind ?_
    split
    · next word found =>
        refine .pass (by rw [found]; rfl) ?_
        exact decided_arraySuffix (.basic word) _
    · next name found =>
        refine .pass (by rw [found]; rfl) ?_
        exact decided_arraySuffix (.named name) _
    · next found =>
        have real : p.cursor.kind ≠ .endOfInput := by simp [found]
        have shorter := Cursor.remaining_advance_lt real
        refine .pass (by rw [found]; rfl) ?_
        refine (decided_mark rfl).bind fun _ p₁ ran₁ => ?_
        have shorter₁ := Nat.lt_trans (remaining_lt_of_read ran₁) shorter
        refine (smaller p₁ shorter₁).2.2.bind fun params p₂ ran₂ => ?_
        have shorter₂ := Nat.lt_trans (remaining_lt_of_read ran₂) shorter₁
        refine (decided_mark rfl).bind fun _ p₃ ran₃ => ?_
        have shorter₃ := Nat.lt_trans (remaining_lt_of_read ran₃) shorter₂
        exact (smaller p₃ shorter₃).1.thenQuiet fun _ => quiet_pure _
    · exact decided_unexpected "type"
  have types : Decided 0 0 p (read Parser.typesFrom) := by
    refine Decided.of_agree ?_ agree_typesFrom
    refine type.bind fun first p₁ ran₁ => .eat (fun comma => ?_) fun _ => ?_
    · have shorter₁ := remaining_lt_of_read ran₁
      have real : p₁.cursor.kind ≠ .endOfInput := by simp [comma]
      have shorter := Nat.lt_trans (Cursor.remaining_advance_lt real) shorter₁
      refine .pass (by rw [comma]; rfl) ?_
      exact (smaller ⟨p₁.cursor.advance, p₁.arena⟩ shorter).2.1.thenQuiet fun _ => quiet_pure _
    · exact (decided_mark rfl).thenQuiet fun _ => quiet_pure _
  refine ⟨type, types, Decided.of_agree ?_ agree_typeList⟩
  refine .eat (fun closes => ?_) fun _ => types
  refine .pass (by rw [closes]; rfl) ?_
  exact (quiet_pure _).decided
termination_by p.cursor.remaining

theorem decided_typeExpr : Decided 0 0 p (read Parser.typeExpr) :=
  (decided_types p).1

/-! ## Declarations -/

/-- What a binder says behind the word for variables that may change. -/
def namedSteps (mutable : Bool) : Build Binder := do
  if ← eat (.keyword .varWord) then
    let name ← read Parser.expectIdent
    return ⟨mutable, none, name⟩
  else
    let written ← read Parser.typeExpr
    let name ← read Parser.expectIdent
    return ⟨mutable, some written, name⟩

/-- The rule for binders as steps. -/
def binderSteps : Build Binder := do
  let mutable ← eat (.keyword .mutWord)
  namedSteps mutable

/-- The rule for a parameter as steps. -/
def paramSteps : Build Param := do
  let start ← span
  let mutable ← eat (.keyword .mutWord)
  let written ← read Parser.typeExpr
  let name ← read Parser.expectIdent
  let whole ← spanFrom start
  return ⟨mutable, written, name, whole⟩

/-- The rule for one and more parameters as steps. -/
def paramsFromSteps : Build (List Param) := do
  let first ← read Parser.param
  if ← eat (.mark .comma) then
    let rest ← read Parser.paramsFrom
    return first :: rest
  else
    let _ ← mark .rightParen
    return [first]

/-- The rule for the parameters of a function as steps. -/
def paramsSteps : Build (List Param) := do
  if ← eat (.mark .rightParen) then
    return []
  else
    read Parser.paramsFrom

theorem follows_named (mutable : Bool) {c : Cursor} {s₁ : State}
    (here : (⟨c, p.arena⟩ : Place).state = s₁) (h : s₁.remaining ≤ s.remaining) :
    Follows Parsed.result (Passes p) ⟨c, p.arena⟩
      (if let some ⟨_, s₂, h₂⟩ := Parser.nextKeyword? .varWord s₁ then do
        let ⟨name, s₃, h₃⟩ ← (Parser.expectIdent s₂).within h₂
        return .weaken h ⟨⟨mutable, none, name⟩, s₃, h₃⟩
      else do
        let ⟨written, s₂, h₂⟩ ← Parser.typeExpr s₁
        let ⟨name, s₃, h₃⟩ ← (Parser.expectIdent s₂).within h₂
        return .weaken h ⟨⟨mutable, some written, name⟩, s₃, h₃⟩ : Outcome Binder s)
      (namedSteps mutable) := by
  rw [namedSteps]
  by_cases isVar : s₁.kind = .keyword .varWord
  · simp only [Parser.nextKeyword?_of_kind isVar]
    refine .eaten here isVar ?_
    refine (follows_ident (Place.state_advance here)).within.pass fun name s₃ h₃ c₃ here₃ => ?_
    exact .ok rfl rfl here₃ (Arena.le_refl _) ⟨rfl, rfl⟩
  · simp only [Parser.nextKeyword?_of_ne isVar]
    refine .notEaten here isVar ?_
    refine (follows_type here).pass fun written s₂ h₂ c₂ here₂ => ?_
    refine (follows_ident here₂).within.pass fun name s₃ h₃ c₃ here₃ => ?_
    exact .ok rfl rfl here₃ (Arena.le_refl _) ⟨rfl, rfl⟩

theorem agree_binder (p : Place) : Agree p (read Parser.binder) binderSteps := by
  refine agree_read Parser.counts_binder fun {s} here => ?_
  rw [Parser.binder, binderSteps, Parser.eatKeyword]
  by_cases isMut : s.kind = .keyword .mutWord
  · rw [Parser.nextKeyword?_of_kind isMut]
    exact .eaten here isMut (follows_named true (Place.state_advance here) _)
  · rw [Parser.nextKeyword?_of_ne isMut]
    exact .notEaten here isMut (follows_named false here _)

theorem follows_paramNamed (mutable : Bool) (start : Span) {c : Cursor} {s₁ : State}
    (here : (⟨c, p.arena⟩ : Place).state = s₁) (h : s₁.remaining ≤ s.remaining) :
    Follows Parsed.result (Passes p) ⟨c, p.arena⟩
      (do
        let ⟨written, s₂, h₂⟩ ← Parser.typeExpr s₁
        let ⟨name, s₃, h₃⟩ ← (Parser.expectIdent s₂).within h₂
        return .weaken h ⟨⟨mutable, written, name, s₃.spanFrom start⟩, s₃, h₃⟩ : Outcome Param s)
      (do
        let written ← read Parser.typeExpr
        let name ← read Parser.expectIdent
        let whole ← spanFrom start
        return ⟨mutable, written, name, whole⟩) := by
  refine (follows_type here).pass fun written s₂ h₂ c₂ here₂ => ?_
  refine (follows_ident here₂).within.pass fun name s₃ h₃ c₃ here₃ => ?_
  refine .spanFrom here₃ ?_
  exact .ok rfl rfl here₃ (Arena.le_refl _) ⟨rfl, rfl⟩

theorem agree_param (p : Place) : Agree p (read Parser.param) paramSteps := by
  refine agree_read Parser.counts_param fun {s} here => ?_
  rw [Parser.param, paramSteps, Parser.eatKeyword]
  refine .span here ?_
  by_cases isMut : s.kind = .keyword .mutWord
  · rw [Parser.nextKeyword?_of_kind isMut]
    exact .eaten here isMut (follows_paramNamed true s.span (Place.state_advance here) _)
  · rw [Parser.nextKeyword?_of_ne isMut]
    exact .notEaten here isMut (follows_paramNamed false s.span here _)

theorem agree_paramsFrom (p : Place) : Agree p (read Parser.paramsFrom) paramsFromSteps := by
  refine agree_read (Parser.counts_paramsFrom _) fun {s} here => ?_
  rw [Parser.paramsFrom, paramsFromSteps]
  refine (follows_read here Parser.counts_param).pass fun first s₁ h₁ c₁ here₁ => ?_
  by_cases comma : s₁.kind = .mark .comma
  · simp only [Parser.nextMark?_of_kind comma]
    refine .eaten here₁ comma ?_
    refine (follows_read (Place.state_advance here₁)
      (Parser.counts_paramsFrom _)).within.within.pass fun rest s₂ h₂ c₂ here₂ => ?_
    exact .ok rfl rfl here₂ (Arena.le_refl _) ⟨rfl, rfl⟩
  · simp only [Parser.nextMark?_of_ne comma]
    refine .notEaten here₁ comma ?_
    refine (follows_mark .rightParen here₁).within.pass fun _ s₂ h₂ c₂ here₂ => ?_
    exact .ok rfl rfl here₂ (Arena.le_refl _) ⟨rfl, rfl⟩

theorem agree_params (p : Place) : Agree p (read Parser.params) paramsSteps := by
  refine agree_read Parser.counts_params fun {s} here => ?_
  rw [Parser.params, paramsSteps]
  by_cases closes : s.kind = .mark .rightParen
  · rw [Parser.nextMark?_of_kind closes]
    exact .eaten here closes (.ok rfl rfl (Place.state_advance here) (Arena.le_refl _) ⟨rfl, rfl⟩)
  · rw [Parser.nextMark?_of_ne closes]
    exact .notEaten here closes (follows_read here (Parser.counts_paramsFrom _))

/-- A word that has been looked at is passed, or not, and reading goes on in the same way. -/
theorem Decided.eatKeyword {word : Keyword} {next : Bool → Build α}
    (rest : ∀ eaten p₁, Decided 0 0 p₁ (next eaten)) :
    Decided 0 0 p (Build.eat (.keyword word) >>= next) := by
  refine .eat (fun found => ?_) fun _ => rest false p
  refine .pass (by rw [found]; rfl) ?_
  exact rest true _

theorem decided_binder : Decided 0 0 p (read Parser.binder) := by
  refine Decided.of_agree ?_ agree_binder
  refine .eatKeyword fun mutable p₁ => .eatKeyword fun isVar p₂ => ?_
  cases isVar with
  | true => exact decided_ident.thenQuiet fun _ => quiet_pure _
  | false =>
      exact decided_typeExpr.andThen fun _ _ => decided_ident.thenQuiet fun _ => quiet_pure _

theorem decided_param : Decided 0 0 p (read Parser.param) := by
  refine Decided.of_agree ?_ agree_param
  refine .span (.eatKeyword fun mutable p₁ => decided_typeExpr.andThen fun _ _ => ?_)
  exact decided_ident.thenQuiet fun _ => (quiet_spanFrom _).bind fun _ => quiet_pure _

theorem decided_paramsFrom (p : Place) : Decided 0 0 p (read Parser.paramsFrom) := by
  refine Decided.of_agree ?_ agree_paramsFrom
  refine decided_param.bind fun first p₁ ran₁ => .eat (fun comma => ?_) fun _ => ?_
  · have shorter₁ := remaining_lt_of_read ran₁
    have real : p₁.cursor.kind ≠ .endOfInput := by simp [comma]
    have shorter := Nat.lt_trans (Cursor.remaining_advance_lt real) shorter₁
    refine .pass (by rw [comma]; rfl) ?_
    exact (decided_paramsFrom ⟨p₁.cursor.advance, p₁.arena⟩).thenQuiet fun _ => quiet_pure _
  · exact (decided_mark rfl).thenQuiet fun _ => quiet_pure _
termination_by p.cursor.remaining

theorem decided_params : Decided 0 0 p (read Parser.params) := by
  refine Decided.of_agree ?_ agree_params
  refine .eat (fun closes => ?_) fun _ => decided_paramsFrom p
  refine .pass (by rw [closes]; rfl) ?_
  exact (quiet_pure _).decided

end Formulae.Build
