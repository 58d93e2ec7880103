import Formulae.Proofs.Arena.Follows
import Formulae.Proofs.Parser.ExprSpelled

/-!
# How far reading looks ahead

A step of reading that ends at a token has looked at this token and the one behind it, and at
nothing further on: before other tokens that are the same so far it does the same (`Decided`).
That carries over to steps in a row, and to a choice if every form that is given up fails no
further on than where the form that is taken ends.  The latter depends on which braces belong
together, so those are counted on the way.
-/

namespace Formulae

/-! ## Tokens ahead -/

namespace Token

/-- The two lists agree on the tokens that start up to `x`, and on one more. -/
def Shared (x : Nat) : List Token → List Token → Prop
  | [], [] => True
  | token :: rest, token' :: rest' => token' = token ∧ (token.span.start ≤ x → Shared x rest rest')
  | _, _ => False

/-- How many braces are open behind a token of this kind if `depth` of them are open before it;
nothing if it closes one and none is open, or if it is the end of the input, which is not passed. -/
def Kind.depth (depth : Nat) : Kind → Option Nat
  | .mark .leftBrace => some (depth + 1)
  | .mark .rightBrace => if depth = 0 then none else some (depth - 1)
  | .endOfInput => none
  | _ => some depth

/-- How many braces are open behind the tokens if `depth` of them are open before. -/
def depthAfter (depth : Nat) (tokens : List Token) : Option Nat :=
  tokens.foldlM (fun depth token => token.kind.depth depth) depth

theorem depthAfter_cons (depth : Nat) (token : Token) (rest : List Token) :
    depthAfter depth (token :: rest) = (token.kind.depth depth).bind (depthAfter · rest) :=
  rfl

theorem depthAfter_append (depth : Nat) (tokens more : List Token) :
    depthAfter depth (tokens ++ more) = (depthAfter depth tokens).bind (depthAfter · more) :=
  List.foldlM_append

theorem Kind.depth_lift {kind : Kind} {a b : Nat} (h : kind.depth a = some b) (k : Nat) :
    kind.depth (a + k) = some (b + k) := by
  unfold depth at h ⊢
  grind

theorem Kind.ne_endOfInput_of_depth {kind : Kind} {a b : Nat} (h : kind.depth a = some b) :
    kind ≠ .endOfInput := by
  rintro rfl
  cases h

/-- Braces that are open all the way through do not matter. -/
theorem depthAfter_lift {tokens : List Token} {a b : Nat} (h : depthAfter a tokens = some b)
    (k : Nat) : depthAfter (a + k) tokens = some (b + k) := by
  induction tokens generalizing a with
  | nil =>
      cases h
      rfl
  | cons token rest inductionHypothesis =>
      rw [depthAfter_cons] at h ⊢
      obtain ⟨c, first, others⟩ := Option.bind_eq_some_iff.mp h
      rw [Kind.depth_lift first k]
      exact inductionHypothesis others

end Token

namespace Cursor

variable {c c' : Cursor} {tokens : List Token}

/-- The tokens ahead, the end of the input last. -/
def upcoming (c : Cursor) : List Token :=
  c.ahead ++ [⟨.endOfInput, Span.point c.stop⟩]

theorem upcoming_eq_cons (c : Cursor) : c.upcoming = c.current :: c.upcoming.tail := by
  unfold upcoming current
  cases c.ahead <;> rfl

theorem upcoming_of_real (real : c.kind ≠ .endOfInput) :
    c.upcoming = c.current :: c.advance.upcoming := by
  unfold kind current at real
  unfold upcoming current advance
  cases ahead : c.ahead with
  | nil => simp [ahead] at real
  | cons token rest => rfl

theorem nextKind_eq_of_tail (same : c'.upcoming.tail.head? = c.upcoming.tail.head?) :
    c'.nextKind = c.nextKind := by
  have second (c : Cursor) :
      c.nextKind = (c.upcoming.tail.head?.map Token.kind).getD .endOfInput := by
    unfold nextKind upcoming
    obtain ⟨passed, ahead, stop⟩ := c
    match ahead with
    | [] | [_] | _ :: _ :: _ => rfl
  rw [second, second, same]

/-- Every token ahead starts behind the start of the one before it. -/
def Rising (c : Cursor) : Prop :=
  c.upcoming.Pairwise fun one other => one.span.start < other.span.start

theorem Passes.upcoming (passes : c.Passes tokens c') : c.upcoming = tokens ++ c'.upcoming := by
  unfold Cursor.upcoming
  rw [passes.ahead, passes.stop, List.append_assoc]

/-- More tokens that are passed from the same place are passed from where the first ones end. -/
theorem Passes.rest {more : List Token} {c₁ : Cursor} (first : c.Passes tokens c₁)
    (whole : c.Passes (tokens ++ more) c') : c₁.Passes more c' := by
  constructor
  · have ahead := first.ahead.symm.trans whole.ahead
    rw [List.append_assoc] at ahead
    exact List.append_cancel_left ahead
  · rw [whole.passed, first.passed, List.reverse_append, List.append_assoc]
  · rw [whole.stop, first.stop]

theorem Rising.of_passes (rising : c.Rising) (passes : c.Passes tokens c') : c'.Rising := by
  unfold Rising at rising
  rw [passes.upcoming] at rising
  exact (List.pairwise_append.mp rising).2.1

theorem Rising.start_le (rising : c.Rising) (passes : c.Passes tokens c') :
    c.span.start ≤ c'.span.start := by
  have ahead := passes.upcoming
  rw [upcoming_eq_cons c, upcoming_eq_cons c'] at ahead
  cases tokens with
  | nil =>
      have same : c.current = c'.current := (List.cons.inj ahead).1
      rw [span, span, same]
  | cons token rest =>
      have same : c.current = token := (List.cons.inj ahead).1
      unfold Rising at rising
      rw [passes.upcoming, upcoming_eq_cons c'] at rising
      have before := (List.pairwise_append.mp rising).2.2 token List.mem_cons_self
        c'.current List.mem_cons_self
      rw [span, same]
      exact Nat.le_of_lt before

end Cursor

/-! ## Two places -/

/-- The two places have the same behind them, and the same tokens ahead that start up to `x`, and
one more. -/
structure Place.Alike (x : Nat) (p p' : Place) : Prop where
  arena : p'.arena = p.arena
  passed : p'.cursor.passed = p.cursor.passed
  upcoming : Token.Shared x p.cursor.upcoming p'.cursor.upcoming

namespace Place.Alike

variable {x : Nat} {p p' : Place}

theorem current (alike : p.Alike x p') : p'.cursor.current = p.cursor.current := by
  have shared := alike.upcoming
  rw [p.cursor.upcoming_eq_cons, p'.cursor.upcoming_eq_cons] at shared
  exact shared.1

theorem tail (alike : p.Alike x p') (near : p.cursor.span.start ≤ x) :
    Token.Shared x p.cursor.upcoming.tail p'.cursor.upcoming.tail := by
  have shared := alike.upcoming
  rw [p.cursor.upcoming_eq_cons, p'.cursor.upcoming_eq_cons] at shared
  exact shared.2 near

theorem nextKind (alike : p.Alike x p') (near : p.cursor.span.start ≤ x) :
    p'.cursor.nextKind = p.cursor.nextKind := by
  have shared := alike.tail near
  apply Cursor.nextKind_eq_of_tail
  cases rest : p.cursor.upcoming.tail with
  | nil => cases rest' : p'.cursor.upcoming.tail <;> simp_all [Token.Shared]
  | cons token more =>
      cases rest' : p'.cursor.upcoming.tail with
      | nil => simp_all [Token.Shared]
      | cons token' more' =>
          rw [rest, rest'] at shared
          exact congrArg some shared.1

theorem advance (alike : p.Alike x p') (near : p.cursor.span.start ≤ x)
    (real : p.cursor.kind ≠ .endOfInput) :
    (⟨p.cursor.advance, p.arena⟩ : Place).Alike x ⟨p'.cursor.advance, p'.arena⟩ := by
  have real' : p'.cursor.kind ≠ .endOfInput := by
    rw [Cursor.kind, alike.current]
    exact real
  constructor
  · exact alike.arena
  · rw [(Cursor.Passes.one real').passed, (Cursor.Passes.one real).passed, alike.passed,
      alike.current]
  · have shared := alike.upcoming
    rw [Cursor.upcoming_of_real real, Cursor.upcoming_of_real real'] at shared
    exact shared.2 near

end Place.Alike

/-- Of two errors the one that is reported lies no nearer than either. -/
theorem ParseError.position_le_further (one other : ParseError) :
    one.position ≤ (one.further other).position ∧
      other.position ≤ (one.further other).position := by
  unfold ParseError.further
  split <;> omega

namespace Build

variable {α β : Type} {a b c k x : Nat} {p p₁ : Place}

/-! ## Steps that are decided -/

/-- The error speaks of a token that is reached from the place, and on the way there no brace is
closed but those that are opened there. -/
def Seen (p : Place) (error : ParseError) : Prop :=
  ∃ tokens c, p.cursor.Passes tokens c ∧ error.found = c.current ∧
    ∃ depth, Token.depthAfter 0 tokens = some depth

/-- The step does the same wherever the tokens are the same as here up to the one where it ends,
and one more.  Of `a` open braces it leaves `b`; if it fails, it has not closed any of those. -/
inductive Settled (a b : Nat) (p : Place) (step : Build α) : Prop
  | ok {value : α} {p₁ : Place} {tokens : List Token} (ran : step p = .ok value p₁)
      (grown : p.arena ≤ p₁.arena) (passes : p.cursor.Passes tokens p₁.cursor)
      (depth : Token.depthAfter a tokens = some b)
      (same : ∀ {x p'}, p.Alike x p' → p₁.cursor.span.start ≤ x →
        ∃ p₁', step p' = .ok value p₁' ∧ p₁.Alike x p₁')
  | error {error : ParseError} {p₁ : Place} (ran : step p = .error error p₁)
      (grown : p.arena ≤ p₁.arena) (seen : Seen p error)
      (same : ∀ {x p'}, p.Alike x p' → error.position ≤ x →
        ∃ p₁', step p' = .error error p₁' ∧ p'.arena ≤ p₁'.arena)

/-- Where tokens stand in order, the step is settled. -/
def Decided (a b : Nat) (p : Place) (step : Build α) : Prop :=
  p.cursor.Rising → Settled a b p step

theorem Settled.again {step : Build α} {value : α} {p' : Place} (settled : Settled a b p step)
    (ran : step p = .ok value p₁) (alike : p.Alike x p') (near : p₁.cursor.span.start ≤ x) :
    ∃ p₁', step p' = .ok value p₁' ∧ p₁.Alike x p₁' := by
  cases settled with
  | error impossible => cases ran.symm.trans impossible
  | ok ran' _ _ _ again =>
      cases ran.symm.trans ran'
      exact again alike near

theorem Settled.failsAgain {step : Build α} {error : ParseError} {p' : Place}
    (settled : Settled a b p step) (ran : step p = .error error p₁) (alike : p.Alike x p')
    (near : error.position ≤ x) : ∃ p₁', step p' = .error error p₁' ∧ p'.arena ≤ p₁'.arena := by
  cases settled with
  | ok impossible => cases ran.symm.trans impossible
  | error ran' _ _ again =>
      cases ran.symm.trans ran'
      exact again alike near

theorem Seen.here (p : Place) (expected : String) : Seen p (p.cursor.unexpected expected) :=
  ⟨[], p.cursor, .refl _, rfl, 0, rfl⟩

theorem Seen.start_le {error : ParseError} (seen : Seen p error) (rising : p.cursor.Rising) :
    p.cursor.span.start ≤ error.position := by
  obtain ⟨tokens, c, passes, found, -⟩ := seen
  rw [ParseError.position, found]
  exact rising.start_le passes

theorem Seen.further {one other : ParseError} (seen : Seen p one) (seen' : Seen p other) :
    Seen p (one.further other) := by
  unfold ParseError.further
  split
  · exact seen'
  · exact seen

/-! ## Single steps -/

/-- A look at the next token decides what the step is. -/
theorem Decided.congr {step other : Build α} (decided : Decided a b p other)
    (same : ∀ p', p'.cursor.current = p.cursor.current → step p' = other p') :
    Decided a b p step := by
  intro rising
  cases decided rising with
  | ok ran grown passes depth again =>
      refine .ok ((same p rfl).trans ran) grown passes depth fun alike near => ?_
      rw [same _ alike.current]
      exact again alike near
  | error ran grown seen again =>
      refine .error ((same p rfl).trans ran) grown seen fun alike near => ?_
      rw [same _ alike.current]
      exact again alike near

/-- Passing a token. -/
theorem decided_token {step : Build α} (value : α) (depth : p.cursor.kind.depth a = some b)
    (ran : ∀ p', p'.cursor.current = p.cursor.current →
      step p' = .ok value ⟨p'.cursor.advance, p'.arena⟩) : Decided a b p step := by
  intro rising
  have real := Token.Kind.ne_endOfInput_of_depth depth
  have passes := Cursor.Passes.one real
  have depthAfter : Token.depthAfter a [p.cursor.current] = some b := by
    rw [Token.depthAfter_cons]
    change (p.cursor.kind.depth a).bind _ = _
    rw [depth]
    rfl
  refine .ok (ran p rfl) (Arena.le_refl _) passes depthAfter fun alike near => ?_
  have before := Nat.le_trans (rising.start_le passes) near
  exact ⟨_, ran _ alike.current, alike.advance before real⟩

/-- Finding the wrong token. -/
theorem decided_stuck {step : Build α} (expected : String)
    (ran : ∀ p', p'.cursor.current = p.cursor.current →
      step p' = .error (p'.cursor.unexpected expected) p') : Decided a b p step := by
  intro _
  refine .error (ran p rfl) (Arena.le_refl _) (.here p expected) fun {x p'} alike _ => ?_
  have sameError : p'.cursor.unexpected expected = p.cursor.unexpected expected := by
    rw [Cursor.unexpected, Cursor.unexpected, alike.current]
  refine ⟨p', ?_, Arena.le_refl _⟩
  rw [ran p' alike.current, sameError]

theorem decided_unexpected (expected : String) :
    Decided a b p (unexpected expected : Build α) :=
  decided_stuck expected fun _ _ => rfl

theorem decided_advance (depth : p.cursor.kind.depth a = some b) : Decided a b p advance :=
  decided_token () depth fun _ _ => rfl

theorem kind_of_current {p' : Place} (same : p'.cursor.current = p.cursor.current) :
    p'.cursor.kind = p.cursor.kind :=
  congrArg Token.kind same

theorem span_of_current {p' : Place} (same : p'.cursor.current = p.cursor.current) :
    p.cursor.span = p'.cursor.span :=
  (congrArg Token.span same).symm

theorem expectMarkAs_of_kind {mark : Mark} {expected : String}
    (found : p.cursor.kind = .mark mark) : read (Parser.expectMarkAs mark expected) p =
      .ok p.cursor.span ⟨p.cursor.advance, p.arena⟩ := by
  rw [read, Parser.expectMarkAs, Parser.nextMark?_of_kind (s := p.state) found]
  rfl

theorem expectMarkAs_of_ne {mark : Mark} {expected : String}
    (other : p.cursor.kind ≠ .mark mark) : read (Parser.expectMarkAs mark expected) p =
      .error (p.cursor.unexpected expected) p := by
  rw [read, Parser.expectMarkAs, Parser.nextMark?_of_ne (s := p.state) other]
  rfl

theorem mark_of_kind {mark : Mark} (found : p.cursor.kind = .mark mark) :
    Build.mark mark p = .ok p.cursor.span ⟨p.cursor.advance, p.arena⟩ :=
  expectMarkAs_of_kind found

theorem mark_of_ne {mark : Mark} (other : p.cursor.kind ≠ .mark mark) :
    Build.mark mark p = .error (p.cursor.unexpected (Token.Kind.mark mark).displayName) p :=
  expectMarkAs_of_ne other

theorem keyword_of_kind {word : Keyword} (found : p.cursor.kind = .keyword word) :
    keyword word p = .ok p.cursor.span ⟨p.cursor.advance, p.arena⟩ := by
  rw [keyword, read, Parser.expectKeyword, Parser.nextKeyword?_of_kind (s := p.state) found]
  rfl

theorem keyword_of_ne {word : Keyword} (other : p.cursor.kind ≠ .keyword word) :
    keyword word p = .error (p.cursor.unexpected word.word) p := by
  rw [keyword, read, Parser.expectKeyword, Parser.nextKeyword?_of_ne (s := p.state) other]
  rfl

theorem ident_of_kind {name : String} (found : p.cursor.kind = .ident name) :
    read Parser.expectIdent p = .ok name ⟨p.cursor.advance, p.arena⟩ := by
  obtain ⟨_, given⟩ := (Parser.gives_expectIdent (s := p.state)).mpr ⟨found, rfl⟩
  rw [read, given]
  rfl

theorem ident_of_ne (other : ∀ name, p.cursor.kind ≠ .ident name) :
    read Parser.expectIdent p = .error (p.cursor.unexpected "identifier") p := by
  rw [read, Parser.expectIdent]
  split
  · next parsed given =>
      split at given
      · next name found => exact absurd found (other name)
      · cases given
  · next error given =>
      split at given
      · cases given
      · cases given
        rfl

theorem eat_of_kind {kind : Token.Kind} (found : p.cursor.kind = kind) :
    eat kind p = .ok true ⟨p.cursor.advance, p.arena⟩ := by
  have eaten : p.cursor.eat kind = (true, p.cursor.advance) := if_pos (decide_eq_true found)
  rw [eat, eaten]

theorem eat_of_ne {kind : Token.Kind} (other : p.cursor.kind ≠ kind) :
    eat kind p = .ok false p := by
  have left : p.cursor.eat kind = (false, p.cursor) :=
    if_neg fun found => other (of_decide_eq_true found)
  rw [eat, left]

theorem decided_expectMarkAs {mark : Mark} {expected : String}
    (depth : (Token.Kind.mark mark).depth a = some b) :
    Decided a b p (read (Parser.expectMarkAs mark expected)) := by
  by_cases found : p.cursor.kind = .mark mark
  · refine decided_token p.cursor.span (by rw [found]; exact depth)
      fun p' same => ?_
    rw [expectMarkAs_of_kind ((kind_of_current same).trans found), span_of_current same]
  · refine decided_stuck expected fun p' same => expectMarkAs_of_ne fun found' => ?_
    exact found ((kind_of_current same).symm.trans found')

theorem decided_mark {mark : Mark} (depth : (Token.Kind.mark mark).depth a = some b) :
    Decided a b p (Build.mark mark) :=
  decided_expectMarkAs depth

theorem decided_keyword (word : Keyword) : Decided a a p (keyword word) := by
  by_cases found : p.cursor.kind = .keyword word
  · refine decided_token p.cursor.span (by rw [found]; rfl)
      fun p' same => ?_
    rw [keyword_of_kind ((kind_of_current same).trans found), span_of_current same]
  · refine decided_stuck word.word fun p' same => keyword_of_ne fun found' => ?_
    exact found ((kind_of_current same).symm.trans found')

theorem decided_ident : Decided a a p (read Parser.expectIdent) := by
  by_cases isName : ∃ name, p.cursor.kind = .ident name
  · obtain ⟨name, found⟩ := isName
    exact decided_token name (by rw [found]; rfl) fun p' same =>
      ident_of_kind ((kind_of_current same).trans found)
  · exact decided_stuck "identifier" fun p' same => ident_of_ne fun name found =>
      isName ⟨name, (kind_of_current same).symm.trans found⟩

/-! ## Steps in a row -/

theorem bind_eq_ok_iff {step : Build α} {next : α → Build β} {value : β} {p₂ : Place} :
    (step >>= next) p = .ok value p₂ ↔
      ∃ first p₁, step p = .ok first p₁ ∧ next first p₁ = .ok value p₂ := by
  cases ran : step p with
  | ok first p₁ => simp [bind_of_ok ran]
  | error error p₁ => simp [bind_of_error ran]

/-- What goes on like another step where the first step ends. -/
theorem Settled.after {step : Build α} {next whole : Build β} {value : α} {tokens : List Token}
    (rising : p.cursor.Rising) (ran : step p = .ok value p₁) (grown : p.arena ≤ p₁.arena)
    (passes : p.cursor.Passes tokens p₁.cursor) (depth : Token.depthAfter 0 tokens = some c)
    (again : ∀ {x p'}, p.Alike x p' → p₁.cursor.span.start ≤ x →
      ∃ p₁', step p' = .ok value p₁' ∧ p₁.Alike x p₁')
    (rest : Settled (c + k) b p₁ next)
    (run : ∀ {p' p₁'}, step p' = .ok value p₁' → whole p' = next p₁') : Settled k b p whole := by
  have rising₁ := rising.of_passes passes
  cases rest with
  | @ok _ p₂ more ran₂ grown₂ passes₂ depth₂ again₂ =>
      have depths : Token.depthAfter k (tokens ++ more) = some b := by
        have lifted := Token.depthAfter_lift depth k
        rw [Nat.zero_add] at lifted
        rw [Token.depthAfter_append, lifted]
        exact depth₂
      refine .ok ((run ran).trans ran₂) (Arena.le_trans grown grown₂) (passes.append passes₂)
        depths fun alike near => ?_
      obtain ⟨p₁', ran', alike₁⟩ := again alike (Nat.le_trans (rising₁.start_le passes₂) near)
      rw [run ran']
      exact again₂ alike₁ near
  | @error error _ ran₂ grown₂ seen₂ again₂ =>
      obtain ⟨more, c', passes₂, found, d, depth₂⟩ := id seen₂
      have depths : Token.depthAfter 0 (tokens ++ more) = some (d + c) := by
        rw [Token.depthAfter_append, depth]
        simpa using Token.depthAfter_lift depth₂ c
      refine .error ((run ran).trans ran₂) (Arena.le_trans grown grown₂)
        ⟨tokens ++ more, c', passes.append passes₂, found, _, depths⟩ fun {x p'} alike near => ?_
      obtain ⟨p₁', ran', alike₁⟩ := again alike (Nat.le_trans (seen₂.start_le rising₁) near)
      obtain ⟨p₂', ran₂', grown₂'⟩ := again₂ alike₁ near
      refine ⟨p₂', (run ran').trans ran₂', ?_⟩
      have grown' : p'.arena ≤ p₁'.arena := by
        rw [alike.arena, alike₁.arena]
        exact grown
      exact Arena.le_trans grown' grown₂'

/-- The first step starts with no brace open but those `k` that it has nothing to do with. -/
theorem Decided.bind {step : Build α} {next : α → Build β} (first : Decided 0 c p step)
    (rest : ∀ value p₁, step p = .ok value p₁ → Decided (c + k) b p₁ (next value)) :
    Decided k b p (step >>= next) := by
  intro rising
  cases first rising with
  | error ran grown seen again =>
      refine .error (bind_of_error ran) grown seen fun alike near => ?_
      obtain ⟨p₁', ran', grown'⟩ := again alike near
      exact ⟨p₁', bind_of_error ran', grown'⟩
  | ok ran grown passes depth again =>
      exact .after rising ran grown passes depth again
        (rest _ _ ran (rising.of_passes passes)) bind_of_ok

/-- The first step closes all braces that it opens. -/
theorem Decided.andThen {step : Build α} {next : α → Build β} (first : Decided 0 0 p step)
    (rest : ∀ value p₁, Decided k b p₁ (next value)) : Decided k b p (step >>= next) :=
  first.bind fun value p₁ _ => (Nat.zero_add k).symm ▸ rest value p₁

/-- A look at the kind of the next token. -/
theorem Decided.kind {next : Token.Kind → Build α} (rest : Decided a b p (next p.cursor.kind)) :
    Decided a b p (Build.kind >>= next) := by
  refine rest.congr fun p' same => ?_
  change next p'.cursor.kind p' = _
  rw [kind_of_current same]

/-- A look at the span of the next token. -/
theorem Decided.span {next : Span → Build α} (rest : Decided a b p (next p.cursor.span)) :
    Decided a b p (Build.span >>= next) := by
  refine rest.congr fun p' same => ?_
  change next p'.cursor.current.span p' = _
  rw [same]
  rfl

/-- A look at the token behind the next one. -/
theorem Decided.nextKind {next : Token.Kind → Build α}
    (rest : Decided a b p (next p.cursor.nextKind)) :
    Decided a b p (Build.nextKind >>= next) := by
  intro rising
  cases rest rising with
  | ok ran grown passes depth again =>
      refine .ok ran grown passes depth fun {x p'} alike near => ?_
      change ∃ p₁', next p'.cursor.nextKind p' = _ ∧ _
      rw [alike.nextKind (Nat.le_trans (rising.start_le passes) near)]
      exact again alike near
  | error ran grown seen again =>
      refine .error ran grown seen fun {x p'} alike near => ?_
      change ∃ p₁', next p'.cursor.nextKind p' = _ ∧ _
      rw [alike.nextKind (Nat.le_trans (seen.start_le rising) near)]
      exact again alike near

/-- Passing a token that has been looked at. -/
theorem Decided.pass {next : Unit → Build α} (depth : p.cursor.kind.depth 0 = some c)
    (rest : Decided (c + k) b ⟨p.cursor.advance, p.arena⟩ (next ())) :
    Decided k b p (Build.advance >>= next) := by
  refine (decided_advance depth).bind fun value p₁ ran => ?_
  cases ran
  exact rest

/-- Passing a token if it is of a kind. -/
theorem Decided.eat {kind : Token.Kind} {next : Bool → Build α}
    (yes : p.cursor.kind = kind → Decided a b p (Build.advance >>= fun _ => next true))
    (no : p.cursor.kind ≠ kind → Decided a b p (next false)) :
    Decided a b p (Build.eat kind >>= next) := by
  by_cases found : p.cursor.kind = kind
  · exact (yes found).congr fun p' same =>
      bind_of_ok (eat_of_kind ((kind_of_current same).trans found))
  · exact (no found).congr fun p' same =>
      bind_of_ok (eat_of_ne fun found' => found ((kind_of_current same).symm.trans found'))

/-! ## Steps that pass nothing -/

/-- The step always succeeds and stays where it is, and what is ahead does not matter to it. -/
def Quiet (step : Build α) : Prop :=
  ∀ passed arena, ∃ value arena', arena ≤ arena' ∧ ∀ ahead stop,
    step ⟨⟨passed, ahead, stop⟩, arena⟩ = .ok value ⟨⟨passed, ahead, stop⟩, arena'⟩

theorem quiet_pure (value : α) : Quiet (pure value) :=
  fun _ arena => ⟨value, arena, Arena.le_refl _, fun _ _ => rfl⟩

theorem Quiet.bind {step : Build α} {next : α → Build β} (first : Quiet step)
    (rest : ∀ value, Quiet (next value)) : Quiet (step >>= next) := by
  intro passed arena
  obtain ⟨value, arena', grown, ran⟩ := first passed arena
  obtain ⟨value', arena'', grown', ran'⟩ := rest value passed arena'
  exact ⟨value', arena'', Arena.le_trans grown grown', fun ahead stop =>
    (bind_of_ok (ran ahead stop)).trans (ran' ahead stop)⟩

theorem quiet_alloc {add : StateM Arena α} (grows : ∀ arena, arena ≤ (add arena).2) :
    Quiet (alloc add) :=
  fun _ arena => ⟨(add arena).1, (add arena).2, grows arena, fun _ _ => rfl⟩

theorem quiet_addExpr (kind : ExprKind) (span : Span) : Quiet (addExpr kind span) :=
  quiet_alloc (Arena.le_addExpr kind span)

theorem quiet_exprSpan (id : Nat) : Quiet (exprSpan id) :=
  fun _ arena => ⟨arena.exprSpan id, arena, Arena.le_refl _, fun _ _ => rfl⟩

theorem quiet_spanFrom (start : Span) : Quiet (spanFrom start) :=
  fun passed arena => ⟨start.merge ((passed.head?.map Token.span).getD ⟨0, 0⟩), arena,
    Arena.le_refl _, fun _ _ => rfl⟩

theorem quiet_addStmt (kind : StmtKind) (start : Span) : Quiet (addStmt kind start) :=
  (quiet_spanFrom start).bind fun span => quiet_alloc (Arena.le_addStmt kind span)

theorem Quiet.decided {step : Build α} (quiet : Quiet step) : Decided a a p step := by
  intro _
  obtain ⟨value, arena', grown, ran⟩ := quiet p.cursor.passed p.arena
  refine .ok (ran _ _) grown (.refl _) rfl fun {x p'} alike _ => ?_
  obtain ⟨⟨passed, ahead, stop⟩, arena⟩ := p'
  obtain ⟨rfl, rfl, upcoming⟩ := alike
  exact ⟨_, ran ahead stop, rfl, rfl, upcoming⟩

/-- The step itself may close braces that were open before. -/
theorem Decided.thenQuiet {step : Build α} {next : α → Build β} (first : Decided a b p step)
    (rest : ∀ value, Quiet (next value)) : Decided a b p (step >>= next) := by
  intro rising
  cases first rising with
  | error ran grown seen again =>
      refine .error (bind_of_error ran) grown seen fun alike near => ?_
      obtain ⟨p₁', ran', grown'⟩ := again alike near
      exact ⟨p₁', bind_of_error ran', grown'⟩
  | @ok value p₁ tokens ran grown passes depth again =>
      obtain ⟨value', arena', grown₂, ran₂⟩ := rest value p₁.cursor.passed p₁.arena
      refine .ok ((bind_of_ok ran).trans (ran₂ _ _)) (Arena.le_trans grown grown₂) passes depth
        fun alike near => ?_
      obtain ⟨⟨⟨passed, ahead, stop⟩, arena⟩, ran', alike₁⟩ := again alike near
      obtain ⟨rfl, rfl, upcoming⟩ := alike₁
      exact ⟨_, (bind_of_ok ran').trans (ran₂ ahead stop), rfl, rfl, upcoming⟩

/-! ## Choice -/

theorem attempt_of_ok {step : Build α} {value : α} (ran : step p = .ok value p₁) :
    attempt step p = .ok value p₁ := by
  rw [attempt, ran]

theorem attempt_of_error {step : Build α} {error : ParseError} (ran : step p = .error error p₁)
    (grown : p.arena ≤ p₁.arena) : attempt step p = .error error p := by
  simp only [attempt, ran, Arena.rollback_checkpoint grown]

theorem Decided.attempt {step : Build α} (decided : Decided a b p step) :
    Decided a b p (attempt step) := by
  intro rising
  cases decided rising with
  | ok ran grown passes depth again =>
      refine .ok (attempt_of_ok ran) grown passes depth fun alike near => ?_
      obtain ⟨p₁', ran', alike₁⟩ := again alike near
      exact ⟨p₁', attempt_of_ok ran', alike₁⟩
  | error ran grown seen again =>
      refine .error (attempt_of_error ran grown) (Arena.le_refl _) seen fun {x p'} alike near => ?_
      obtain ⟨p₁', ran', grown'⟩ := again alike near
      exact ⟨p', attempt_of_error ran' grown', Arena.le_refl _⟩

theorem firstOf_of_ok {best : Option ParseError} {form : Build α} {rest : List (Build α)}
    {value : α} (ran : form p = .ok value p₁) : firstOf best (form :: rest) p = .ok value p₁ := by
  simp only [firstOf, attempt_of_ok ran]

theorem firstOf_of_error {best : Option ParseError} {form : Build α} {rest : List (Build α)}
    {error : ParseError} (ran : form p = .error error p₁) (grown : p.arena ≤ p₁.arena) :
    firstOf best (form :: rest) p =
      firstOf (some ((best.map fun best => best.further error).getD error)) rest p := by
  simp only [firstOf, attempt_of_error ran grown]

/-- If `step` fails and `other` succeeds, then `step` fails no further on than where `other`
ends. -/
def GivenUp (p : Place) (step : Build α) (other : Build β) : Prop :=
  p.cursor.Rising → ∀ error p₁ value p₂, step p = .error error p₁ → other p = .ok value p₂ →
    error.position ≤ p₂.cursor.span.start

/-- What comes of several forms comes of one of them. -/
theorem firstOf_eq_ok {best : Option ParseError} {forms : List (Build α)} {value : α}
    {p₂ : Place} (decided : ∀ form ∈ forms, Decided a b p form) (rising : p.cursor.Rising)
    (ran : firstOf best forms p = .ok value p₂) : ∃ form ∈ forms, form p = .ok value p₂ := by
  induction forms generalizing best with
  | nil => cases ran
  | cons form rest inductionHypothesis =>
      cases decided form List.mem_cons_self rising with
      | ok ran' =>
          rw [firstOf_of_ok ran'] at ran
          exact ⟨form, List.mem_cons_self, ran'.trans ran⟩
      | error ran' grown =>
          rw [firstOf_of_error ran' grown] at ran
          obtain ⟨other, member, ran''⟩ := inductionHypothesis
            (fun other member => decided other (List.mem_cons_of_mem _ member)) ran
          exact ⟨other, List.mem_cons_of_mem _ member, ran''⟩

/-- The error reported is no nearer than any other. -/
theorem le_of_firstOf_eq_error {best error : ParseError} {forms : List (Build α)} {p₂ : Place}
    (ran : firstOf (some best) forms p = .error error p₂) : best.position ≤ error.position := by
  induction forms generalizing p best with
  | nil =>
      cases ran
      exact Nat.le_refl _
  | cons form rest inductionHypothesis =>
      simp only [firstOf] at ran
      split at ran
      · cases ran
      · exact Nat.le_trans (ParseError.position_le_further best _).1 (inductionHypothesis ran)

/-- The first of several forms that fits. -/
theorem decided_firstOf {best : Option ParseError} {forms : List (Build α)}
    (known : ∀ error ∈ best, Seen p error) (decided : ∀ form ∈ forms, Decided 0 0 p form)
    (givenUp : forms.Pairwise (GivenUp p)) : Decided 0 0 p (firstOf best forms) := by
  intro rising
  induction forms generalizing best with
  | nil =>
      cases best with
      | none => exact decided_unexpected "statement" rising
      | some error =>
          exact .error rfl (Arena.le_refl _) (known error rfl) fun _ _ => ⟨_, rfl, Arena.le_refl _⟩
  | cons form rest inductionHypothesis =>
      obtain ⟨later, givenUp⟩ := List.pairwise_cons.mp givenUp
      cases decided form List.mem_cons_self rising with
      | ok ran grown passes depth again =>
          refine .ok (firstOf_of_ok ran) grown passes depth fun alike near => ?_
          obtain ⟨p₁', ran', alike₁⟩ := again alike near
          exact ⟨p₁', firstOf_of_ok ran', alike₁⟩
      | @error error p₁ ran grown seen again =>
          have decided' : ∀ form ∈ rest, Decided 0 0 p form :=
            fun form member => decided form (List.mem_cons_of_mem _ member)
          have seen' : Seen p ((best.map fun best => best.further error).getD error) := by
            cases best with
            | none => exact seen
            | some best => exact (known best rfl).further seen
          have nearer : error.position ≤
              ((best.map fun best => best.further error).getD error).position := by
            cases best with
            | none => exact Nat.le_refl _
            | some best => exact (ParseError.position_le_further best error).2
          have known' : ∀ other ∈ some ((best.map fun best => best.further error).getD error),
              Seen p other := fun other same => Option.some.inj same ▸ seen'
          cases inductionHypothesis known' decided' givenUp with
          | ok ran₂ grown₂ passes depth again₂ =>
              obtain ⟨other, member, ranOther⟩ := firstOf_eq_ok decided' rising ran₂
              have before := later other member rising _ _ _ _ ran ranOther
              refine .ok ((firstOf_of_error ran grown).trans ran₂) grown₂ passes depth
                fun alike near => ?_
              obtain ⟨p₁', ran', grown'⟩ := again alike (Nat.le_trans before near)
              rw [firstOf_of_error ran' grown']
              exact again₂ alike near
          | error ran₂ grown₂ seen₂ again₂ =>
              have before := Nat.le_trans nearer (le_of_firstOf_eq_error ran₂)
              refine .error ((firstOf_of_error ran grown).trans ran₂) grown₂ seen₂
                fun alike near => ?_
              obtain ⟨p₁', ran', grown'⟩ := again alike (Nat.le_trans before near)
              rw [firstOf_of_error ran' grown']
              exact again₂ alike near

/-- A step that goes back if it fails, and another one to be attempted then. -/
theorem Decided.orAttempt {step : Build α} {next : α → Build β} {other : Build β}
    (first : Decided 0 0 p step)
    (rest : ∀ value p₁, step p = .ok value p₁ → Decided 0 0 p₁ (next value))
    (second : Decided 0 0 p other) (givenUp : GivenUp p step other) :
    Decided 0 0 p (Build.orAttempt (Build.attempt step) next other) := by
  intro rising
  cases first rising with
  | ok ran grown passes depth again =>
      refine .after rising ran grown passes depth again
        (rest _ _ ran (rising.of_passes passes)) fun ran' => ?_
      rw [Build.orAttempt, attempt_of_ok ran']
  | @error error p₁ ran grown seen again =>
      cases second rising with
      | @ok value p₂ tokens ran₂ grown₂ passes depth again₂ =>
          have run {p' p₁' p₂' : Place} (ran' : step p' = .error error p₁')
              (grown' : p'.arena ≤ p₁'.arena) (ran₂' : other p' = .ok value p₂') :
              Build.orAttempt (Build.attempt step) next other p' = .ok value p₂' := by
            simp only [Build.orAttempt, attempt_of_error ran' grown', attempt_of_ok ran₂']
          refine .ok (run ran grown ran₂) grown₂ passes depth fun alike near => ?_
          have before := givenUp rising _ _ _ _ ran ran₂
          obtain ⟨p₁', ran', grown'⟩ := again alike (Nat.le_trans before near)
          obtain ⟨p₂', ran₂', alike₂⟩ := again₂ alike near
          exact ⟨p₂', run ran' grown' ran₂', alike₂⟩
      | @error error' p₂ ran₂ grown₂ seen₂ again₂ =>
          have run {p' p₁' p₂' : Place} (ran' : step p' = .error error p₁')
              (grown' : p'.arena ≤ p₁'.arena) (ran₂' : other p' = .error error' p₂')
              (grown₂' : p'.arena ≤ p₂'.arena) :
              Build.orAttempt (Build.attempt step) next other p' =
                .error (error.further error') p' := by
            simp only [Build.orAttempt, attempt_of_error ran' grown',
              attempt_of_error ran₂' grown₂']
          have bounds := ParseError.position_le_further error error'
          refine .error (run ran grown ran₂ grown₂) (Arena.le_refl _) (seen.further seen₂)
            fun {x p'} alike near => ?_
          obtain ⟨p₁', ran', grown'⟩ := again alike (Nat.le_trans bounds.1 near)
          obtain ⟨p₂', ran₂', grown₂'⟩ := again₂ alike (Nat.le_trans bounds.2 near)
          exact ⟨p', run ran' grown' ran₂' grown₂', Arena.le_refl _⟩

/-- What comes of two steps comes of one of them. -/
theorem orAttempt_eq_ok {step other : Build α} {value : α} {p₂ : Place}
    (first : Decided a b p step) (second : Decided a b p other) (rising : p.cursor.Rising)
    (ran : Build.orAttempt (Build.attempt step) pure other p = .ok value p₂) :
    step p = .ok value p₂ ∨ other p = .ok value p₂ := by
  cases first rising with
  | ok ran₁ =>
      simp only [Build.orAttempt, attempt_of_ok ran₁] at ran
      exact .inl (ran₁.trans ran)
  | error ran₁ grown₁ =>
      cases second rising with
      | ok ran₂ =>
          simp only [Build.orAttempt, attempt_of_error ran₁ grown₁, attempt_of_ok ran₂] at ran
          exact .inr (ran₂.trans ran)
      | error ran₂ grown₂ =>
          simp only [Build.orAttempt, attempt_of_error ran₁ grown₁,
            attempt_of_error ran₂ grown₂] at ran
          cases ran

end Build

end Formulae
