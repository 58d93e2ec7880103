import Formulae.Proofs.Token.Grammar

/-!
# The longest match wins

At each place the lexer takes the longest text that any form of the lexical grammar accepts
there (`Form.Munches`).  Between tokens it leaves out blanks and comments, and it stops only
where no form accepts anything or where an integer is too large (`munched_tokenize`).
-/

namespace Formulae

namespace Lexer

/-! ## Bytes -/

theorem foldl_utf8Size (text : List Char) (bytes : Nat) :
    text.foldl (fun bytes char => bytes + char.utf8Size) bytes = bytes + byteCount text := by
  induction text generalizing bytes with
  | nil => rfl
  | cons c text inductionHypothesis =>
      rw [byteCount, List.foldl_cons, List.foldl_cons, inductionHypothesis, inductionHypothesis]
      omega

theorem byteCount_append (text more : List Char) :
    byteCount (text ++ more) = byteCount text + byteCount more := by
  rw [byteCount, List.foldl_append, foldl_utf8Size]
  rfl

theorem byteCount_cons (c : Char) (text : List Char) :
    byteCount (c :: text) = c.utf8Size + byteCount text := by
  rw [byteCount, List.foldl_cons, foldl_utf8Size, Nat.zero_add]

theorem byteCount_pos {text : List Char} (nonempty : text ≠ []) : 0 < byteCount text := by
  cases text with
  | nil => exact absurd rfl nonempty
  | cons c text =>
      have := c.utf8Size_pos
      rw [byteCount_cons]
      omega

/-- Offsets count the bytes of the text. -/
theorem utf8ByteSize_eq_byteCount (source : String) :
    source.utf8ByteSize = byteCount source.toList := by
  have ofList (text : List Char) : (String.ofList text).utf8ByteSize = byteCount text := by
    induction text with
    | nil => simp [byteCount]
    | cons c text inductionHypothesis =>
        rw [← List.singleton_append, String.ofList_append, String.utf8ByteSize_append,
          inductionHypothesis, byteCount_append, ← String.singleton_eq_ofList,
          String.utf8ByteSize_singleton, byteCount_cons]
        rfl
  rw [← ofList, String.ofList_toList]

/-! ## The longest of all matches -/

theorem Match.le_length_longer (one other : Match) :
    one.length ≤ (one.longer other).length ∧ other.length ≤ (one.longer other).length := by
  unfold Match.longer
  split <;> omega

/-- The lead never shrinks, and the pattern that is met has its chance. -/
theorem le_of_better (source : List Char) (best : Option Match) (pattern : Pattern) :
    (∀ earlier ∈ best, ∃ lead ∈ better source best pattern, earlier.length ≤ lead.length) ∧
      ∀ count, pattern.longest source = some count →
        ∃ lead ∈ better source best pattern, count ≤ lead.length := by
  unfold better
  cases reached : pattern.longest source with
  | none => exact ⟨fun earlier isBest => ⟨earlier, by simpa using isBest, le_rfl⟩, nofun⟩
  | some length =>
      cases best with
      | none =>
          refine ⟨nofun, fun count same => ⟨_, rfl, ?_⟩⟩
          cases same
          exact le_rfl
      | some found =>
          have longer := found.le_length_longer ⟨pattern, length⟩
          refine ⟨fun earlier isBest => ⟨_, rfl, ?_⟩, fun count same => ⟨_, rfl, ?_⟩⟩
          · cases isBest
            exact longer.1
          · cases same
            exact longer.2

theorem le_of_foldl_better {source : List Char} (patterns : List Pattern) (best : Option Match) :
    (∀ earlier ∈ best, ∃ found ∈ patterns.foldl (better source) best,
        earlier.length ≤ found.length) ∧
      ∀ pattern ∈ patterns, ∀ count, pattern.longest source = some count →
        ∃ found ∈ patterns.foldl (better source) best, count ≤ found.length := by
  induction patterns generalizing best with
  | nil => exact ⟨fun earlier isBest => ⟨earlier, isBest, le_rfl⟩, nofun⟩
  | cons next rest inductionHypothesis =>
      rcases inductionHypothesis (better source best next) with ⟨leads, others⟩
      rcases le_of_better source best next with ⟨keeps, takes⟩
      have reaches {length : Nat}
          (inLead : ∃ lead ∈ better source best next, length ≤ lead.length) :
          ∃ found ∈ rest.foldl (better source) (better source best next),
            length ≤ found.length := by
        rcases inLead with ⟨lead, isLead, shorter⟩
        rcases leads lead isLead with ⟨found, chosen, shorter'⟩
        exact ⟨found, chosen, shorter.trans shorter'⟩
      refine ⟨fun earlier isBest => reaches (keeps earlier isBest),
        fun pattern member count reached => ?_⟩
      rcases List.mem_cons.mp member with rfl | later
      · exact reaches (takes count reached)
      · exact others pattern later count reached

/-- Where a pattern reaches, the chosen one reaches as far. -/
theorem exists_longestMatch_of_longest {source : List Char} {pattern : Pattern} {count : Nat}
    (reached : pattern.longest source = some count) :
    ∃ found, longestMatch source = some found ∧ count ≤ found.length :=
  (le_of_foldl_better Pattern.all none).2 pattern (Pattern.mem_all pattern) count reached

/-! ## The longest text of any form -/

namespace Form

/-- The form accepts the text, and no form accepts more of what stands there.  A name is
accepted only where no other form accepts the same text. -/
structure Munches (form : Form) (text after : List Char) : Prop where
  accepts : form.Accepts text
  longest : ∀ (other : Form) (more rest : List Char), text ++ after = more ++ rest →
    other.Accepts more → more.length ≤ text.length
  preferred : form = .name → ∀ other : Form, other.Accepts text → other = .name

theorem ne_nil_of_accepts {form : Form} {text : List Char} (accepts : form.Accepts text) :
    text ≠ [] := by
  rintro rfl
  cases form with
  | blanks => exact accepts.1 rfl
  | integer => exact accepts.1 rfl
  | comment => rcases accepts with ⟨_, spelled, _⟩; cases spelled
  | keyword word => cases word <;> cases accepts
  | basicType type => cases type <;> cases accepts
  | mark symbol => exact Mark.chars_ne_nil symbol accepts.symm
  | float => rcases accepts with ⟨_, _, spelled, _⟩; simp at spelled
  | string => rcases accepts with ⟨_, spelled⟩; cases spelled
  | name => rcases accepts with ⟨_, _, spelled, _⟩; cases spelled

/-- The lexer's choice is the longest text of any form. -/
theorem munches_of_longestMatch {source : List Char} {found : Match}
    (chosen : longestMatch source = some found) :
    ∃ form : Form, form.Suits found.pattern (source.take found.length) ∧
      form.Munches (source.take found.length) (source.drop found.length) := by
  rcases exists_suits_of_longest (longest_of_longestMatch chosen) with ⟨form, suits⟩
  refine ⟨form, suits, suits.accepts, fun other more rest spelled accepts => ?_, suits.preferred⟩
  rw [List.take_append_drop] at spelled
  subst spelled
  rcases le_longest_of_accepts accepts rest with ⟨count, reached, le⟩
  rcases exists_longestMatch_of_longest reached with ⟨found', chosen', le'⟩
  obtain rfl : found' = found := Option.some.inj (chosen'.symm.trans chosen)
  rw [List.length_take, List.length_append]
  omega

/-- Where the lexer finds nothing to choose, no form accepts anything. -/
theorem not_accepts_of_longestMatch {source : List Char} (nothing : longestMatch source = none)
    (form : Form) (text after : List Char) (spelled : source = text ++ after) :
    ¬ form.Accepts text := by
  intro accepts
  subst spelled
  rcases le_longest_of_accepts accepts after with ⟨count, reached, -⟩
  rcases exists_longestMatch_of_longest reached with ⟨found, chosen, -⟩
  cases nothing.symm.trans chosen

end Form

/-! ## Sources cut into tokens -/

/-- What stands between tokens, in front of `after`: blanks and comments, each of them as long
as can be. -/
inductive Layout : List Char → List Char → Prop
  | nil (after : List Char) : Layout [] after
  | cons {form : Form} {text rest after : List Char} (isLayout : form.IsLayout)
      (munches : form.Munches text (rest ++ after)) (more : Layout rest after) :
      Layout (text ++ rest) after

/-- The source from `position` on is cut into tokens up to `stop`, with `rest` left: layout
and tokens take turns, and each token is the longest text of its form. -/
inductive Cuts : Nat → List Char → List Token → Nat → List Char → Prop
  | stop {position : Nat} {gap rest : List Char} (layout : Layout gap rest) :
      Cuts position (gap ++ rest) [] (position + byteCount gap) rest
  | token {position stop : Nat} {gap text after rest : List Char} {form : Form}
      {kind : Token.Kind} {tokens : List Token} (layout : Layout gap (text ++ after))
      (munches : form.Munches text after) (means : form.Means text kind)
      (more : Cuts (position + byteCount gap + byteCount text) after tokens stop rest) :
      Cuts position (gap ++ (text ++ after))
        (⟨kind, position + byteCount gap, position + byteCount gap + byteCount text⟩ :: tokens)
        stop rest

/-- Layout may be longer. -/
theorem Cuts.skip {position stop : Nat} {form : Form} {text after rest : List Char}
    {tokens : List Token} (isLayout : form.IsLayout) (munches : form.Munches text after)
    (cuts : Cuts (position + byteCount text) after tokens stop rest) :
    Cuts position (text ++ after) tokens stop rest := by
  have offset (gap : List Char) :
      position + byteCount text + byteCount gap = position + byteCount (text ++ gap) := by
    rw [byteCount_append, Nat.add_assoc]
  cases cuts with
  | stop layout =>
      rw [← List.append_assoc, offset]
      exact .stop (.cons isLayout munches layout)
  | token layout munches' means more =>
      rw [← List.append_assoc]
      simp only [offset] at more ⊢
      exact .token (.cons isLayout munches layout) munches' means more

/-- The spans of the tokens come one after the other between two offsets, none of them empty. -/
structure Ordered (start : Nat) (tokens : List Token) (stop : Nat) : Prop where
  after : ∀ token ∈ tokens, start ≤ token.span.start
  nonempty : ∀ token ∈ tokens, token.span.start < token.span.stop
  disjoint : tokens.Pairwise fun one other => one.span.stop ≤ other.span.start
  before : ∀ token ∈ tokens, token.span.stop ≤ stop
  le : start ≤ stop

theorem Cuts.ordered {position stop : Nat} {source rest : List Char} {tokens : List Token}
    (cuts : Cuts position source tokens stop rest) : Ordered position tokens stop := by
  induction cuts with
  | stop => exact ⟨nofun, nofun, .nil, nofun, Nat.le_add_right _ _⟩
  | @token position stop gap text after rest form kind tokens layout munches means more later =>
      have positive := byteCount_pos (Form.ne_nil_of_accepts munches.accepts)
      refine ⟨?_, ?_, ?_, ?_, ?_⟩
      · simp only [List.forall_mem_cons]
        exact ⟨Nat.le_add_right _ _, fun token member => by have := later.after token member; omega⟩
      · simp only [List.forall_mem_cons]
        exact ⟨by omega, later.nonempty⟩
      · exact .cons later.after later.disjoint
      · simp only [List.forall_mem_cons]
        exact ⟨later.le, later.before⟩
      · have := later.le
        omega

/-- Nothing can be read here: no form accepts anything, or an integer is too large. -/
structure Stuck (rest : List Char) : Prop where
  nonempty : rest ≠ []
  unreadable : (∀ (form : Form) (text after : List Char), rest = text ++ after →
      ¬ form.Accepts text) ∨
    ∃ text after, rest = text ++ after ∧ Form.integer.Munches text after ∧
      0x8000000000000000 ≤ decimalNumber text

/-- What reading from `position` on gives: the tokens of all of the source, behind those
`before`, or an error at the first place at which nothing can be read. -/
def MunchedFrom (position : Nat) (source : List Char) (before : List Token) :
    Except LexError TokenList → Prop
  | .ok tokens => ∃ read, tokens.items = before.reverse ++ read ∧
      Cuts position source read tokens.stop []
  | .error error => ∃ read rest, Cuts position source read error.position rest ∧ Stuck rest ∧
      error = LexError.ofRest error.position rest

theorem Cuts.here (position : Nat) (rest : List Char) : Cuts position rest [] position rest :=
  .stop (.nil rest)

theorem Cuts.token_here {position stop : Nat} {form : Form} {text after rest : List Char}
    {kind : Token.Kind} {tokens : List Token} (munches : form.Munches text after)
    (means : form.Means text kind)
    (more : Cuts (position + byteCount text) after tokens stop rest) :
    Cuts position (text ++ after) (⟨kind, position, position + byteCount text⟩ :: tokens) stop
      rest :=
  .token (.nil (text ++ after)) munches means more

section

variable {position : Nat} {before : List Token} {form : Form} {text after : List Char}
  {result : Except LexError TokenList}

/-- One round of reading that leaves the text out. -/
theorem MunchedFrom.skip (isLayout : form.IsLayout) (munches : form.Munches text after)
    (later : MunchedFrom (position + byteCount text) after before result) :
    MunchedFrom position (text ++ after) before result := by
  cases result with
  | ok tokens =>
      rcases later with ⟨read, items, cuts⟩
      exact ⟨read, items, cuts.skip isLayout munches⟩
  | error error =>
      rcases later with ⟨read, rest, cuts, stuck, same⟩
      exact ⟨read, rest, cuts.skip isLayout munches, stuck, same⟩

/-- One round of reading that makes a token of the text. -/
theorem MunchedFrom.token {kind : Token.Kind} (munches : form.Munches text after)
    (means : form.Means text kind)
    (later : MunchedFrom (position + byteCount text) after
      (⟨kind, position, position + byteCount text⟩ :: before) result) :
    MunchedFrom position (text ++ after) before result := by
  cases result with
  | ok tokens =>
      rcases later with ⟨read, items, cuts⟩
      exact ⟨_ :: read, by simp [items], cuts.token_here munches means⟩
  | error error =>
      rcases later with ⟨read, rest, cuts, stuck, same⟩
      exact ⟨_ :: read, rest, cuts.token_here munches means, stuck, same⟩

end

/-- The stretch that is chosen, with the form it has, and what is left behind it. -/
theorem Form.exists_munches_of_longestMatch {first : Char} {rest : List Char} {found : Match}
    (chosen : longestMatch (first :: rest) = some found) :
    ∃ (form : Form) (text : List Char), text = (first :: rest).take found.length ∧
      first :: rest = text ++ rest.drop (found.length - 1) ∧ form.Suits found.pattern text ∧
      form.Munches text (rest.drop (found.length - 1)) := by
  rcases munches_of_longestMatch chosen with ⟨form, suits, munches⟩
  have reaches : found.length ≠ 0 := by
    intro nothing
    rw [nothing] at munches
    exact ne_nil_of_accepts munches.accepts rfl
  have left : (first :: rest).drop found.length = rest.drop (found.length - 1) := by
    obtain ⟨length, spelled⟩ := Nat.exists_eq_succ_of_ne_zero reaches
    rw [spelled]
    rfl
  rw [left] at munches
  exact ⟨form, _, rfl, by rw [← left, List.take_append_drop], suits, munches⟩

theorem munchedFrom_tokenizeFrom (position : Nat) (source : List Char) (before : List Token) :
    MunchedFrom position source before (tokenizeFrom position source before) := by
  fun_induction tokenizeFrom position source before with
  | case1 position before => exact ⟨[], by simp, .here position []⟩
  | case2 position before first rest nothing =>
      exact ⟨[], _, .here position _, ⟨List.cons_ne_nil _ _, .inl (Form.not_accepts_of_longestMatch nothing)⟩, rfl⟩
  | case3 position before first rest found chosen text next remaining skipped inductionHypothesis =>
      rcases Form.exists_munches_of_longestMatch chosen with ⟨form, _, rfl, spelled, suits, munches⟩
      have isLayout : form.IsLayout := by simpa [text, skipped] using suits.meant
      rw [spelled]
      exact inductionHypothesis.skip isLayout munches
  | case4 position before first rest found chosen text next remaining kind token
      inductionHypothesis =>
      rcases Form.exists_munches_of_longestMatch chosen with ⟨form, _, rfl, spelled, suits, munches⟩
      have means : form.Means text kind := by simpa [text, token] using suits.meant
      rw [spelled]
      exact inductionHypothesis.token munches means
  | case5 position before first rest found chosen text invalid =>
      rcases Form.exists_munches_of_longestMatch chosen with ⟨form, _, rfl, spelled, suits, munches⟩
      have meant := suits.meant
      rw [invalid] at meant
      obtain ⟨rfl, large⟩ := meant
      exact ⟨[], _, .here position _, ⟨List.cons_ne_nil _ _, .inr ⟨_, _, spelled, munches, large⟩⟩, rfl⟩

/-- What is read of a source up to an offset: tokens one after the other, each the longest
text of its form, with nothing but layout between them. -/
structure Reads (source : String) (tokens : List Token) (stop : Nat) (rest : List Char) :
    Prop where
  cuts : Cuts 0 source.toList tokens stop rest
  ordered : Ordered 0 tokens stop

/-- What reading a source has to give: all of its tokens and the end of the input, or else an
error at the first place at which no token can be read. -/
def Munched (source : String) : Except LexError TokenList → Prop
  | .ok tokens => Reads source tokens.items source.utf8ByteSize [] ∧
      tokens.toList = tokens.items ++ [⟨.endOfInput, source.utf8ByteSize, source.utf8ByteSize⟩]
  | .error error => ∃ tokens rest, Reads source tokens error.position rest ∧ Stuck rest ∧
      error = LexError.ofRest error.position rest

theorem Cuts.stop_eq {position stop : Nat} {source rest : List Char} {tokens : List Token}
    (cuts : Cuts position source tokens stop rest) :
    position + byteCount source = stop + byteCount rest := by
  induction cuts with
  | stop => rw [byteCount_append, Nat.add_assoc]
  | token layout munches means more inductionHypothesis =>
      rw [byteCount_append, byteCount_append, ← inductionHypothesis]
      omega

/-- All of a source that can be read is cut into its tokens. -/
theorem cuts_of_tokenize {source : String} {tokens : TokenList}
    (read : tokenize source = .ok tokens) :
    Cuts 0 source.toList tokens.items tokens.stop [] := by
  have munched := munchedFrom_tokenizeFrom 0 source.toList []
  rw [show tokenizeFrom 0 source.toList [] = .ok tokens from read] at munched
  rcases munched with ⟨later, items, cuts⟩
  obtain rfl : tokens.items = later := items
  exact cuts

end Lexer

end Formulae
