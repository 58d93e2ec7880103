import Formulae.Proofs.Token.Constants
import Formulae.Text.Interner
import Mathlib

/-!
# Tokens and the text they are written as

A text is written as a literal that is read as one token again, and tokens written out with any
layout between them are read as the same tokens.
-/

/-!
## Literals of strings

The literal that a text is written as closes at its last quote, whatever characters the text
is made of and whatever comes behind.  Read again it is one token for the same text
(`Constant.tokenize_literal`).
-/

namespace Formulae

namespace Lexer

/-- Reading starts with the literal as one token. -/
theorem tokenizeFrom_literal (text : String) (rest : List Char) (position : Nat)
    (before : List Token) :
    tokenizeFrom position ((Text.Quoted.literal text).toList ++ rest) before
      = tokenizeFrom (position + (Text.Quoted.literal text).utf8ByteSize) rest
          (⟨.string text, position, position + (Text.Quoted.literal text).utf8ByteSize⟩
            :: before) := by
  have reads := Token.Kind.readsBack_string text rest
  rcases reads.chosen with ⟨pattern, chosen, meant⟩
  rw [utf8ByteSize_eq_byteCount]
  exact tokenizeFrom_token reads.nonempty chosen meant position before

/-- Tokens that were read stay in front of those that follow. -/
theorem items_prefix_of_tokenizeFrom {position : Nat} {source : List Char} {before : List Token}
    {tokens : TokenList} (read : tokenizeFrom position source before = .ok tokens) :
    before.reverse <+: tokens.items := by
  have munched := munchedFrom_tokenizeFrom position source before
  rw [read] at munched
  rcases munched with ⟨later, items, -⟩
  exact ⟨later, items.symm⟩

end Lexer

/-! ### What is printed -/

theorem Constant.piece_of_text? {value : Constant} {text : String}
    (quoted : value.text? = some text) : value.piece = .token (.string text) := by
  cases value <;> cases quoted <;> rfl

/-- A constant with quotes is printed as the literal for its text. -/
theorem Expr.print_of_text? {α : Type} (config : PrintConfig) (node : Node α) {value : Constant}
    {text : String} (quoted : value.text? = some text) :
    (Expr.constant node value).print config = Text.Quoted.literal text := by
  rw [Expr.print_constant, Constant.piece_of_text? quoted, Piece.text, Token.Kind.text]

/-- The printed literal is read as one token over all of it, and the table of names gives its
text back.  With more source behind, that token still comes first. -/
theorem Constant.tokenize_literal {α : Type} (config : PrintConfig) (node : Node α)
    {value : Constant} {text : String} (quoted : value.text? = some text) :
    let written := (Expr.constant node value).print config
    let token : Token := ⟨.string text, 0, written.utf8ByteSize⟩
    (∃ tokens, Lexer.tokenize written = .ok tokens ∧
      tokens.toList = [token, ⟨.endOfInput, .point written.utf8ByteSize⟩] ∧
      ∀ names : Interner, (names.internAll tokens.texts).lookup (names.intern text).1 = text) ∧
    ∀ more tokens, Lexer.tokenize (written ++ more) = .ok tokens →
      tokens.toList.head? = some token := by
  intro written token
  have spelled : written = Text.Quoted.literal text := Expr.print_of_text? config node quoted
  have reads (rest : List Char) : Lexer.tokenizeFrom 0 (written.toList ++ rest) []
      = Lexer.tokenizeFrom written.utf8ByteSize rest [token] := by
    have step := Lexer.tokenizeFrom_literal text rest 0 []
    rw [← spelled, Nat.zero_add] at step
    exact step
  constructor
  · refine ⟨⟨[token], written.utf8ByteSize⟩, ?_, rfl, fun names => names.lookup_intern text⟩
    have alone := reads []
    rw [List.append_nil, Lexer.tokenizeFrom] at alone
    exact alone
  · intro more tokens read
    rw [Lexer.tokenize, String.toList_append, reads] at read
    rcases Lexer.items_prefix_of_tokenizeFrom read with ⟨later, items⟩
    rw [TokenList.toList, ← items]
    rfl

/-- A text that ends like an unfinished escape, with an operator behind its literal. -/
theorem Constant.tokenize_literal_escapes :
    (Constant.date "\"\\u\n\\").text? = some "\"\\u\n\\" ∧
    ∃ tokens, Lexer.tokenize ((Expr.constant ⟨0, .point 0, ()⟩
        (.date "\"\\u\n\\")).print {} ++ "+ \"\"") = .ok tokens ∧
      tokens.toList.head? = some ⟨.string "\"\\u\n\\", 0, 11⟩ := by
  have quoted : (Constant.date "\"\\u\n\\").text? = some "\"\\u\n\\" := rfl
  have read : Lexer.tokenize ((Expr.constant ⟨0, .point 0, ()⟩
      (.date "\"\\u\n\\")).print {} ++ "+ \"\"")
        = .ok ⟨[⟨.string "\"\\u\n\\", 0, 11⟩, ⟨.mark .plus, 11, 12⟩, ⟨.string "", 13, 15⟩], 15⟩ := by
    cbv
  exact ⟨quoted, _, read, (Constant.tokenize_literal {} ⟨0, .point 0, ()⟩ quoted).2 _ _ read⟩

/-!
## Layout between tokens

Between two tokens any text may stand that starts with a separator and is made of separators
and of comments that end with their line.  The text of a token that a separator follows is
read as that token wherever it is written (`longestMatch_of_spells`), so a source whose tokens
are written out with other layout between them has the same tokens (`tokenize_relaid`).
-/

/-- The stretch of the source that the span names. -/
def Span.slice (span : Span) (source : String) : String :=
  String.Pos.Raw.extract source ⟨span.start⟩ ⟨span.stop⟩

namespace Lexer

theorem utf8Len_eq_byteCount (text : List Char) : String.utf8Len text = byteCount text := by
  rw [← String.utf8ByteSize_ofList, utf8ByteSize_eq_byteCount, String.toList_ofList]

theorem slice_eq_ofList {source : String} {front text rest : List Char}
    (spelled : source.toList = front ++ text ++ rest) :
    Span.slice ⟨byteCount front, byteCount front + byteCount text⟩ source = String.ofList text := by
  have extracted := String.extract_of_valid front text rest
  rw [← spelled, String.ofList_toList, utf8Len_eq_byteCount, utf8Len_eq_byteCount] at extracted
  exact extracted

/-! ### Texts of tokens -/

/-- Some pattern reaches over the text somewhere and makes a token of this kind of it. -/
def Spells (text : List Char) (kind : Token.Kind) : Prop :=
  ∃ (pattern : Pattern) (source : List Char) (count : Nat),
    pattern.longest source = some count ∧ text = source.take count ∧
      meaning pattern text = .token kind

theorem ne_nil_of_spells {text : List Char} {kind : Token.Kind} (spells : Spells text kind) :
    text ≠ [] := by
  rcases spells with ⟨pattern, source, count, reached, rfl, -⟩
  rcases Form.exists_suits_of_longest reached with ⟨form, suits⟩
  exact Form.ne_nil_of_accepts suits.accepts

/-- The tokens of a source are spelled by the stretches that their spans name. -/
theorem spells_of_tokenizeFrom {source : String} {tokens : TokenList} (position : Nat)
    (rest : List Char) (before : List Token) :
    ∀ front, source.toList = front ++ rest → position = byteCount front →
      tokenizeFrom position rest before = .ok tokens →
        ∀ token ∈ tokens.items,
          token ∈ before ∨ Spells (token.span.slice source).toList token.kind := by
  fun_induction tokenizeFrom position rest before with
  | case1 position before =>
      intro front whole here read
      cases read
      exact fun token member => .inl (List.mem_reverse.mp member)
  | case2 | case5 =>
      intro front whole here read
      cases read
  | case3 position before first rest found chosen text next remaining meant inductionHypothesis =>
      intro front whole here
      rcases Form.exists_munches_of_longestMatch chosen with ⟨_, taken, isText, split, -, -⟩
      apply inductionHypothesis (front ++ text)
      · rw [whole, split, List.append_assoc, isText]
      · rw [byteCount_append, ← here]
  | case4 position before first rest found chosen text next remaining kind meant
      inductionHypothesis =>
      intro front whole here read token member
      rcases Form.exists_munches_of_longestMatch chosen with ⟨_, taken, isText, split, -, -⟩
      have spelled : source.toList = front ++ text ++ remaining := by
        rw [whole, split, List.append_assoc, isText]
      have spells : Spells (Span.slice ⟨position, next⟩ source).toList kind := by
        subst here
        rw [slice_eq_ofList spelled, String.toList_ofList]
        exact ⟨found.pattern, first :: rest, found.length, longest_of_longestMatch chosen, rfl,
          meant⟩
      have later := inductionHypothesis (front ++ text) spelled
        (by rw [byteCount_append, ← here]) read token member
      rw [List.mem_cons] at later
      rcases later with (rfl | earlier) | later
      · exact .inr spells
      · exact .inl earlier
      · exact .inr later

/-! ### Before a separator -/

theorem eq_false_of_isSeparator {p : Char → Bool} (none : [' ', '\t', '\r', '\n'].all fun c => !p c)
    {c : Char} (separator : isSeparator c) : p c = false := by
  have := List.all_eq_true.mp none c (Form.isSeparator_iff.mp separator)
  simpa using this

/-- No token draws a separator in, so its text is read again in front of one. -/
theorem longestMatch_of_spells {text rest : List Char} {kind : Token.Kind}
    (spells : Spells text kind) (separated : ∀ c ∈ rest.head?, isSeparator c) :
    ∃ pattern, longestMatch (text ++ rest) = some ⟨pattern, text.length⟩ ∧
      meaning pattern text = .token kind := by
  rcases spells with ⟨pattern, source, count, reached, rfl, meant⟩
  refine ⟨pattern, ?_, meant⟩
  cases pattern with
  | blanks | comment => cases meant
  | word =>
      rcases Form.accepts_name_of_longest reached with ⟨first, more, spelled, start, continues⟩
      rw [spelled]
      exact longestMatch_word (Form.startsWord_iff.mpr start)
        (fun c member => Form.continuesWord_iff.mpr (continues c member))
        fun c next => eq_false_of_isSeparator rfl (separated c next)
  | digits =>
      rcases (Form.suits_digits reached).accepts with ⟨nonempty, digits⟩
      exact longestMatch_digits nonempty digits fun c next =>
        eq_false_of_isSeparator (p := fun c => c.isDigit || c = '.') rfl (separated c next)
  | decimal =>
      rcases (Form.suits_decimal reached).accepts with
        ⟨whole, fraction, spelled, ⟨nonempty, digits⟩, nonempty', digits'⟩
      rw [spelled]
      exact longestMatch_decimal nonempty nonempty' digits digits' fun c next =>
        eq_false_of_isSeparator rfl (separated c next)
  | quoted =>
      rcases (Form.suits_quoted reached).accepts with ⟨items, spelled⟩
      rw [spelled]
      exact longestMatch_closed (Form.closingQuote_items items rest)
  | mark symbol =>
      have spelled : source.take count = symbol.chars := (Form.suits_mark reached).accepts
      rw [spelled]
      apply longestMatch_mark
      intro c next
      exact eq_false_of_isSeparator (by cases symbol <;> rfl) (separated c next)

/-! ### Layout -/

/-- Text between tokens: separators and comments that end with their line. -/
inductive Padding : List Char → Prop
  | nil : Padding []
  | separator {c : Char} {rest : List Char} (isSeparator : isSeparator c) (more : Padding rest) :
      Padding (c :: rest)
  | comment {body rest : List Char} (line : '\n' ∉ body) (more : Padding rest) :
      Padding ('/' :: '/' :: body ++ '\n' :: rest)

/-- Text that keeps the token before it apart. -/
structure Separates (gap : String) : Prop where
  padding : Padding gap.toList
  starts : ∃ c ∈ gap.toList.head?, isSeparator c

theorem Separates.head {gap : String} (separates : Separates gap) (rest : List Char) :
    ∀ c ∈ (gap.toList ++ rest).head?, isSeparator c := by
  rcases separates.starts with ⟨first, starts, separator⟩
  intro c next
  rw [List.head?_append, Option.mem_def.mp starts, Option.some_or] at next
  cases next
  exact separator

theorem longestMatch_comment {body : List Char} (line : '\n' ∉ body) (rest : List Char) :
    longestMatch ('/' :: '/' :: body ++ '\n' :: rest)
      = some ⟨.comment, ('/' :: '/' :: body).length⟩ := by
  have sameLine : ∀ c ∈ body, (fun c => decide (c ≠ '\n')) c := fun c member => by
    simpa using ne_of_mem_of_not_mem member line
  have taken : (body ++ '\n' :: rest).takeWhile (· ≠ '\n') = body :=
    takeWhile_append_of_stop sameLine (by simp)
  apply longestMatch_eq_some
  · simp only [List.cons_append, Pattern.longest, taken, List.length_cons, Nat.add_comm 2]
  · intro other length different reached
    cases other with
    | comment => exact absurd rfl different
    | mark symbol =>
        cases symbol <;> simp [Pattern.longest, Mark.chars] at reached
        simp [← reached]
    | _ =>
        have starts := Pattern.startsWith_of_longest reached
        simp [Pattern.startsWith, isSeparator, startsWord] at starts

theorem readsAs_comment {body rest : List Char} {kinds : List Token.Kind} (line : '\n' ∉ body)
    (more : ReadsAs rest kinds) : ReadsAs ('/' :: '/' :: body ++ '\n' :: rest) kinds := by
  intro position before
  have first : isSeparator '/' = false := rfl
  rw [List.cons_append, List.dropWhile_cons, first, if_neg Bool.false_ne_true, ← List.cons_append,
    tokenizeFrom_skipped (List.cons_ne_nil _ _) (longestMatch_comment line rest) rfl]
  exact tokenizeFrom_of_readsAs (readsAs_separator rfl more) _ before

theorem readsAs_padding {gap rest : List Char} {kinds : List Token.Kind} (padding : Padding gap)
    (more : ReadsAs rest kinds) : ReadsAs (gap ++ rest) kinds := by
  induction padding with
  | nil => exact more
  | separator isSeparator _ inductionHypothesis =>
      exact readsAs_separator isSeparator inductionHypothesis
  | comment line _ inductionHypothesis =>
      rw [List.append_assoc, List.cons_append]
      exact readsAs_comment line inductionHypothesis

/-! ### The same tokens with other layout -/

/-- The slices of tokens, each with some layout behind it, and layout in front of the first. -/
def relaid (source : String) (lead : String) (spaced : List (Token × String)) : String :=
  lead ++ String.join (spaced.map fun entry => entry.1.span.slice source ++ entry.2)

theorem readsAs_spaced {source : String} {spaced : List (Token × String)}
    (spelled : ∀ entry ∈ spaced, Spells (entry.1.span.slice source).toList entry.1.kind)
    (apart : ∀ entry ∈ spaced, Separates entry.2) :
    ReadsAs (String.join (spaced.map fun entry => entry.1.span.slice source ++ entry.2)).toList
      (spaced.map fun entry => entry.1.kind) := by
  induction spaced with
  | nil => exact readsAs_nil
  | cons entry spaced inductionHypothesis =>
      rw [List.forall_mem_cons] at spelled apart
      have more := readsAs_padding apart.1.padding (inductionHypothesis spelled.2 apart.2)
      rcases longestMatch_of_spells spelled.1 (apart.1.head _) with ⟨pattern, chosen, meant⟩
      have reads := readsAs_text (ne_nil_of_spells spelled.1) chosen meant more
      simpa [List.append_assoc] using reads

/-- Any source that can be read is read as the same tokens once its tokens are written out
with other layout between them, and the table of names comes out the same. -/
theorem tokenize_relaid {source : String} {tokens : TokenList}
    (read : tokenize source = .ok tokens) {lead : String} {spaced : List (Token × String)}
    (same : spaced.map Prod.fst = tokens.items) (first : Separates lead)
    (apart : ∀ entry ∈ spaced, Separates entry.2) :
    ∃ tokens', tokenize (relaid source lead spaced) = .ok tokens' ∧
      tokens'.toList.map Token.kind = tokens.toList.map Token.kind ∧
      ∀ names : Interner, names.internAll tokens'.texts = names.internAll tokens.texts := by
  have spelled : ∀ entry ∈ spaced, Spells (entry.1.span.slice source).toList entry.1.kind := by
    intro entry member
    have listed : entry.1 ∈ tokens.items := same ▸ List.mem_map_of_mem member
    rcases spells_of_tokenizeFrom 0 source.toList [] [] rfl rfl read entry.1 listed with
      before | spells
    · cases before
    · exact spells
  have reads := readsAs_padding first.padding (readsAs_spaced spelled apart)
  rw [← String.toList_append] at reads
  rcases tokenizeFrom_of_readsAs reads 0 [] with ⟨tokens', read', kinds⟩
  have sameKinds : tokens'.items.map Token.kind = tokens.items.map Token.kind := by
    rw [kinds, ← same, List.map_map]
    rfl
  have texts (list : TokenList) :
      list.texts = (list.items.map Token.kind).filterMap Token.Kind.text? := by
    rw [List.filterMap_map]
    rfl
  refine ⟨tokens', read', ?_, fun names => by rw [texts, texts, sameKinds]⟩
  simp [TokenList.toList, TokenList.finalToken, sameKinds]

/-- A slash with a comment behind it, and a literal that holds two slashes and a quote. -/
theorem tokenize_relaid_comments : ∃ tokens tokens' : TokenList,
    tokenize "x/\"//\\\"\"" = .ok tokens ∧
      tokenize " // x\nx /\t// by\n\"//\\\"\"\r\n" = .ok tokens' ∧
      tokens'.toList.map Token.kind = tokens.toList.map Token.kind := by
  have read : tokenize "x/\"//\\\"\"" = .ok
      ⟨[⟨.ident "x", 0, 1⟩, ⟨.mark .slash, 1, 2⟩, ⟨.string "//\"", 2, 8⟩], 8⟩ := by
    cbv
  have lead : Separates " // x\n" :=
    ⟨.separator rfl (.comment (show '\n' ∉ [' ', 'x'] by decide) .nil), ' ', rfl, rfl⟩
  have blank : Separates " " := ⟨.separator rfl .nil, ' ', rfl, rfl⟩
  have comment : Separates "\t// by\n" :=
    ⟨.separator rfl (.comment (show '\n' ∉ [' ', 'b', 'y'] by decide) .nil), '\t', rfl, rfl⟩
  have lineEnd : Separates "\r\n" := ⟨.separator rfl (.separator rfl .nil), '\r', rfl, rfl⟩
  let spaced : List (Token × String) := [(⟨.ident "x", 0, 1⟩, " "),
    (⟨.mark .slash, 1, 2⟩, "\t// by\n"), (⟨.string "//\"", 2, 8⟩, "\r\n")]
  have same : spaced.map Prod.fst
      = [⟨.ident "x", 0, 1⟩, ⟨.mark .slash, 1, 2⟩, ⟨.string "//\"", 2, 8⟩] := rfl
  have apart : ∀ entry ∈ spaced, Separates entry.2 := by simp [spaced, blank, comment, lineEnd]
  have written : relaid "x/\"//\\\"\"" " // x\n" spaced
      = " // x\nx /\t// by\n\"//\\\"\"\r\n" := by
    decide +kernel
  rcases tokenize_relaid read same lead apart with ⟨tokens', read', kinds, -⟩
  rw [written] at read'
  exact ⟨_, _, read, read', kinds⟩

end Lexer

end Formulae
