import Formulae.Proofs.Parser.ProgramReads
import Formulae.Proofs.Parser.StmtSound
import Formulae.Proofs.Token.Lexed
import Formulae.Proofs.Tree.Spacing

/-!
# What is printed is read again

A source that can be read gives a tree, and edits lead to further trees.  The text
of such a tree, in whatever layout, is read as the same tree, so printing that one
gives the same text again (`Mode.read_print`).
-/

namespace Formulae

theorem eq_ok_of_toOption {ε β : Type} {outcome : Except ε β} {value : β}
    (found : outcome.toOption = some value) : outcome = .ok value := by
  cases outcome with
  | error error => cases found
  | ok found' =>
      cases found
      rfl

/-- What a source is read as: statements with a last expression, or an expression
alone. -/
inductive Mode
  | program
  | expression

namespace Mode

variable {α : Type}

/-- Read all tokens. -/
def parse : Mode → TokenList → Except ParseError Parser.Output
  | .program => Parser.parse
  | .expression => Parser.parseExpression

/-- What is known of the tree that a text is read as, where it is read. -/
theorem reads_of_toOption {β : Type} {mode : Mode} {source : String}
    {f : Parser.Output → Option β} {value : β}
    (found : (Lexer.tokenize source).toOption.bind
      (fun tokens => (mode.parse tokens).toOption.bind f) = some value) :
    ∃ tokens output, Lexer.tokenize source = .ok tokens ∧ mode.parse tokens = .ok output ∧
      f output = some value := by
  rcases Option.bind_eq_some_iff.mp found with ⟨tokens, lexed, found⟩
  rcases Option.bind_eq_some_iff.mp found with ⟨output, parsed, found⟩
  exact ⟨tokens, output, eq_ok_of_toOption lexed, eq_ok_of_toOption parsed, found⟩

/-- The text of what was read. -/
def print (config : PrintConfig) : Mode → Program α → String
  | .program, p => p.print config
  | .expression, p => (p.tail.map (Expr.print config)).getD ""

/-- An expression alone comes with no statement. -/
def Fits : Mode → Program α → Prop
  | .program, _ => True
  | .expression, p => p.body = [] ∧ p.tail.isSome

theorem fits_edit {mode : Mode} {p : Program α} (fits : mode.Fits p) (change : Edit) :
    mode.Fits (p.edit change) := by
  cases mode with
  | program => trivial
  | expression =>
      rcases fits with ⟨noBody, hasTail⟩
      cases change <;>
        simp [Fits, Program.edit, Program.rename, Program.requote, noBody, hasTail,
          Stmt.renameAll, Stmt.requoteAll]

theorem fits_foldl_edit {mode : Mode} {p : Program α} (fits : mode.Fits p) (changes : List Edit) :
    mode.Fits (changes.foldl Program.edit p) := by
  induction changes generalizing p with
  | nil => exact fits
  | cons change changes inductionHypothesis => exact inductionHypothesis (fits_edit fits change)

/-- Reading gives a tree that source can give. -/
theorem readable_of_parse {floats : Float → Prop} {mode : Mode} {tokens : TokenList}
    {output : Parser.Output} (lexed : ∀ token ∈ tokens.items, token.kind.Lexed floats)
    (parsed : mode.parse tokens = .ok output) :
    output.program.Readable floats ∧ mode.Fits output.program := by
  cases mode with
  | program => exact ⟨(Parser.parse_sound lexed parsed).readable, trivial⟩
  | expression =>
      refine ⟨(Parser.parseExpression_sound lexed parsed).readable, ?_⟩
      simp only [parse, Parser.parseExpression] at parsed
      cases read : Parser.wholeExpression (Parser.State.ofTokens tokens) with
      | error error => rw [read] at parsed; cases parsed
      | ok found => rw [read] at parsed; cases parsed; exact ⟨rfl, rfl⟩

/-- Two trees that are the same node for node are printed alike. -/
theorem print_eq_of_bare (config : PrintConfig) (mode : Mode) {p q : Program Unit}
    (same : p.bare = q.bare) : mode.print config p = mode.print config q := by
  cases mode with
  | program =>
      rw [print, ← Program.print_bare, same, Program.print_bare, print]
  | expression =>
      have written (e : Option (Expr Unit)) :
          (e.map Expr.bare).map (Expr.print config) = e.map (Expr.print config) := by
        cases e <;> simp [Expr.print, Expr.pieces_bare]
      have sameTail : p.tail.map Expr.bare = q.tail.map Expr.bare := congrArg Program.tail same
      rw [print, print, ← written p.tail, sameTail, written]

/-- The text of a tree that source can give is read as that tree. -/
theorem parse_print (config : PrintConfig) {mode : Mode} {p : Program Unit}
    (readable : p.Readable Number.Rereads) (fits : mode.Fits p) :
    ∃ tokens output, Lexer.tokenize (mode.print config p) = .ok tokens ∧
      mode.parse tokens = .ok output ∧ output.program.bare = p.bare := by
  cases mode with
  | program =>
      have written := Program.fits_pieces config readable
      rcases Piece.tokenize_render written.written written.apart with ⟨tokens, read, kinds⟩
      rcases Parser.parse_reads config readable kinds with ⟨output, parsed, same⟩
      exact ⟨tokens, output, read, parsed, same⟩
  | expression =>
      obtain ⟨body, tail, span⟩ := p
      rcases fits with ⟨rfl, hasTail⟩
      obtain ⟨e, rfl⟩ := Option.isSome_iff_exists.mp hasTail
      have readableTail := readable.tail e rfl
      have written := e.fits_pieces config readableTail
      rcases Piece.tokenize_render written.written written.apart with ⟨tokens, read, kinds⟩
      rcases Parser.parseExpression_reads config readableTail kinds with
        ⟨output, parsed, noBody, same⟩
      refine ⟨tokens, output, read, parsed, ?_⟩
      rw [Program.bare, Program.bare, noBody, same]
      rfl

end Mode

/-! ## The round trip -/

namespace Number

/-- The double is finite and its text is read as the same double. -/
structure RereadsFinite (x : Float) : Prop where
  finite : ∃ negative significand exponent,
    Binary.ofFloat x = .finite negative significand exponent
  value : Lexer.decimalValue (floatLiteral x).toList = x

theorem RereadsFinite.rereads {x : Float} (h : RereadsFinite x) (unsigned : Unsigned x) :
    Rereads x := by
  rcases h.finite with ⟨negative, significand, exponent, finite⟩
  have positive := Binary.isNegative_of_unsigned unsigned
  rw [finite] at positive
  cases negative with
  | true => cases positive
  | false => exact ⟨⟨significand, exponent, finite⟩, h.value⟩

end Number

/-- The name that the edit brings in, if it brings in one, is a single identifier. -/
def Edit.NamesIdentifier : Edit → Prop
  | .rename r => ∃ tokens, Lexer.tokenize r.new = .ok tokens ∧
      tokens.items.map Token.kind = [.ident r.new]
  | .requote _ _ => True

theorem Edit.NamesIdentifier.keepsNames {change : Edit} (h : change.NamesIdentifier) :
    change.KeepsNames := by
  cases change with
  | requote old new => trivial
  | rename r =>
      rcases h with ⟨tokens, read, single⟩
      have lexed := Lexer.lexed_of_tokenize read
      obtain ⟨token, items, isIdent⟩ := List.map_eq_singleton_iff.mp single
      have isName := lexed token (by simp [items])
      rw [isIdent] at isName
      exact isName

/-- Whatever can be read, edited and printed in any layout is read again, in the same
mode, as the same tree, and printed again as the same text. -/
theorem Mode.read_print {source : String} {tokens : TokenList} {mode : Mode}
    {output : Parser.Output} (read : Lexer.tokenize source = .ok tokens)
    (parsed : mode.parse tokens = .ok output)
    (floats : ∀ token ∈ tokens.items, ∀ x, token.kind = .float x → Number.RereadsFinite x)
    {changes : List Edit} (names : ∀ change ∈ changes, change.NamesIdentifier)
    (config : PrintConfig) :
    ∃ tokens' output',
      Lexer.tokenize (mode.print config (changes.foldl Program.edit output.program)) = .ok tokens' ∧
      mode.parse tokens' = .ok output' ∧
      output'.program.bare = (changes.foldl Program.edit output.program).bare ∧
      mode.print config output'.program
        = mode.print config (changes.foldl Program.edit output.program) := by
  have lexed : ∀ token ∈ tokens.items, token.kind.Lexed Number.Rereads := by
    intro token member
    have unsigned := Lexer.lexed_of_tokenize read token member
    have rereads := floats token member
    cases isKind : token.kind with
    | float x =>
        rw [isKind] at unsigned
        exact (rereads x isKind).rereads unsigned
    | _ =>
        rw [isKind] at unsigned
        exact unsigned
  rcases readable_of_parse lexed parsed with ⟨readable, fits⟩
  have editedReadable := Program.readable_foldl_edit readable
    fun change member => (names change member).keepsNames
  rcases parse_print config editedReadable (fits_foldl_edit fits changes) with
    ⟨tokens', output', read', parsed', same⟩
  exact ⟨tokens', output', read', parsed', same, print_eq_of_bare config mode same⟩

theorem Number.rereadsFinite_one_and_a_half : RereadsFinite 1.5 where
  finite := ⟨false, 6755399441055744, -52, by decide +kernel⟩
  value := by decide +kernel

/-- A difference without spaces, read, with its variable renamed, and read again. -/
theorem Mode.read_print_difference : ∃ tokens output tokens' output',
    Lexer.tokenize "x-1.5" = .ok tokens ∧ Mode.program.parse tokens = .ok output ∧
      Lexer.tokenize (Mode.program.print .compact
        (output.program.edit (.rename ⟨.variable, "x", "y"⟩))) = .ok tokens' ∧
      Mode.program.parse tokens' = .ok output' ∧
      output'.program.bare = (output.program.edit (.rename ⟨.variable, "x", "y"⟩)).bare ∧
      Mode.program.print .compact output'.program
        = Mode.program.print .compact (output.program.edit (.rename ⟨.variable, "x", "y"⟩)) := by
  have read : Lexer.tokenize "x-1.5" = .ok ⟨[⟨.ident "x", ⟨0, 1⟩⟩, ⟨.mark .minus, ⟨1, 2⟩⟩,
      ⟨.float 1.5, ⟨2, 5⟩⟩], 5⟩ := by decide +kernel
  have named : Lexer.tokenize "y" = .ok ⟨[⟨.ident "y", ⟨0, 1⟩⟩], 1⟩ := by decide +kernel
  have floats : ∀ token ∈ [⟨.ident "x", ⟨0, 1⟩⟩, ⟨.mark .minus, ⟨1, 2⟩⟩, ⟨.float 1.5, ⟨2, 5⟩⟩],
      ∀ x, Token.kind token = .float x → Number.RereadsFinite x := by
    intro token member x isFloat
    simp only [List.mem_cons, List.not_mem_nil, or_false] at member
    rcases member with rfl | rfl | rfl <;> cases isFloat
    exact Number.rereadsFinite_one_and_a_half
  have lexed := Lexer.lexed_of_tokenize read
  have readable : Program.Readable Number.Rereads ⟨[], some (.binary Node.bare .sub
      (.ident .bare "x") (.constant .bare (.float 1.5))), Span.point 0⟩ := by
    refine ⟨trivial, fun e isTail => ?_⟩
    cases isTail
    refine Expr.readable_binary_of_infix ⟨rfl, rfl⟩ (lexed ⟨.ident "x", ⟨0, 1⟩⟩ (by simp)) ?_
    exact Number.rereadsFinite_one_and_a_half.rereads (lexed ⟨.float 1.5, ⟨2, 5⟩⟩ (by simp))
  have written : [.ident "x", .mark .minus, .float 1.5] = Piece.tokens (Program.pieces .compact
      ⟨[], some (.binary Node.bare .sub (.ident .bare "x") (.constant .bare (.float 1.5))),
        Span.point 0⟩) := by decide +kernel
  obtain ⟨output, parsed, -⟩ : ∃ output, Mode.program.parse ⟨[⟨.ident "x", ⟨0, 1⟩⟩,
      ⟨.mark .minus, ⟨1, 2⟩⟩, ⟨.float 1.5, ⟨2, 5⟩⟩], 5⟩ = .ok output ∧ _ :=
    Parser.parse_reads .compact readable written
  have names : ∀ change ∈ [Edit.rename ⟨.variable, "x", "y"⟩], change.NamesIdentifier := by
    intro change member
    rw [List.mem_singleton.mp member]
    exact ⟨_, named, rfl⟩
  rcases Mode.read_print read parsed floats names .compact with
    ⟨tokens', output', read', parsed', same, again⟩
  exact ⟨_, output, tokens', output', read, parsed, read', parsed', same, again⟩

end Formulae
