import Formulae.Proofs.Arena.Agreement
import Formulae.Proofs.Parser.StmtChoice

/-!
# The two modes agree

A source that is one expression is read alike as a program and as an expression alone, unless it
starts with a brace, which opens a block in a program and an array in an expression
(`Mode.expression_iff_program`).  As a program it is first tried as a statement of every form, and
no form fits: an expression that takes up all tokens is not followed by a semicolon, and it does
not start with a type and a name.
-/

namespace Formulae

namespace Parser

variable {s s' : State} {e : Expr Unit}

theorem fails_statement_of_wholeExpression (noBrace : s.kind ≠ .mark .leftBrace)
    (read : wholeExpression s = .ok (e, s')) : Fails (statement s) := by
  obtain ⟨gives, ends⟩ := wholeExpression_eq_ok_iff.mp read
  have nothing := namesNothing_of_gives gives (by rw [ends]; nofun)
  intro stmt s₁ given
  rw [gives_statement_of_first (opensExpr_of_gives gives) noBrace nothing] at given
  rcases gives_exprStmt.mp given with ⟨_, s₂, read', semicolon, -⟩
  obtain ⟨-, rfl⟩ := gives.unique read'
  cases semicolon.symm.trans ends

/-- A state is read as one expression up to the end exactly if it is read as a program that is
nothing but a last expression. -/
theorem wholeExpression_iff_programBody (noBrace : s.kind ≠ .mark .leftBrace) :
    wholeExpression s = .ok (e, s') ↔ programBody s = .ok ([], some e, s') := by
  constructor
  · intro read
    have opens := opensExpr_of_gives (wholeExpression_eq_ok_iff.mp read).1
    have more : s.kind ≠ .endOfInput := by
      intro ends
      rw [ends] at opens
      cases opens
    have fails := fails_statement_of_wholeExpression noBrace read
    exact (programBody_of_fails more fails).mpr ⟨e, rfl, rfl, read⟩
  · intro read
    by_cases ends : s.kind = .endOfInput
    · obtain ⟨-, isNone, -⟩ := (programBody_of_end ends).mp read
      cases isNone
    · by_cases fails : Fails (statement s)
      · obtain ⟨_, -, same, whole⟩ := (programBody_of_fails ends fails).mp read
        cases same
        exact whole
      · obtain ⟨first, s₁, given⟩ : ∃ first s₁, Gives (statement s) first s₁ := by
          simpa [Fails] using fails
        obtain ⟨rest, isCons, -⟩ := (programBody_of_gives ends given).mp read
        cases isCons

theorem parseExpression_iff_parse {tokens : TokenList} {output : Output}
    (noBrace : (State.ofTokens tokens).kind ≠ .mark .leftBrace) :
    parseExpression tokens = .ok output ↔
      parse tokens = .ok output ∧ output.program.body = [] ∧ output.program.tail.isSome := by
  rw [parseExpression_eq_ok_iff, parse_eq_ok_iff]
  constructor
  · rintro ⟨tail, last, read, rfl⟩
    have whole := (wholeExpression_iff_programBody noBrace).mp read
    exact ⟨⟨[], some tail, last, whole, rfl⟩, rfl, rfl⟩
  · rintro ⟨⟨body, tail, last, read, rfl⟩, noBody, hasTail⟩
    obtain ⟨e, rfl⟩ := Option.isSome_iff_exists.mp hasTail
    obtain rfl : body = [] := noBody
    exact ⟨e, last, (wholeExpression_iff_programBody noBrace).mpr read, rfl⟩

end Parser

/-! ## Stored programs -/

theorem Stmt.length_storeAll {α : Type} (list : List (Stmt α)) (a : Arena) :
    (Stmt.storeAll list a).1.length = list.length := by
  induction list generalizing a with
  | nil => rfl
  | cons first rest inductionHypothesis =>
      exact congrArg Nat.succ (inductionHypothesis (first.store a).2)

theorem Program.root_stored {α : Type} (p : Program α) :
    p.stored.root.body.length = p.body.length ∧ p.stored.root.tail.isSome = p.tail.isSome := by
  obtain ⟨body, tail, span⟩ := p
  constructor
  · exact Stmt.length_storeAll body .empty
  · cases tail <;> rfl

/-- Unless a brace comes first, an expression alone is read exactly if the program is read as a
last expression without statements before it, and both readings give the same tree and leave the
same nodes at the same places of the same storage. -/
theorem Mode.expression_iff_program {tokens : TokenList}
    (noBrace : ∀ first ∈ tokens.items.head?, first.kind ≠ .mark .leftBrace) :
    (∀ output, Mode.expression.parse tokens = .ok output ↔
      Mode.program.parse tokens = .ok output ∧ output.program.body = [] ∧
        output.program.tail.isSome) ∧
    ∀ stored, Mode.expression.store tokens = .ok stored ↔
      Mode.program.store tokens = .ok stored ∧ stored.root.body.length = 0 ∧
        stored.root.tail.isSome := by
  have first : (Parser.State.ofTokens tokens).kind ≠ .mark .leftBrace := by
    obtain ⟨items, stop⟩ := tokens
    cases items with
    | nil => nofun
    | cons token rest => exact noBrace token rfl
  have trees (output : Parser.Output) : Mode.expression.parse tokens = .ok output ↔
      Mode.program.parse tokens = .ok output ∧ output.program.body = [] ∧
        output.program.tail.isSome := Parser.parseExpression_iff_parse first
  have stores (mode : Mode) (stored : Stored) : mode.store tokens = .ok stored ↔
      ∃ output, mode.parse tokens = .ok output ∧ output.program.stored = stored := by
    rw [mode.store_eq]
    cases mode.parse tokens <;> simp [Except.map]
  constructor
  · exact trees
  · intro stored
    simp only [stores, trees]
    constructor
    · rintro ⟨output, ⟨parsed, noBody, hasTail⟩, rfl⟩
      obtain ⟨length, tail⟩ := output.program.root_stored
      exact ⟨⟨output, parsed, rfl⟩, by simp [length, noBody], by simpa [tail] using hasTail⟩
    · rintro ⟨⟨output, parsed, rfl⟩, noBody, hasTail⟩
      obtain ⟨length, tail⟩ := output.program.root_stored
      rw [length] at noBody
      rw [tail] at hasTail
      exact ⟨output, ⟨parsed, List.eq_nil_of_length_eq_zero noBody, hasTail⟩, rfl⟩

/-- The tokens of `a ? b[0] : c`. -/
def conditional : TokenList :=
  ⟨[⟨.ident "a", ⟨0, 1⟩⟩, ⟨.mark .question, ⟨2, 3⟩⟩, ⟨.ident "b", ⟨4, 5⟩⟩,
    ⟨.mark .leftBracket, ⟨5, 6⟩⟩, ⟨.int 0, ⟨6, 7⟩⟩, ⟨.mark .rightBracket, ⟨7, 8⟩⟩,
    ⟨.mark .colon, ⟨9, 10⟩⟩, ⟨.ident "c", ⟨11, 12⟩⟩], 12⟩

theorem Mode.expression_iff_program_conditional : ∃ output,
    Lexer.tokenize "a ? b[0] : c" = .ok conditional ∧
      Mode.expression.parse conditional = .ok output ∧
      Mode.program.parse conditional = .ok output ∧ output.program.body = [] ∧
      output.program.tail.isSome := by
  have read : Lexer.tokenize "a ? b[0] : c" = .ok conditional := by decide +kernel
  have parses : (Mode.expression.parse conditional).toOption.isSome := by cbv
  obtain ⟨output, found⟩ := Option.isSome_iff_exists.mp parses
  have parsed := eq_ok_of_toOption found
  have noBrace : ∀ first ∈ conditional.items.head?, first.kind ≠ .mark .leftBrace := by
    simp [conditional]
  exact ⟨output, read, parsed, ((Mode.expression_iff_program noBrace).1 output).mp parsed⟩

end Formulae
