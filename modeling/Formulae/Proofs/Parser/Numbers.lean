import Formulae.Proofs.Parser.Counts
import Formulae.Proofs.RoundTrip
import Formulae.Proofs.Tree.Entries

/-!
# The numbers of what is read

Reading numbers the expressions of a tree from zero on, each when it is complete, and it makes
no literal for a date or a duration (`Mode.completes_of_parse`).  So no number is left out and
none is given twice (`Mode.numbers_of_parse`).
-/

namespace Formulae

namespace Parser

variable {s s' : State}

/-- The entries stand under the numbers from `first` to `last` in turn, and source has their
literals. -/
structure Completes (first : Nat) (entries : List ExprEntry) (last : Nat) : Prop where
  last : last = first + entries.length
  inTurn : ExprEntry.InTurn first entries
  isRead : ∀ entry ∈ entries, entry.form.IsRead

namespace Completes

variable {first middle last : Nat} {entries more : List ExprEntry}

theorem nil (first : Nat) : Completes first [] first :=
  ⟨rfl, ExprEntry.inTurn_nil first, nofun⟩

theorem append (one : Completes first entries middle) (two : Completes middle more last) :
    Completes first (entries ++ more) last := by
  obtain ⟨rfl, inTurn, isRead⟩ := one
  obtain ⟨rfl, inTurn', isRead'⟩ := two
  exact ⟨by rw [List.length_append, Nat.add_assoc], ExprEntry.inTurn_append.mpr ⟨inTurn, inTurn'⟩,
    List.forall_mem_append.mpr ⟨isRead, isRead'⟩⟩

/-- One more expression takes the next number. -/
theorem node (inner : Completes first entries last) {entry : ExprEntry}
    (number : entry.number = last) (isRead : entry.form.IsRead) :
    Completes first (entries ++ [entry]) (last + 1) :=
  inner.append ⟨rfl, ExprEntry.inTurn_singleton.mpr number, by simpa using isRead⟩

/-- The operands of an infix operator are complete in the order in which they are written. -/
theorem binary {op : Operator} {node : Node Unit} {left right : Expr Unit}
    (isInfix : op ≠ .typeCast) (left' : Completes first left.completed middle)
    (right' : Completes middle right.completed last) (number : node.id = last) :
    Completes first (Expr.binary node op left right).completed (last + 1) := by
  rw [Expr.completed_isInfix _ _ _ isInfix]
  exact (left'.append right').node number trivial

end Completes

theorem State.exprs_advance (s : State) : s.advance.exprs = s.exprs :=
  rfl

/-! ## Expressions -/

theorem isRead_of_constant? {kind : Token.Kind} {value : Constant}
    (found : constant? kind = some value) : (ExprForm.constant value).IsRead := by
  cases kind with
  | keyword word => cases word <;> cases found <;> trivial
  | int | float | string => cases found; trivial
  | _ => cases found

mutual

theorem completes_binary (minimum : Nat) (s : State) {s' : State} {e : Expr Unit}
    (gives : Gives (binary minimum s) e s') : Completes s.exprs e.completed s'.exprs := by
  rcases gives_binary.mp gives with ⟨left, s₁, operand, whole⟩
  have shorter := operand.remaining_lt
  exact completes_climb minimum s₁ whole (completes_unary s operand)
termination_by (s.remaining, 3)

theorem completes_climb (minimum : Nat) (s : State) {s' : State} {left e : Expr Unit}
    {first : Nat} (reaches : Reaches (climb minimum left s) e s')
    (before : Completes first left.completed s.exprs) : Completes first e.completed s'.exprs := by
  by_cases question : s.kind = .mark .question
  · by_cases binds : minimum ≤ ternaryPrecedence
    · rcases (reaches_climb_of_question question binds).mp reaches with
        ⟨thenBranch, s₁, colon, readThen, elseBranch, s₂, readElse, whole⟩
      have shorter := State.remaining_advance_lt_of_mark question
      have shorter₁ := readThen.remaining_lt
      have shorter₂ := State.remaining_advance_lt_of_mark colon
      have shorter₃ := readElse.remaining_lt
      have then' := completes_binary 0 s.advance readThen
      have else' := completes_binary _ s₁.advance readElse
      exact completes_climb minimum s₂.addExpr whole
        (((before.append then').append else').node rfl trivial)
    · have ends : EndsOperand minimum s.kind :=
        ⟨fun _ => by omega, by simp [question, Token.Kind.infixOperator?,
          Token.Kind.operatorSymbol?, Mark.isOperator]⟩
      rcases (reaches_climb_of_ends ends).mp reaches with ⟨rfl, rfl⟩
      exact before
  · cases found : s.kind.infixOperator? with
    | none =>
        have ends : EndsOperand minimum s.kind := ⟨fun h => absurd h question, by simp [found]⟩
        rcases (reaches_climb_of_ends ends).mp reaches with ⟨rfl, rfl⟩
        exact before
    | some op =>
        by_cases binds : minimum ≤ op.precedence
        · rcases (reaches_climb_of_operator found binds).mp reaches with ⟨right, s₁, operand, whole⟩
          have shorter := State.remaining_advance_lt_of_infix found
          have shorter₁ := operand.remaining_lt
          have right' := completes_binary _ s.advance operand
          exact completes_climb minimum s₁.addExpr whole
            (.binary (ne_typeCast_of_infixOperator? found) before right' rfl)
        · have ends : EndsOperand minimum s.kind :=
            ⟨fun h => absurd h question, fun other same => by
              cases found.symm.trans same
              omega⟩
          rcases (reaches_climb_of_ends ends).mp reaches with ⟨rfl, rfl⟩
          exact before
termination_by (s.remaining, 4)

theorem completes_unary (s : State) {s' : State} {e : Expr Unit}
    (gives : Gives (unary s) e s') : Completes s.exprs e.completed s'.exprs := by
  cases found : s.kind.prefixOperator? with
  | some op =>
      rcases (gives_unary_of_operator found).mp gives with ⟨operand, s₁, rfl, read, rfl⟩
      have shorter := State.remaining_advance_lt_of_prefix found
      exact (completes_unary s.advance read).node rfl trivial
  | none =>
      by_cases cast : OpensCast s
      · rcases (gives_unary_of_cast cast).mp gives with
          ⟨target, s₁, close, readTarget, operand, s₂, rfl, read, rfl⟩
        have shorter := State.remaining_advance_lt_of_mark cast.1
        have shorter₁ := readTarget.remaining_lt
        have shorter₂ := State.remaining_advance_lt_of_mark close
        have literal := State.exprs_eq (counts_typeExpr s.advance readTarget)
        have operand' := completes_unary s₁.advance.addExpr read
        -- The type of a cast is complete before the operand.
        have single : Completes s.exprs
            [(Expr.typeLiteral (s₁.advance.exprNode (s₁.spanFrom s.span)) target).entry]
            (s.exprs + 1) := (Completes.nil s.exprs).node literal trivial
        have first : s₁.advance.addExpr.exprs = s.exprs + 1 := congrArg Nat.succ literal
        rw [first] at operand'
        exact (single.append operand').node rfl trivial
      · rw [unary_of_postfixed found cast] at gives
        exact completes_postfixed s gives
termination_by (s.remaining, 2)

theorem completes_postfixed (s : State) {s' : State} {e : Expr Unit}
    (gives : Gives (postfixed s) e s') : Completes s.exprs e.completed s'.exprs := by
  rcases gives_postfixed.mp gives with ⟨head, s₁, read, whole⟩
  have shorter := read.remaining_lt
  exact completes_suffixes s₁ whole (completes_primary s read)
termination_by (s.remaining, 1)

theorem completes_suffixes (s : State) {s' : State} {head e : Expr Unit} {first : Nat}
    (reaches : Reaches (suffixes head s) e s')
    (before : Completes first head.completed s.exprs) : Completes first e.completed s'.exprs := by
  by_cases bracket : s.kind = .mark .leftBracket
  · rcases (reaches_suffixes_of_bracket bracket).mp reaches with
      ⟨subscript, s₁, close, read, whole⟩
    have shorter := State.remaining_advance_lt_of_mark bracket
    have shorter₁ := read.remaining_lt
    have shorter₂ := State.remaining_advance_lt_of_mark close
    have subscript' := completes_binary 0 s.advance read
    exact completes_suffixes s₁.advance.addExpr whole
      ((before.append subscript').node rfl trivial)
  · by_cases paren : s.kind = .mark .leftParen
    · rcases (reaches_suffixes_of_paren paren).mp reaches with ⟨args, s₁, read, whole⟩
      have shorter := State.remaining_advance_lt_of_mark paren
      have shorter₁ := read.remaining_lt
      have args' := completes_exprList .rightParen s.advance read
      exact completes_suffixes s₁.addExpr whole ((before.append args').node rfl trivial)
    · rcases (reaches_suffixes_of_ne bracket paren).mp reaches with ⟨rfl, rfl⟩
      exact before
termination_by (s.remaining, 0)

theorem completes_primary (s : State) {s' : State} {e : Expr Unit}
    (gives : Gives (primary s) e s') : Completes s.exprs e.completed s'.exprs := by
  rcases primary_cases gives with ⟨value, found, rfl, rfl⟩ | ⟨name, found, rfl, rfl⟩ |
    ⟨found, s₁, close, inner, rfl⟩ | ⟨found, items, s₁, rfl, list, rfl⟩
  · exact (Completes.nil s.exprs).node rfl (isRead_of_constant? found)
  · exact (Completes.nil s.exprs).node rfl trivial
  · have shorter := State.remaining_advance_lt_of_mark found
    have inner' := completes_binary 0 s.advance inner
    exact inner'
  · have shorter := State.remaining_advance_lt_of_mark found
    have items' := completes_exprList .rightBrace s.advance list
    exact items'.node rfl trivial
termination_by (s.remaining, 0)

theorem completes_exprList (close : Mark) (s : State) {s' : State} {items : List (Expr Unit)}
    (gives : Gives (exprList close s) items s') :
    Completes s.exprs (Expr.completedAll items) s'.exprs := by
  by_cases found : s.kind = .mark close
  · rcases (gives_exprList_of_close found).mp gives with ⟨rfl, rfl⟩
    exact .nil s.exprs
  · rw [exprList_of_ne found] at gives
    exact completes_listFrom close s gives
termination_by (s.remaining, 5)

theorem completes_listFrom (close : Mark) (s : State) {s' : State} {items : List (Expr Unit)}
    (gives : Gives (listFrom close s) items s') :
    Completes s.exprs (Expr.completedAll items) s'.exprs := by
  rcases gives_listFrom.mp gives with
    ⟨first, s₁, head, ⟨comma, rest, rfl, tail⟩ | ⟨-, rfl, -, rfl⟩⟩
  · have shorter := head.remaining_lt
    have shorter' := State.remaining_advance_lt_of_mark comma
    have first' := completes_binary 0 s head
    exact first'.append (completes_listFrom close s₁.advance tail)
  · have first' := completes_binary 0 s head
    exact first'.append (.nil s₁.exprs)
termination_by (s.remaining, 4)

end

theorem completes_expression {e : Expr Unit} (gives : Gives (expression s) e s') :
    Completes s.exprs e.completed s'.exprs :=
  completes_binary 0 s gives

theorem completes_condition {cond : Expr Unit} (gives : Gives (condition s) cond s') :
    Completes s.exprs cond.completed s'.exprs := by
  rcases gives_condition.mp gives with ⟨-, s₁, -, read, rfl⟩
  have cond' := completes_expression read
  exact cond'

theorem completes_optionalBefore {mark : Mark} {e : Option (Expr Unit)}
    (gives : Gives (optionalBefore mark s) e s') :
    Completes s.exprs (Expr.completedOption e) s'.exprs := by
  by_cases close : s.kind = .mark mark
  · rcases (gives_optionalBefore_none close).mp gives with ⟨rfl, rfl⟩
    exact .nil s.exprs
  · rcases (gives_optionalBefore_some close).mp gives with ⟨value, rfl, s₁, -, read, rfl⟩
    have value' := completes_expression read
    exact value'

/-! ## Statements -/

theorem completes_varDecl {stmt : Stmt Unit} (gives : Gives (varDecl s) stmt s') :
    Completes s.exprs stmt.completed s'.exprs := by
  rcases gives_varDecl.mp gives with ⟨bound, s₁, declared, -, init, s₂, read, -, rfl, rfl⟩
  have header := State.exprs_eq (counts_binder declared)
  have init' := completes_expression read
  rw [State.exprs_advance, header] at init'
  exact init'

theorem completes_exprStmt {stmt : Stmt Unit} (gives : Gives (exprStmt s) stmt s') :
    Completes s.exprs stmt.completed s'.exprs := by
  rcases gives_exprStmt.mp gives with ⟨e, s₁, read, -, rfl, rfl⟩
  have e' := completes_expression read
  exact e'

theorem completes_forInit {init : Option (Stmt Unit)} (gives : Gives (forInit s) init s') :
    Completes s.exprs (Stmt.completedOption init) s'.exprs := by
  by_cases close : s.kind = .mark .semicolon
  · rcases (gives_forInit_none close).mp gives with ⟨rfl, rfl⟩
    exact .nil s.exprs
  · rcases (gives_forInit_some close).mp gives with ⟨stmt, rfl, declared | ⟨-, read⟩⟩
    · exact completes_varDecl declared
    · exact completes_exprStmt read

mutual

theorem completes_statement (s : State) {s' : State} {stmt : Stmt Unit}
    (gives : Gives (statement s) stmt s') : Completes s.exprs stmt.completed s'.exprs := by
  rcases gives_statement.mp gives with h | ⟨-, h | ⟨-, h | ⟨-, h | ⟨-, h | ⟨-, h | ⟨-, h | ⟨-,
    h | ⟨-, h | ⟨-, h | ⟨-, h | ⟨-, h⟩⟩⟩⟩⟩⟩⟩⟩⟩⟩⟩
  · exact completes_block s h
  · exact completes_functionDecl s h
  · exact completes_varDecl h
  · rcases gives_returnStmt.mp h with ⟨-, value, s₁, read, rfl, rfl⟩
    have value' := completes_optionalBefore read
    exact value'
  · exact completes_whileStmt s h
  · exact completes_ifStmt s h
  · rcases gives_breakStmt.mp h with ⟨-, -, rfl, rfl⟩
    exact .nil s.exprs
  · rcases gives_continueStmt.mp h with ⟨-, -, rfl, rfl⟩
    exact .nil s.exprs
  · exact completes_doWhileStmt s h
  · exact completes_forEachStmt s h
  · exact completes_forStmt s h
  · exact completes_exprStmt h
termination_by (s.remaining, 1)

theorem completes_blockBody (s : State) {s' : State} {stmts : List (Stmt Unit)}
    (gives : Gives (blockBody s) stmts s') :
    Completes s.exprs (Stmt.completedAll stmts) s'.exprs := by
  by_cases close : s.kind = .mark .rightBrace
  · rcases (gives_blockBody_nil close).mp gives with ⟨rfl, rfl⟩
    exact .nil s.exprs
  · rcases (gives_blockBody_cons close).mp gives with ⟨-, first, s₁, head, rest, rfl, tail⟩
    have shorter := head.remaining_lt
    exact (completes_statement s head).append (completes_blockBody s₁ tail)
termination_by (s.remaining, 2)

theorem completes_block (s : State) {s' : State} {stmt : Stmt Unit}
    (gives : Gives (block s) stmt s') : Completes s.exprs stmt.completed s'.exprs := by
  rcases gives_block.mp gives with ⟨brace, stmts, s₁, body, rfl, rfl⟩
  have shorter := State.remaining_advance_lt_of_mark brace
  have body' := completes_blockBody s.advance body
  exact body'
termination_by (s.remaining, 0)

theorem completes_functionDecl (s : State) {s' : State} {stmt : Stmt Unit}
    (gives : Gives (functionDecl s) stmt s') : Completes s.exprs stmt.completed s'.exprs := by
  rcases gives_functionDecl.mp gives with
    ⟨ret, s₁, readRet, name, ident, paren, bound, s₂, readParams, brace, body, s₃, read, rfl, rfl⟩
  have shorter := readRet.remaining_lt
  have shorter₁ := State.remaining_advance_lt_of_ident ident
  have shorter₂ := State.remaining_advance_lt_of_mark paren
  have shorter₃ := readParams.remaining_lt
  have shorter₄ := State.remaining_advance_lt_of_mark brace
  have ret' := State.exprs_eq (counts_typeExpr s readRet)
  have params' := State.exprs_eq (counts_params readParams)
  have body' := completes_blockBody s₂.advance read
  rw [State.exprs_advance, params', State.exprs_advance, State.exprs_advance, ret'] at body'
  exact body'
termination_by (s.remaining, 0)

theorem completes_whileStmt (s : State) {s' : State} {stmt : Stmt Unit}
    (gives : Gives (whileStmt s) stmt s') : Completes s.exprs stmt.completed s'.exprs := by
  rcases gives_whileStmt.mp gives with ⟨keyword, cond, s₁, test, body, s₂, read, rfl, rfl⟩
  have shorter := State.remaining_advance_lt_of_keyword keyword
  have shorter₁ := test.remaining_lt
  have body' := completes_statement s₁ read
  exact (completes_condition test).append body'
termination_by (s.remaining, 0)

theorem completes_ifStmt (s : State) {s' : State} {stmt : Stmt Unit}
    (gives : Gives (ifStmt s) stmt s') : Completes s.exprs stmt.completed s'.exprs := by
  rcases gives_ifStmt.mp gives with ⟨keyword, cond, s₁, test, thenBranch, s₂, readThen, rest⟩
  have shorter := State.remaining_advance_lt_of_keyword keyword
  have shorter₁ := test.remaining_lt
  have shorter₂ := readThen.remaining_lt
  have before := (completes_condition test).append (completes_statement s₁ readThen)
  rcases rest with ⟨isElse, elseBranch, s₃, readElse, rfl, rfl⟩ | ⟨noElse, rfl, rfl⟩
  · have shorter₃ := State.remaining_advance_lt_of_keyword isElse
    have else' := completes_statement s₂.advance readElse
    exact before.append else'
  · exact before.append (.nil s₂.exprs)
termination_by (s.remaining, 0)

theorem completes_doWhileStmt (s : State) {s' : State} {stmt : Stmt Unit}
    (gives : Gives (doWhileStmt s) stmt s') : Completes s.exprs stmt.completed s'.exprs := by
  rcases gives_doWhileStmt.mp gives with
    ⟨keyword, body, s₁, read, isWhile, cond, s₂, test, semicolon, rfl, rfl⟩
  have shorter := State.remaining_advance_lt_of_keyword keyword
  have body' := completes_statement s.advance read
  have cond' := completes_condition test
  exact body'.append cond'
termination_by (s.remaining, 0)

theorem completes_forEachStmt (s : State) {s' : State} {stmt : Stmt Unit}
    (gives : Gives (forEachStmt s) stmt s') : Completes s.exprs stmt.completed s'.exprs := by
  rcases gives_forEachStmt.mp gives with ⟨keyword, paren, bound, s₁, declared, colon, iterable, s₂,
    readIterable, close, body, s₃, read, rfl, rfl⟩
  have shorter := State.remaining_advance_lt_of_keyword keyword
  have shorter₁ := State.remaining_advance_lt_of_mark paren
  have shorter₂ := declared.remaining_lt
  have shorter₃ := State.remaining_advance_lt_of_mark colon
  have shorter₄ := readIterable.remaining_lt
  have shorter₅ := State.remaining_advance_lt_of_mark close
  have header := State.exprs_eq (counts_binder declared)
  have iterable' := completes_expression readIterable
  rw [State.exprs_advance, header] at iterable'
  have body' := completes_statement s₂.advance read
  exact iterable'.append body'
termination_by (s.remaining, 0)

theorem completes_forStmt (s : State) {s' : State} {stmt : Stmt Unit}
    (gives : Gives (forStmt s) stmt s') : Completes s.exprs stmt.completed s'.exprs := by
  rcases gives_forStmt.mp gives with ⟨keyword, paren, init, s₁, readInit, cond, s₂, readCond, step,
    s₃, readStep, body, s₄, read, rfl, rfl⟩
  have shorter := State.remaining_advance_lt_of_keyword keyword
  have shorter₁ := State.remaining_advance_lt_of_mark paren
  have shorter₂ := readInit.remaining_lt
  have shorter₃ := readCond.remaining_lt
  have shorter₄ := readStep.remaining_lt
  have init' := completes_forInit readInit
  have cond' := completes_optionalBefore readCond
  have step' := completes_optionalBefore readStep
  have body' := completes_statement s₃ read
  exact ((init'.append cond').append step').append body'
termination_by (s.remaining, 0)

end

/-! ## Programs -/

theorem completes_wholeExpression {e : Expr Unit} (read : wholeExpression s = .ok (e, s')) :
    Completes s.exprs e.completed s'.exprs := by
  unfold wholeExpression at read
  cases first : expression s with
  | error error => rw [first] at read; cases read
  | ok parsed =>
      rw [first] at read
      obtain ⟨value, s₁, shorter⟩ := parsed
      simp only [bind, Except.bind] at read
      split at read
      · cases read
        exact completes_expression ⟨shorter, first⟩
      · cases read

theorem completes_programBody (s : State) {s' : State} {body : List (Stmt Unit)}
    {tail : Option (Expr Unit)} (read : programBody s = .ok (body, tail, s')) :
    Completes s.exprs (Stmt.completedAll body ++ Expr.completedOption tail) s'.exprs := by
  rw [programBody] at read
  split at read
  · cases read
    exact .nil s.exprs
  · split at read
    · next first s₁ shorter given =>
        cases rest : programBody s₁ with
        | error error => rw [rest] at read; cases read
        | ok found =>
            obtain ⟨rest', tail', last⟩ := found
            rw [rest] at read
            cases read
            have whole := (completes_statement s ⟨shorter, given⟩).append
              (completes_programBody s₁ rest)
            rwa [← List.append_assoc] at whole
    · next error given =>
        cases whole : wholeExpression s with
        | error other => rw [whole] at read; cases read
        | ok found =>
            obtain ⟨e, last⟩ := found
            rw [whole] at read
            cases read
            exact completes_wholeExpression whole
termination_by s.remaining

theorem completes_parse {tokens : TokenList} {output : Output}
    (parsed : parse tokens = .ok output) :
    Completes 0 output.program.completed output.exprs := by
  unfold parse at parsed
  dsimp only at parsed
  cases read : programBody (State.ofTokens tokens) with
  | error error => rw [read] at parsed; cases parsed
  | ok found =>
      obtain ⟨body, tail, last⟩ := found
      rw [read] at parsed
      cases parsed
      exact completes_programBody _ read

theorem completes_parseExpression {tokens : TokenList} {output : Output}
    (parsed : parseExpression tokens = .ok output) :
    Completes 0 output.program.completed output.exprs := by
  unfold parseExpression at parsed
  dsimp only at parsed
  cases read : wholeExpression (State.ofTokens tokens) with
  | error error => rw [read] at parsed; cases parsed
  | ok found =>
      obtain ⟨e, last⟩ := found
      rw [read] at parsed
      cases parsed
      exact completes_wholeExpression read

end Parser

/-- Reading numbers the expressions of a tree from zero on. -/
theorem Mode.completes_of_parse {mode : Mode} {tokens : TokenList} {output : Parser.Output}
    (parsed : mode.parse tokens = .ok output) :
    Parser.Completes 0 output.program.completed output.exprs := by
  cases mode with
  | program => exact Parser.completes_parse parsed
  | expression => exact Parser.completes_parseExpression parsed

/-- No number is left out, and none is given twice. -/
theorem Mode.numbers_of_parse {mode : Mode} {tokens : TokenList} {output : Parser.Output}
    (parsed : mode.parse tokens = .ok output) :
    output.program.numbers.Perm (List.range output.exprs) := by
  obtain ⟨last, inTurn, -⟩ := completes_of_parse parsed
  rw [Nat.zero_add] at last
  rw [ExprEntry.InTurn, ← last, ← List.range_eq_range'] at inTurn
  rw [← inTurn]
  exact (output.program.completed_perm.map ExprEntry.number).symm

theorem Mode.isRead_of_parse {mode : Mode} {tokens : TokenList} {output : Parser.Output}
    (parsed : mode.parse tokens = .ok output) :
    ∀ entry ∈ output.program.entries, entry.form.IsRead := fun entry member =>
  (completes_of_parse parsed).isRead entry (output.program.completed_perm.symm.subset member)

theorem Mode.exprSize_of_parse {mode : Mode} {tokens : TokenList} {output : Parser.Output}
    (parsed : mode.parse tokens = .ok output) : output.program.exprSize = output.exprs := by
  have length := (numbers_of_parse parsed).length_eq
  simpa [Program.numbers, ExprEntry.numbers, Program.length_entries] using length

end Formulae
