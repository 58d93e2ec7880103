import Formulae.Proofs.Parser.ExprLaws
import Formulae.Proofs.Tree.Renamed

/-!
# Expressions read from source

Whatever the grammar makes of tokens that source can give is a tree that source
can give.  Reading an expression completes no statement.
-/

namespace Formulae.Parser

variable {floats : Float → Prop} {s s' : State}

/-! ## The tokens ahead -/

/-- Source can give every token ahead. -/
def State.Lexed (floats : Float → Prop) (s : State) : Prop :=
  ∀ token ∈ s.cursor.ahead, token.kind.Lexed floats

theorem State.Lexed.advance (lexed : s.Lexed floats) : s.advance.Lexed floats := by
  intro token member
  apply lexed token
  cases ahead : s.cursor.ahead with
  | nil => simp [State.advance, Cursor.advance, ahead] at member
  | cons first rest =>
      simp only [State.advance, Cursor.advance, ahead] at member
      exact List.mem_cons_of_mem _ member

theorem State.Lexed.kind (lexed : s.Lexed floats) {kind : Token.Kind} (h : s.kind = kind)
    (real : kind ≠ .endOfInput) : kind.Lexed floats := by
  subst h
  unfold State.kind Cursor.kind Cursor.current at real ⊢
  cases ahead : s.cursor.ahead with
  | nil => simp [ahead] at real
  | cons first rest => exact lexed first (by simp [ahead])

theorem State.Lexed.isName (lexed : s.Lexed floats) {name : String} (h : s.kind = .ident name) :
    Lexer.IsName name :=
  lexed.kind h (by simp)

/-- What reading leaves behind: tokens that source can give, and no statement more
than before. -/
structure Leaves (floats : Float → Prop) (s s' : State) : Prop where
  lexed : s'.Lexed floats
  stmts : s'.stmts = s.stmts

theorem Leaves.advance (lexed : s.Lexed floats) : Leaves floats s s.advance :=
  ⟨lexed.advance, rfl⟩

theorem Leaves.trans {s₁ : State} (first : Leaves floats s s₁) (second : Leaves floats s₁ s') :
    Leaves floats s s' :=
  ⟨second.lexed, second.stmts.trans first.stmts⟩

theorem Leaves.addExpr (leaves : Leaves floats s s') : Leaves floats s s'.addExpr :=
  ⟨leaves.lexed, leaves.stmts⟩

theorem Leaves.andAdvance (leaves : Leaves floats s s') : Leaves floats s s'.advance :=
  leaves.trans (.advance leaves.lexed)

/-! ## Types -/

/-- A readable type after which the tokens are as they should be. -/
structure TypeRead (floats : Float → Prop) (s : State) (type : TypeExpr) (s' : State) : Prop where
  readable : type.Readable
  word : s.kind.isTypeWord → type.startsWithWord
  leaves : Leaves floats s s'

theorem arraySuffix_sound (element : TypeExpr) (s : State) (lexed : s.Lexed floats)
    (readable : element.Readable) (noFunction : element.isFunction = false) :
    (arraySuffix element s).value.Readable ∧
      (element.startsWithWord → (arraySuffix element s).value.startsWithWord) ∧
        Leaves floats s (arraySuffix element s).state := by
  by_cases brackets : s.kind = .mark .leftBracket ∧ s.advance.kind = .mark .rightBracket
  · have shorter := State.remaining_advance_lt_of_mark brackets.1
    have shorter' := State.remaining_advance_lt_of_mark brackets.2
    rcases arraySuffix_of_brackets element brackets.1 brackets.2 with ⟨value, state⟩
    rcases arraySuffix_sound (.array element) s.advance.advance lexed.advance.advance
      ⟨readable, noFunction⟩ rfl with ⟨readable', word', leaves'⟩
    rw [value, state]
    exact ⟨readable', word', (Leaves.advance lexed).andAdvance.trans leaves'⟩
  · rw [arraySuffix_of_stop _ fun opening closing => brackets ⟨opening, closing⟩]
    exact ⟨readable, id, lexed, rfl⟩
termination_by s.remaining

mutual

theorem typeExpr_sound (s : State) {s' : State} {type : TypeExpr} (lexed : s.Lexed floats)
    (gives : Gives (typeExpr s) type s') : TypeRead floats s type s' := by
  cases kind : s.kind with
  | basicType word =>
      rw [gives_typeExpr_basic kind] at gives
      rcases arraySuffix_sound (.basic word) s.advance lexed.advance trivial rfl with
        ⟨readable, startsWithWord, leaves⟩
      rw [gives.1] at readable startsWithWord
      rw [gives.2] at leaves
      exact ⟨readable, fun _ => startsWithWord rfl, (Leaves.advance lexed).trans leaves⟩
  | ident name =>
      rw [gives_typeExpr_named kind] at gives
      rcases arraySuffix_sound (.named name) s.advance lexed.advance (lexed.isName kind)
        rfl with ⟨readable, -, leaves⟩
      rw [gives.1] at readable
      rw [gives.2] at leaves
      exact ⟨readable, by simp [kind, Token.Kind.isTypeWord], (Leaves.advance lexed).trans leaves⟩
  | keyword word =>
      by_cases isFunction : word = .functionWord
      · subst isFunction
        have shorter := State.remaining_advance_lt_of_keyword kind
        rw [gives_typeExpr_function kind] at gives
        rcases gives with ⟨paren, params, s₁, arrow, list, ret, rfl, result⟩
        have shorter' := State.remaining_advance_lt_of_mark paren
        have shorter₁ := list.remaining_lt
        have shorter₂ := State.remaining_advance_lt_of_mark arrow
        rcases typeList_sound s.advance.advance lexed.advance.advance list with ⟨params', leaves₁⟩
        have ret' := typeExpr_sound s₁.advance leaves₁.lexed.advance result
        exact ⟨⟨params', ret'.readable⟩, fun _ => rfl,
          ((Leaves.advance lexed).andAdvance.trans leaves₁).andAdvance.trans ret'.leaves⟩
      · exact absurd gives (fails_typeExpr (by cases word <;> simp_all [Token.Kind.isTypeWord])
          (by simp [kind]) _ _)
  | _ => exact absurd gives (fails_typeExpr (by simp [kind, Token.Kind.isTypeWord])
      (by simp [kind]) _ _)
termination_by (s.remaining, 0)

theorem typeList_sound (s : State) {s' : State} {types : List TypeExpr} (lexed : s.Lexed floats)
    (gives : Gives (typeList s) types s') : TypeExpr.ReadableAll types ∧ Leaves floats s s' := by
  by_cases close : s.kind = .mark .rightParen
  · rw [gives_typeList_nil close] at gives
    rcases gives with ⟨rfl, rfl⟩
    exact ⟨trivial, .advance lexed⟩
  · rw [gives_typeList_cons close] at gives
    exact typesFrom_sound s lexed gives
termination_by (s.remaining, 2)

theorem typesFrom_sound (s : State) {s' : State} {types : List TypeExpr} (lexed : s.Lexed floats)
    (gives : Gives (typesFrom s) types s') : TypeExpr.ReadableAll types ∧ Leaves floats s s' := by
  rw [gives_typesFrom] at gives
  rcases gives with ⟨first, s₁, head, ⟨comma, rest, rfl, tail⟩ | ⟨rfl, -, rfl⟩⟩
  · have shorter := head.remaining_lt
    have shorter' := State.remaining_advance_lt_of_mark comma
    have first' := typeExpr_sound s lexed head
    rcases typesFrom_sound s₁.advance first'.leaves.lexed.advance tail with ⟨rest', leaves⟩
    exact ⟨⟨first'.readable, rest'⟩, first'.leaves.andAdvance.trans leaves⟩
  · have first' := typeExpr_sound s lexed head
    exact ⟨⟨first'.readable, trivial⟩, first'.leaves.andAdvance⟩
termination_by (s.remaining, 1)

end

/-! ## Operators and constants -/

theorem isInfix_of_infixOperator? {kind : Token.Kind} {op : Operator}
    (found : kind.infixOperator? = some op) : op.IsInfix := by
  cases kind with
  | mark symbol => cases symbol <;> cases found <;> exact ⟨rfl, rfl⟩
  | _ => cases found

theorem isPrefix_of_prefixOperator? {kind : Token.Kind} {op : Operator}
    (found : kind.prefixOperator? = some op) : op.IsPrefix := by
  cases kind with
  | mark symbol => cases symbol <;> cases found <;> rfl
  | _ => cases found

theorem readable_of_constant? {kind : Token.Kind} {value : Constant}
    (found : constant? kind = some value) (lexed : kind.Lexed floats) : value.Readable floats := by
  cases kind with
  | keyword word => cases word <;> cases found <;> trivial
  | int | float | string => cases found; exact lexed
  | _ => cases found

/-! ## Expressions -/

/-- A readable expression after which the tokens are as they should be. -/
structure ExprRead (floats : Float → Prop) (s : State) (e : Expr Unit) (s' : State) : Prop where
  readable : e.Readable floats
  leaves : Leaves floats s s'

mutual

theorem binary_sound (minimum : Nat) (s : State) {s' : State} {e : Expr Unit}
    (lexed : s.Lexed floats) (gives : Gives (binary minimum s) e s') : ExprRead floats s e s' := by
  rcases gives_binary.mp gives with ⟨left, s₁, operand, whole⟩
  have shorter := operand.remaining_lt
  have left' := unary_sound s lexed operand
  have whole' := climb_sound minimum s₁ left'.leaves.lexed whole left'.readable
  exact ⟨whole'.readable, left'.leaves.trans whole'.leaves⟩
termination_by (s.remaining, 3)

theorem climb_sound (minimum : Nat) (s : State) {s' : State} {left e : Expr Unit}
    (lexed : s.Lexed floats) (reaches : Reaches (climb minimum left s) e s')
    (readable : left.Readable floats) : ExprRead floats s e s' := by
  by_cases question : s.kind = .mark .question
  · by_cases binds : minimum ≤ ternaryPrecedence
    · rcases (reaches_climb_of_question question binds).mp reaches with
        ⟨thenBranch, s₁, colon, readThen, elseBranch, s₂, readElse, whole⟩
      have shorter := State.remaining_advance_lt_of_mark question
      have shorter₁ := readThen.remaining_lt
      have shorter₂ := State.remaining_advance_lt_of_mark colon
      have shorter₃ := readElse.remaining_lt
      have then' := binary_sound 0 s.advance lexed.advance readThen
      have else' := binary_sound _ s₁.advance then'.leaves.lexed.advance readElse
      have leaves : Leaves floats s s₂.addExpr :=
        (((Leaves.advance lexed).trans then'.leaves).andAdvance.trans else'.leaves).addExpr
      have whole' := climb_sound minimum s₂.addExpr leaves.lexed whole
        ⟨readable, then'.readable, else'.readable⟩
      exact ⟨whole'.readable, leaves.trans whole'.leaves⟩
    · have ends : EndsOperand minimum s.kind :=
        ⟨fun _ => by omega, by simp [question, Token.Kind.infixOperator?,
          Token.Kind.operatorSymbol?, Mark.isOperator]⟩
      rcases (reaches_climb_of_ends ends).mp reaches with ⟨rfl, rfl⟩
      exact ⟨readable, lexed, rfl⟩
  · cases found : s.kind.infixOperator? with
    | none =>
        have ends : EndsOperand minimum s.kind := ⟨fun h => absurd h question, by simp [found]⟩
        rcases (reaches_climb_of_ends ends).mp reaches with ⟨rfl, rfl⟩
        exact ⟨readable, lexed, rfl⟩
    | some op =>
        by_cases binds : minimum ≤ op.precedence
        · rcases (reaches_climb_of_operator found binds).mp reaches with ⟨right, s₁, operand, whole⟩
          have shorter := State.remaining_advance_lt_of_infix found
          have shorter₁ := operand.remaining_lt
          have right' := binary_sound _ s.advance lexed.advance operand
          have leaves : Leaves floats s s₁.addExpr :=
            ((Leaves.advance lexed).trans right'.leaves).addExpr
          have whole' := climb_sound minimum s₁.addExpr leaves.lexed whole
            (Expr.readable_binary_of_infix (isInfix_of_infixOperator? found) readable
              right'.readable)
          exact ⟨whole'.readable, leaves.trans whole'.leaves⟩
        · have ends : EndsOperand minimum s.kind :=
            ⟨fun h => absurd h question, fun other same => by
              cases found.symm.trans same
              omega⟩
          rcases (reaches_climb_of_ends ends).mp reaches with ⟨rfl, rfl⟩
          exact ⟨readable, lexed, rfl⟩
termination_by (s.remaining, 4)

theorem unary_sound (s : State) {s' : State} {e : Expr Unit} (lexed : s.Lexed floats)
    (gives : Gives (unary s) e s') : ExprRead floats s e s' := by
  cases found : s.kind.prefixOperator? with
  | some op =>
      rcases (gives_unary_of_operator found).mp gives with ⟨operand, s₁, rfl, read, rfl⟩
      have shorter := State.remaining_advance_lt_of_prefix found
      have operand' := unary_sound s.advance lexed.advance read
      exact ⟨⟨isPrefix_of_prefixOperator? found, operand'.readable⟩,
        ((Leaves.advance lexed).trans operand'.leaves).addExpr⟩
  | none =>
      by_cases cast : OpensCast s
      · rcases (gives_unary_of_cast cast).mp gives with
          ⟨target, s₁, close, readTarget, operand, s₂, rfl, read, rfl⟩
        have shorter := State.remaining_advance_lt_of_mark cast.1
        have shorter₁ := readTarget.remaining_lt
        have shorter₂ := State.remaining_advance_lt_of_mark close
        have target' := typeExpr_sound s.advance lexed.advance readTarget
        have leaves : Leaves floats s s₁.advance.addExpr :=
          ((Leaves.advance lexed).trans target'.leaves).andAdvance.addExpr
        have operand' := unary_sound s₁.advance.addExpr leaves.lexed read
        have word : s.advance.kind.isTypeWord := by
          rw [kind_advance_of_mark cast.1]
          exact cast.2
        exact ⟨Expr.readable_binary_of_cast operand'.readable
          ⟨target'.readable, target'.word word⟩, (leaves.trans operand'.leaves).addExpr⟩
      · rw [unary_of_postfixed found cast] at gives
        exact postfixed_sound s lexed gives
termination_by (s.remaining, 2)

theorem postfixed_sound (s : State) {s' : State} {e : Expr Unit} (lexed : s.Lexed floats)
    (gives : Gives (postfixed s) e s') : ExprRead floats s e s' := by
  rcases gives_postfixed.mp gives with ⟨head, s₁, read, whole⟩
  have shorter := read.remaining_lt
  have head' := primary_sound s lexed read
  have whole' := suffixes_sound s₁ head'.leaves.lexed whole head'.readable
  exact ⟨whole'.readable, head'.leaves.trans whole'.leaves⟩
termination_by (s.remaining, 1)

theorem suffixes_sound (s : State) {s' : State} {head e : Expr Unit} (lexed : s.Lexed floats)
    (reaches : Reaches (suffixes head s) e s') (readable : head.Readable floats) :
    ExprRead floats s e s' := by
  by_cases bracket : s.kind = .mark .leftBracket
  · rcases (reaches_suffixes_of_bracket bracket).mp reaches with
      ⟨subscript, s₁, close, read, whole⟩
    have shorter := State.remaining_advance_lt_of_mark bracket
    have shorter₁ := read.remaining_lt
    have shorter₂ := State.remaining_advance_lt_of_mark close
    have subscript' := binary_sound 0 s.advance lexed.advance read
    have leaves : Leaves floats s s₁.advance.addExpr :=
      ((Leaves.advance lexed).trans subscript'.leaves).andAdvance.addExpr
    have whole' := suffixes_sound s₁.advance.addExpr leaves.lexed whole
      ⟨readable, subscript'.readable⟩
    exact ⟨whole'.readable, leaves.trans whole'.leaves⟩
  · by_cases paren : s.kind = .mark .leftParen
    · rcases (reaches_suffixes_of_paren paren).mp reaches with ⟨args, s₁, read, whole⟩
      have shorter := State.remaining_advance_lt_of_mark paren
      have shorter₁ := read.remaining_lt
      rcases exprList_sound .rightParen s.advance lexed.advance read with ⟨args', leaves'⟩
      have leaves : Leaves floats s s₁.addExpr := ((Leaves.advance lexed).trans leaves').addExpr
      have whole' := suffixes_sound s₁.addExpr leaves.lexed whole ⟨readable, args'⟩
      exact ⟨whole'.readable, leaves.trans whole'.leaves⟩
    · rcases (reaches_suffixes_of_ne bracket paren).mp reaches with ⟨rfl, rfl⟩
      exact ⟨readable, lexed, rfl⟩
termination_by (s.remaining, 0)

theorem primary_sound (s : State) {s' : State} {e : Expr Unit} (lexed : s.Lexed floats)
    (gives : Gives (primary s) e s') : ExprRead floats s e s' := by
  rcases primary_cases gives with ⟨value, found, rfl, rfl⟩ | ⟨name, found, rfl, rfl⟩ |
    ⟨found, s₁, close, inner, rfl⟩ | ⟨found, items, s₁, rfl, list, rfl⟩
  · exact ⟨readable_of_constant? found
      (lexed.kind rfl (ne_endOfInput_of_constant? found)), (Leaves.advance lexed).addExpr⟩
  · exact ⟨lexed.isName found, (Leaves.advance lexed).addExpr⟩
  · have shorter := State.remaining_advance_lt_of_mark found
    have inner' := binary_sound 0 s.advance lexed.advance inner
    exact ⟨inner'.readable, ((Leaves.advance lexed).trans inner'.leaves).andAdvance⟩
  · have shorter := State.remaining_advance_lt_of_mark found
    rcases exprList_sound .rightBrace s.advance lexed.advance list with ⟨items', leaves⟩
    exact ⟨items', ((Leaves.advance lexed).trans leaves).addExpr⟩
termination_by (s.remaining, 0)

theorem exprList_sound (close : Mark) (s : State) {s' : State} {items : List (Expr Unit)}
    (lexed : s.Lexed floats) (gives : Gives (exprList close s) items s') :
    Expr.ReadableAll floats items ∧ Leaves floats s s' := by
  by_cases found : s.kind = .mark close
  · rcases (gives_exprList_of_close found).mp gives with ⟨rfl, rfl⟩
    exact ⟨trivial, .advance lexed⟩
  · rw [exprList_of_ne found] at gives
    exact listFrom_sound close s lexed gives
termination_by (s.remaining, 5)

theorem listFrom_sound (close : Mark) (s : State) {s' : State} {items : List (Expr Unit)}
    (lexed : s.Lexed floats) (gives : Gives (listFrom close s) items s') :
    Expr.ReadableAll floats items ∧ Leaves floats s s' := by
  rcases gives_listFrom.mp gives with
    ⟨first, s₁, head, ⟨comma, rest, rfl, tail⟩ | ⟨-, rfl, -, rfl⟩⟩
  · have shorter := head.remaining_lt
    have shorter' := State.remaining_advance_lt_of_mark comma
    have first' := binary_sound 0 s lexed head
    rcases listFrom_sound close s₁.advance first'.leaves.lexed.advance tail with ⟨rest', leaves⟩
    exact ⟨⟨first'.readable, rest'⟩, first'.leaves.andAdvance.trans leaves⟩
  · have first' := binary_sound 0 s lexed head
    exact ⟨⟨first'.readable, trivial⟩, first'.leaves.andAdvance⟩
termination_by (s.remaining, 4)

end

theorem expression_sound {e : Expr Unit} (lexed : s.Lexed floats)
    (gives : Gives (expression s) e s') : ExprRead floats s e s' :=
  binary_sound 0 s lexed gives

end Formulae.Parser
