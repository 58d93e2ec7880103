import Formulae.Proofs.Parser.StmtLaws
import Formulae.Proofs.Parser.TypeReads
import Formulae.Proofs.Tree.Spelled

/-!
# Reading an expression passes the tokens that spell it

A rule that gives a phrase passes tokens that spell it, and no others (`Yields`).  The operand
before an operator and the head before a suffix are read first, so what has been read of an
expression is carried along while the rest of it is.
-/

namespace Formulae

/-! ## Passing tokens -/

/-- The tokens lie between the two places. -/
structure Cursor.Passes (c : Cursor) (tokens : List Token) (c' : Cursor) : Prop where
  ahead : c.ahead = tokens ++ c'.ahead
  passed : c'.passed = tokens.reverse ++ c.passed
  stop : c'.stop = c.stop

namespace Cursor.Passes

variable {c c₁ c' : Cursor} {tokens more : List Token}

theorem refl (c : Cursor) : c.Passes [] c :=
  ⟨rfl, rfl, rfl⟩

theorem append (first : c.Passes tokens c₁) (second : c₁.Passes more c') :
    c.Passes (tokens ++ more) c' := by
  constructor
  · rw [first.ahead, second.ahead, List.append_assoc]
  · rw [second.passed, first.passed, List.reverse_append, List.append_assoc]
  · rw [second.stop, first.stop]

theorem one (real : c.kind ≠ .endOfInput) : c.Passes [c.current] c.advance := by
  unfold Cursor.kind Cursor.current at real
  unfold Cursor.current Cursor.advance
  cases ahead : c.ahead with
  | nil => simp [ahead] at real
  | cons token rest => constructor <;> simp [ahead]

/-- One token more in front. -/
theorem cons (real : c.kind ≠ .endOfInput) (rest : c.advance.Passes tokens c') :
    c.Passes (c.current :: tokens) c' :=
  (one real).append rest

/-- One token more behind. -/
theorem concat (first : c.Passes tokens c₁) (real : c₁.kind ≠ .endOfInput) :
    c.Passes (tokens ++ [c₁.current]) c₁.advance :=
  first.append (one real)

/-- Tokens behind a closing one. -/
theorem closed {closing : Token} (first : c.Passes (tokens ++ [closing]) c₁)
    (second : c₁.Passes more c') : c.Passes (tokens ++ closing :: more) c' := by
  rw [List.append_cons]
  exact first.append second

theorem span (passes : c.Passes tokens c') (nonempty : tokens ≠ []) :
    c.span = (tokens.head?.map Token.span).getD ⟨0, 0⟩ := by
  cases tokens with
  | nil => exact absurd rfl nonempty
  | cons token rest => simp [Cursor.span, Cursor.current, passes.ahead]

theorem previousSpan (passes : c.Passes tokens c') (nonempty : tokens ≠ []) :
    c'.previousSpan = (tokens.getLast?.map Token.span).getD ⟨0, 0⟩ := by
  obtain ⟨front, last, rfl⟩ := (List.eq_nil_or_concat tokens).resolve_left nonempty
  simp [Cursor.previousSpan, passes.passed]

end Cursor.Passes

namespace Parser

variable {s s₁ s₂ s' : State} {tokens : List Token}

/-- A node that starts where tokens do and is complete behind them reaches over them. -/
theorem spanFrom_of_passes (passes : s.cursor.Passes tokens s'.cursor) (nonempty : tokens ≠ []) :
    s'.spanFrom s.span = Token.stretch tokens := by
  unfold State.spanFrom State.span Token.stretch
  rw [passes.span nonempty, passes.previousSpan nonempty]

theorem ne_endOfInput {kind : Token.Kind} (found : s.kind = kind) (real : kind ≠ .endOfInput) :
    s.cursor.kind ≠ .endOfInput := by
  rw [← found] at real
  exact real

/-! ## Types and declarations -/

/-- The tokens between two states are of the kinds that the pieces show. -/
def Writes (s : State) (pieces : List Piece) (s' : State) : Prop :=
  ∃ tokens, s.cursor.Passes tokens s'.cursor ∧ tokens.map Token.kind = Piece.tokens pieces

namespace Writes

variable {pieces more : List Piece} {kind : Token.Kind}

theorem append (first : Writes s pieces s₁) (second : Writes s₁ more s') :
    Writes s (pieces ++ more) s' := by
  obtain ⟨before, passes, kinds⟩ := first
  obtain ⟨after, passes', kinds'⟩ := second
  exact ⟨before ++ after, passes.append passes', by simp [kinds, kinds']⟩

theorem token (found : s.kind = kind) (real : kind ≠ .endOfInput) :
    Writes s [.token kind] s.advance :=
  ⟨[s.cursor.current], .one (ne_endOfInput found real), congrArg (fun kind => [kind]) found⟩

/-- Layout between the pieces is not read. -/
theorem layout (written : Writes s pieces s') (same : Piece.tokens pieces = Piece.tokens more) :
    Writes s more s' := by
  obtain ⟨tokens, passes, kinds⟩ := written
  exact ⟨tokens, passes, kinds.trans same⟩

end Writes

theorem writes_arraySuffix (element : TypeExpr) (s : State) {start : State}
    (written : Writes start element.pieces s) :
    Writes start (arraySuffix element s).value.pieces (arraySuffix element s).state := by
  by_cases brackets : s.kind = .mark .leftBracket ∧ s.advance.kind = .mark .rightBracket
  · obtain ⟨opening, closing⟩ := brackets
    have shorter := State.remaining_advance_lt_of_mark opening
    have shorter' := State.remaining_advance_lt_of_mark closing
    obtain ⟨value, state⟩ := arraySuffix_of_brackets element opening closing
    rw [value, state]
    have suffix := (Writes.token opening nofun).append (Writes.token closing nofun)
    exact writes_arraySuffix (.array element) s.advance.advance (written.append suffix)
  · rw [arraySuffix_of_stop _ fun opening closing => brackets ⟨opening, closing⟩]
    exact written
termination_by s.remaining

theorem typesFrom_ne_nil {types : List TypeExpr} (gives : Gives (typesFrom s) types s') :
    types ≠ [] := by
  rcases gives_typesFrom.mp gives with ⟨_, _, _, ⟨_, _, rfl, _⟩ | ⟨rfl, _⟩⟩ <;> simp

mutual

/-- Reading a type passes the tokens that are written for it. -/
theorem writes_typeExpr (s : State) {s' : State} {type : TypeExpr}
    (gives : Gives (typeExpr s) type s') : Writes s type.pieces s' := by
  cases kind : s.kind with
  | basicType word =>
      rcases (gives_typeExpr_basic kind).mp gives with ⟨rfl, rfl⟩
      exact writes_arraySuffix _ _ (.token kind nofun)
  | ident name =>
      rcases (gives_typeExpr_named kind).mp gives with ⟨rfl, rfl⟩
      exact writes_arraySuffix _ _ (.token kind nofun)
  | keyword word =>
      by_cases isFunction : word = .functionWord
      · subst isFunction
        have shorter := State.remaining_advance_lt_of_keyword kind
        rcases (gives_typeExpr_function kind).mp gives with
          ⟨paren, params, s₁, arrow, list, ret, rfl, result⟩
        have shorter' := State.remaining_advance_lt_of_mark paren
        have shorter₁ := list.remaining_lt
        have shorter₂ := State.remaining_advance_lt_of_mark arrow
        have opening := (Writes.token kind nofun).append (Writes.token paren nofun)
        have params' := writes_typeList s.advance.advance list
        have ret' := (Writes.token arrow nofun).append (writes_typeExpr s₁.advance result)
        exact ((opening.append params').append ret').layout (by
          simp [TypeExpr.pieces, Piece.keyword, Piece.mark])
      · exact absurd gives (fails_typeExpr (by cases word <;> simp_all [Token.Kind.isTypeWord])
          (by simp [kind]) _ _)
  | _ => exact absurd gives (fails_typeExpr (by simp [kind, Token.Kind.isTypeWord])
      (by simp [kind]) _ _)
termination_by (s.remaining, 0)

theorem writes_typeList (s : State) {s' : State} {types : List TypeExpr}
    (gives : Gives (typeList s) types s') :
    Writes s (Piece.separated Piece.comma (TypeExpr.piecesAll types) ++ [.mark .rightParen])
      s' := by
  by_cases close : s.kind = .mark .rightParen
  · rcases (gives_typeList_nil close).mp gives with ⟨rfl, rfl⟩
    exact .token close nofun
  · exact writes_typesFrom s ((gives_typeList_cons close).mp gives)
termination_by (s.remaining, 2)

theorem writes_typesFrom (s : State) {s' : State} {types : List TypeExpr}
    (gives : Gives (typesFrom s) types s') :
    Writes s (Piece.separated Piece.comma (TypeExpr.piecesAll types) ++ [.mark .rightParen])
      s' := by
  rcases gives_typesFrom.mp gives with
    ⟨first, s₁, head, ⟨comma, rest, rfl, tail⟩ | ⟨rfl, close, rfl⟩⟩
  · have shorter := head.remaining_lt
    have shorter' := State.remaining_advance_lt_of_mark comma
    have first' := (writes_typeExpr s head).append (.token comma nofun)
    have rest' := writes_typesFrom s₁.advance tail
    obtain ⟨next, others, rfl⟩ := List.exists_cons_of_ne_nil (typesFrom_ne_nil tail)
    exact (first'.append rest').layout (by
      simp [TypeExpr.piecesAll, Piece.tokens_separated_cons])
  · have first' := writes_typeExpr s head
    exact first'.append (.token close nofun)
termination_by (s.remaining, 1)

end

theorem writes_givesBinder {mutable : Bool} {bound : Binder}
    (gives : GivesBinder mutable s bound s') :
    bound.mutable = mutable ∧ Writes s (Binder.pieces ⟨false, bound.type, bound.name⟩) s' := by
  rcases gives with ⟨isVar, name, rfl, ident, rfl⟩ | ⟨-, type, s₁, read, name, rfl, ident, rfl⟩
  · exact ⟨rfl, ((Writes.token isVar nofun).append (.token ident nofun)).layout rfl⟩
  · have type' := writes_typeExpr s read
    exact ⟨rfl, (type'.append (.token ident nofun)).layout (by simp [Binder.pieces])⟩

theorem writes_binder {bound : Binder} (gives : Gives (binder s) bound s') :
    Writes s bound.pieces s' := by
  obtain ⟨mutable, type, name⟩ := bound
  by_cases isMut : s.kind = .keyword .mutWord
  · obtain ⟨rfl, rest⟩ := writes_givesBinder ((gives_binder_of_mut isMut).mp gives)
    exact ((Writes.token isMut nofun).append rest).layout (by simp [Binder.pieces, Piece.keyword])
  · obtain ⟨rfl, rest⟩ := writes_givesBinder ((gives_binder_of_ne isMut).mp gives)
    exact rest

/-- Reading a parameter passes the tokens that are written for it, and it reaches over them. -/
theorem writes_param {bound : Param} (gives : Gives (param s) bound s') :
    Writes s bound.pieces s' ∧ bound.span = s'.spanFrom s.span := by
  by_cases isMut : s.kind = .keyword .mutWord
  · rcases (gives_param_of_mut isMut).mp gives with ⟨type, s₁, read, name, rfl, ident, rfl⟩
    have type' := (writes_typeExpr s.advance read).append (.token ident nofun)
    exact ⟨((Writes.token isMut nofun).append type').layout (by simp [Param.pieces]), rfl⟩
  · rcases (gives_param_of_ne isMut).mp gives with ⟨type, s₁, read, name, rfl, ident, rfl⟩
    have type' := (writes_typeExpr s read).append (.token ident nofun)
    exact ⟨type'.layout (by simp [Param.pieces]), rfl⟩

/-! ## Phrases -/

/-- The tokens between two states spell the phrase. -/
def Yields (s : State) (phrase : Phrase) (s' : State) : Prop :=
  ∃ tokens, s.cursor.Passes tokens s'.cursor ∧ phrase.SpelledBy tokens

/-- The tokens between two states spell the phrase, but for the last one, which is the mark. -/
def YieldsUpTo (s : State) (phrase : Phrase) (close : Mark) (s' : State) : Prop :=
  ∃ inner closing, s.cursor.Passes (inner ++ [closing]) s'.cursor ∧
    phrase.SpelledBy inner ∧ closing.kind = .mark close

theorem Yields.upTo {phrase : Phrase} {close : Mark} (yields : Yields s phrase s₁)
    (closes : s₁.kind = .mark close) : YieldsUpTo s phrase close s₁.advance := by
  obtain ⟨inner, passes, spelled⟩ := yields
  exact ⟨inner, s₁.cursor.current, passes.concat (ne_endOfInput closes nofun), spelled, closes⟩

theorem Yields.nil {phrase : Phrase} (spelled : phrase.SpelledBy []) (s : State) :
    Yields s phrase s :=
  ⟨[], .refl _, spelled⟩

/-- One list of tokens between two states, and what they spell, decide the other. -/
theorem Yields.mono {phrase other : Phrase} (yields : Yields s phrase s')
    (spells : ∀ tokens, phrase.SpelledBy tokens → other.SpelledBy tokens) :
    Yields s other s' := by
  obtain ⟨tokens, passes, spelled⟩ := yields
  exact ⟨tokens, passes, spells tokens spelled⟩

theorem yields_param {bound : Param} (gives : Gives (param s) bound s') :
    Yields s (.param bound) s' := by
  obtain ⟨⟨tokens, passes, kinds⟩, spans⟩ := writes_param gives
  have nonempty : tokens ≠ [] := by
    rintro rfl
    simp [Param.pieces] at kinds
  exact ⟨tokens, passes, .param kinds (spans.trans (spanFrom_of_passes passes nonempty))⟩

/-! ## Expressions -/

theorem listFrom_ne_nil {close : Mark} {items : List (Expr Unit)}
    (gives : Gives (listFrom close s) items s') : items ≠ [] := by
  rcases gives_listFrom.mp gives with ⟨_, _, _, ⟨_, _, rfl, _⟩ | ⟨_, rfl, _⟩⟩ <;> nofun

mutual

theorem yields_binary (minimum : Nat) (s : State) {s' : State} {e : Expr Unit}
    (gives : Gives (binary minimum s) e s') : Yields s (.expr e) s' := by
  rcases gives_binary.mp gives with ⟨left, s₁, operand, whole⟩
  have shorter := operand.remaining_lt
  exact yields_climb minimum s₁ whole (yields_unary s operand)
termination_by (s.remaining, 3)

theorem yields_climb (minimum : Nat) (s : State) {start s' : State} {left e : Expr Unit}
    (reaches : Reaches (climb minimum left s) e s') (before : Yields start (.expr left) s) :
    Yields start (.expr e) s' := by
  by_cases question : s.kind = .mark .question
  · by_cases binds : minimum ≤ ternaryPrecedence
    · rcases (reaches_climb_of_question question binds).mp reaches with
        ⟨thenBranch, s₁, colon, readThen, elseBranch, s₂, readElse, whole⟩
      have shorter := State.remaining_advance_lt_of_mark question
      have shorter₁ := readThen.remaining_lt
      have shorter₂ := State.remaining_advance_lt_of_mark colon
      have shorter₃ := readElse.remaining_lt
      obtain ⟨cond, passes, cond'⟩ := before
      obtain ⟨between, passes₁, then'⟩ := yields_binary 0 s.advance readThen
      obtain ⟨after, passes₂, else'⟩ := yields_binary _ s₁.advance readElse
      have colonOn := passes₂.cons (ne_endOfInput colon nofun)
      have questionOn := (passes₁.append colonOn).cons (ne_endOfInput question nofun)
      exact yields_climb minimum s₂.addExpr whole
        ⟨_, passes.append questionOn, .ternary cond' question then' colon else' rfl⟩
    · have ends : EndsOperand minimum s.kind :=
        ⟨fun _ => by omega, by simp [question, Token.Kind.infixOperator?,
          Token.Kind.operatorSymbol?, Mark.isOperator]⟩
      rcases (reaches_climb_of_ends ends).mp reaches with ⟨rfl, rfl⟩
      exact before
  · cases found : s.kind.infixOperator? with
    | none =>
        have ends : EndsOperand minimum s.kind := ⟨fun h => absurd h question, by simp [found]⟩
        rcases (reaches_climb_of_ends ends).mp reaches with ⟨rfl, rfl⟩
        exact before
    | some op =>
        by_cases binds : minimum ≤ op.precedence
        · rcases (reaches_climb_of_operator found binds).mp reaches with ⟨right, s₁, operand, whole⟩
          have shorter := State.remaining_advance_lt_of_infix found
          have shorter₁ := operand.remaining_lt
          obtain ⟨first, passes, left'⟩ := before
          obtain ⟨after, passes₁, right'⟩ := yields_binary _ s.advance operand
          have operatorOn := passes₁.cons (Token.Kind.ne_endOfInput_of_infixOperator? found)
          exact yields_climb minimum s₁.addExpr whole
            ⟨_, passes.append operatorOn, .binary left' found right' rfl⟩
        · have ends : EndsOperand minimum s.kind :=
            ⟨fun h => absurd h question, fun other same => by
              cases found.symm.trans same
              omega⟩
          rcases (reaches_climb_of_ends ends).mp reaches with ⟨rfl, rfl⟩
          exact before
termination_by (s.remaining, 4)

theorem yields_unary (s : State) {s' : State} {e : Expr Unit}
    (gives : Gives (unary s) e s') : Yields s (.expr e) s' := by
  cases found : s.kind.prefixOperator? with
  | some op =>
      rcases (gives_unary_of_operator found).mp gives with ⟨operand, s₁, rfl, read, rfl⟩
      have shorter := State.remaining_advance_lt_of_prefix found
      obtain ⟨after, passes, operand'⟩ := yields_unary s.advance read
      exact ⟨_, passes.cons (Token.Kind.ne_endOfInput_of_prefixOperator? found),
        .unary found operand' rfl⟩
  | none =>
      by_cases cast : OpensCast s
      · rcases (gives_unary_of_cast cast).mp gives with
          ⟨target, s₁, close, readTarget, operand, s₂, rfl, read, rfl⟩
        have shorter := State.remaining_advance_lt_of_mark cast.1
        have shorter₁ := readTarget.remaining_lt
        have shorter₂ := State.remaining_advance_lt_of_mark close
        obtain ⟨written, passes, type'⟩ := writes_typeExpr s.advance readTarget
        obtain ⟨after, passes₁, operand'⟩ := yields_unary s₁.advance.addExpr read
        have opening := passes.cons (ne_endOfInput cast.1 nofun)
        have closing := passes₁.cons (ne_endOfInput close nofun)
        have literal : s₁.spanFrom s.span = Token.stretch (s.cursor.current :: written) :=
          spanFrom_of_passes opening nofun
        exact ⟨_, opening.append closing, .cast cast.1 type' close operand' literal rfl⟩
      · rw [unary_of_postfixed found cast] at gives
        exact yields_postfixed s gives
termination_by (s.remaining, 2)

theorem yields_postfixed (s : State) {s' : State} {e : Expr Unit}
    (gives : Gives (postfixed s) e s') : Yields s (.expr e) s' := by
  rcases gives_postfixed.mp gives with ⟨head, s₁, read, whole⟩
  have shorter := read.remaining_lt
  exact yields_suffixes s₁ whole (yields_primary s read)
termination_by (s.remaining, 1)

theorem yields_suffixes (s : State) {start s' : State} {head e : Expr Unit}
    (reaches : Reaches (suffixes head s) e s') (before : Yields start (.expr head) s) :
    Yields start (.expr e) s' := by
  by_cases bracket : s.kind = .mark .leftBracket
  · rcases (reaches_suffixes_of_bracket bracket).mp reaches with
      ⟨subscript, s₁, close, read, whole⟩
    have shorter := State.remaining_advance_lt_of_mark bracket
    have shorter₁ := read.remaining_lt
    have shorter₂ := State.remaining_advance_lt_of_mark close
    obtain ⟨first, passes, receiver'⟩ := before
    obtain ⟨inner, passes₁, subscript'⟩ := yields_binary 0 s.advance read
    have closing := passes₁.concat (ne_endOfInput close nofun)
    have index := passes.append (closing.cons (ne_endOfInput bracket nofun))
    exact yields_suffixes s₁.advance.addExpr whole
      ⟨_, index, .index receiver' bracket subscript' close rfl⟩
  · by_cases paren : s.kind = .mark .leftParen
    · rcases (reaches_suffixes_of_paren paren).mp reaches with ⟨args, s₁, read, whole⟩
      have shorter := State.remaining_advance_lt_of_mark paren
      have shorter₁ := read.remaining_lt
      obtain ⟨first, passes, callee'⟩ := before
      obtain ⟨inner, closing, passes₁, args', close⟩ := yields_exprList .rightParen s.advance read
      have call := passes.append (passes₁.cons (ne_endOfInput paren nofun))
      have last : s₁.cursor.previousSpan = closing.span := by
        simpa using passes₁.previousSpan (by simp)
      have spans : s₁.spanFrom head.span = head.span.merge closing.span :=
        congrArg head.span.merge last
      exact yields_suffixes s₁.addExpr whole ⟨_, call, .call callee' paren args' close spans⟩
    · rcases (reaches_suffixes_of_ne bracket paren).mp reaches with ⟨rfl, rfl⟩
      exact before
termination_by (s.remaining, 0)

theorem yields_primary (s : State) {s' : State} {e : Expr Unit}
    (gives : Gives (primary s) e s') : Yields s (.expr e) s' := by
  rcases primary_cases gives with ⟨value, found, rfl, rfl⟩ | ⟨name, found, rfl, rfl⟩ |
    ⟨found, s₁, close, inner, rfl⟩ | ⟨found, items, s₁, rfl, list, rfl⟩
  · exact ⟨_, .one (ne_endOfInput_of_constant? found), .constant found rfl⟩
  · exact ⟨_, .one (ne_endOfInput found nofun), .ident found rfl⟩
  · have shorter := State.remaining_advance_lt_of_mark found
    obtain ⟨between, passes, inner'⟩ := yields_binary 0 s.advance inner
    have closing := passes.concat (ne_endOfInput close nofun)
    exact ⟨_, closing.cons (ne_endOfInput found nofun), .parens found inner' close⟩
  · have shorter := State.remaining_advance_lt_of_mark found
    obtain ⟨inner, closing, passes, items', close⟩ := yields_exprList .rightBrace s.advance list
    have last : s₁.cursor.previousSpan = closing.span := by
      simpa using passes.previousSpan (by simp)
    have spans : s₁.spanFrom s.span = s.span.merge closing.span :=
      congrArg s.span.merge last
    exact ⟨_, passes.cons (ne_endOfInput found nofun), .array found items' close spans⟩
termination_by (s.remaining, 0)

theorem yields_exprList (close : Mark) (s : State) {s' : State} {items : List (Expr Unit)}
    (gives : Gives (exprList close s) items s') : YieldsUpTo s (.exprs items) close s' := by
  by_cases found : s.kind = .mark close
  · rcases (gives_exprList_of_close found).mp gives with ⟨rfl, rfl⟩
    exact (Yields.nil .noExprs s).upTo found
  · rw [exprList_of_ne found] at gives
    exact yields_listFrom close s gives
termination_by (s.remaining, 5)

theorem yields_listFrom (close : Mark) (s : State) {s' : State} {items : List (Expr Unit)}
    (gives : Gives (listFrom close s) items s') : YieldsUpTo s (.exprs items) close s' := by
  rcases gives_listFrom.mp gives with
    ⟨first, s₁, head, ⟨comma, rest, rfl, tail⟩ | ⟨-, rfl, closes, rfl⟩⟩
  · have shorter := head.remaining_lt
    have shorter' := State.remaining_advance_lt_of_mark comma
    obtain ⟨before, passes, first'⟩ := yields_binary 0 s head
    obtain ⟨after, closing, passes₁, rest', closes⟩ := yields_listFrom close s₁.advance tail
    obtain ⟨next, others, rfl⟩ := List.exists_cons_of_ne_nil (listFrom_ne_nil tail)
    have more := passes.append (passes₁.cons (ne_endOfInput comma nofun))
    exact ⟨before ++ s₁.cursor.current :: after, closing, by simpa using more,
      .moreExprs first' comma rest', closes⟩
  · exact ((yields_binary 0 s head).mono fun _ => .oneExpr).upTo closes
termination_by (s.remaining, 4)

end

end Parser

end Formulae
