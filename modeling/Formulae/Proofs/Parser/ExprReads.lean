import Formulae.Proofs.Parser.TypeReads
import Formulae.Proofs.Tree.Bare

/-!
# Reading written expressions

Parentheses are written exactly where the climb would otherwise group another way.
What is read of an expression depends on how tightly operators have to bind, and
the climb goes on from it as from an operand of its own: so each level of the
grammar has its own judgement here, and a tree has all of them from its precedence
down (`Expr.reads`).
-/

namespace Formulae

/-! ## Where an expression ends -/

namespace Operator

/-- How tightly an operator must not bind that follows the right operand. -/
def edge : Operator → Nat
  | .typeCast => primaryPrecedence
  | op => op.rightMinimum

theorem precedence_le_edge (op : Operator) : op.precedence ≤ op.edge := by
  cases op <;> decide

/-- Operators between operands group from the left, so one of their own kind may
follow. -/
theorem precedence_lt_edge (op : Operator) : ternaryPrecedence < op.precedence →
    op.precedence < prefixPrecedence → op.precedence < op.edge := by
  cases op <;> decide

/-- An operator between operands binds neither tighter than its left operand has to
nor tighter than its right one. -/
theorem minimums_of_isInfix {op : Operator} (h : op.IsInfix) :
    op.precedence ≤ op.leftMinimum ∧ op.precedence < prefixPrecedence ∧
      op.edge = op.rightMinimum := by
  rcases h with ⟨marked, position⟩
  revert marked position
  cases op <;> decide

/-- The left operand of an assignment may be a conditional. -/
theorem leftMinimum_of_isInfix {op : Operator} (h : op.IsInfix) :
    op.precedence < op.leftMinimum ∧ op.leftMinimum = ternaryPrecedence ∨
      op.leftMinimum = op.precedence ∧ ternaryPrecedence < op.precedence := by
  rcases h with ⟨marked, position⟩
  revert marked position
  cases op <;> decide

theorem infixOperator?_of_mark? {op : Operator} (h : op.IsInfix) {symbol : Mark}
    (marked : op.mark? = some symbol) : (Token.Kind.mark symbol).infixOperator? = some op := by
  rcases h with ⟨-, position⟩
  revert position
  cases op <;> cases marked <;> decide

theorem prefixOperator?_of_mark? {op : Operator} (h : op.IsPrefix) {symbol : Mark}
    (marked : op.mark? = some symbol) : (Token.Kind.mark symbol).prefixOperator? = some op := by
  unfold IsPrefix at h
  revert h
  cases op <;> cases marked <;> decide

end Operator

namespace Expr

variable {α : Type}

/-- How tightly an operator must not bind that follows the expression. -/
def edge : Expr α → Nat
  | .binary _ op _ _ => op.edge
  | .ternary _ _ _ _ => ternaryPrecedence
  | _ => primaryPrecedence

theorem precedence_le_edge (e : Expr α) : e.precedence ≤ e.edge := by
  cases e with
  | constant node value =>
      unfold precedence edge
      dsimp only
      split
      · exact Nat.le_of_ble_eq_true rfl
      · exact Nat.le_refl _
  | binary node op left right => exact op.precedence_le_edge
  | _ => exact Nat.le_of_ble_eq_true rfl

/-- An operator that may follow its left operand does not belong to it. -/
theorem precedence_lt_edge_of_isInfix {e : Expr α} {op : Operator} (h : op.IsInfix)
    (binds : op.leftMinimum ≤ e.precedence) : op.precedence < e.edge := by
  rcases Operator.leftMinimum_of_isInfix h with ⟨looser, -⟩ | ⟨same, infixed⟩
  · exact Nat.lt_of_lt_of_le looser (Nat.le_trans binds e.precedence_le_edge)
  · rw [same] at binds
    have loose := (Operator.minimums_of_isInfix h).2.1
    cases e with
    | binary node other left right =>
        by_cases tight : other.precedence < prefixPrecedence
        · exact Nat.lt_of_le_of_lt binds
            (other.precedence_lt_edge (Nat.lt_of_lt_of_le infixed binds) tight)
        · exact Nat.lt_of_lt_of_le loose
            (Nat.le_trans (Nat.not_lt.mp tight) other.precedence_le_edge)
    | ternary => exact absurd binds (Nat.not_le.mpr infixed)
    | _ => exact Nat.lt_of_lt_of_le loose (Nat.le_of_ble_eq_true rfl)

end Expr

/-- A token that an expression can start with. -/
def Token.Kind.opensExpr : Token.Kind → Bool
  | .int _ | .float _ | .string _ | .ident _ => true
  | .keyword .trueWord | .keyword .falseWord | .keyword .nullWord => true
  | .mark .leftParen | .mark .leftBrace | .mark .minus | .mark .bang => true
  | _ => false

theorem Token.Kind.isTypeWord_of_opensExpr {kind : Token.Kind} (h : kind.opensExpr) :
    kind.isTypeWord = false := by
  cases kind with
  | keyword word => cases word <;> first | rfl | cases h
  | basicType type => cases h
  | _ => rfl

namespace Parser

variable {s : State} {ks : List Token.Kind} {b : Expr Unit}

/-- What follows is no index and no argument list. -/
def EndsPostfixed (input : List Token.Kind) : Prop :=
  firstKind input ≠ .mark .leftBracket ∧ firstKind input ≠ .mark .leftParen

/-- What follows does not go on an expression whose operators bind at least as
tightly as `minimum`. -/
def EndsExpr (minimum : Nat) (input : List Token.Kind) : Prop :=
  EndsOperand minimum (firstKind input) ∧ EndsPostfixed input

theorem EndsExpr.mono {minimum tighter : Nat} (le : minimum ≤ tighter) {input : List Token.Kind}
    (h : EndsExpr minimum input) : EndsExpr tighter input :=
  ⟨⟨fun question => Nat.lt_of_lt_of_le (h.1.1 question) le,
    fun op found => Nat.lt_of_lt_of_le (h.1.2 op found) le⟩, h.2⟩

/-- A mark that goes on no expression at all. -/
theorem endsExpr_of_mark {minimum : Nat} {mark : Mark} {rest : List Token.Kind}
    (h : mark ∈ [Mark.rightParen, .rightBracket, .rightBrace, .comma, .colon, .semicolon]) :
    EndsExpr minimum (.mark mark :: rest) := by
  have noInfix : (Token.Kind.mark mark).infixOperator? = none := by
    cases mark <;> first | rfl | (exact absurd h (by decide))
  refine ⟨⟨?_, fun op found => absurd (noInfix.symm.trans found) nofun⟩, ?_, ?_⟩ <;>
    · intro equal
      cases equal
      exact absurd h (by decide)

/-! ## What is read -/

/-- The kinds are read as the head of postfixed expressions. -/
def PostfixedAs (ks : List Token.Kind) (b : Expr Unit) : Prop :=
  ∀ (s : State) (input : List Token.Kind), s.kinds = ks ++ input →
    ∃ e s₁, e.bare = b ∧ s₁.kinds = input ∧ unary s = postfixed s ∧
      ∀ e' s', Reaches (suffixes e s₁) e' s' → Gives (postfixed s) e' s'

/-- The kinds are read as an operand. -/
def UnaryAs (ks : List Token.Kind) (b : Expr Unit) : Prop :=
  ∀ (s : State) (input : List Token.Kind), s.kinds = ks ++ input → EndsPostfixed input →
    ∃ e s₁, e.bare = b ∧ s₁.kinds = input ∧ Gives (unary s) e s₁

/-- The kinds are read as an operand that the climb goes on from, if what follows
does not belong to it. -/
def BinaryAs (minimum edge : Nat) (ks : List Token.Kind) (b : Expr Unit) : Prop :=
  ∀ (s : State) (input : List Token.Kind), s.kinds = ks ++ input → EndsExpr edge input →
    ∃ e s₁, e.bare = b ∧ s₁.kinds = input ∧
      ∀ e' s', Reaches (climb minimum e s₁) e' s' → Gives (binary minimum s) e' s'

/-- The kinds are read as a whole expression. -/
def ExprAs (minimum : Nat) (ks : List Token.Kind) (b : Expr Unit) : Prop :=
  ∀ (s : State) (input : List Token.Kind), s.kinds = ks ++ input → EndsExpr minimum input →
    ∃ e s₁, e.bare = b ∧ s₁.kinds = input ∧ Gives (binary minimum s) e s₁

theorem PostfixedAs.unaryAs (h : PostfixedAs ks b) : UnaryAs ks b := by
  intro s input kinds ends
  rcases h s input kinds with ⟨e, s₁, same, ahead, isPostfixed, continues⟩
  refine ⟨e, s₁, same, ahead, isPostfixed ▸ continues e s₁ ?_⟩
  have first := State.kind_of_kinds ahead
  exact (reaches_suffixes_of_ne (first ▸ ends.1) (first ▸ ends.2)).mpr ⟨rfl, rfl⟩

theorem UnaryAs.binaryAs (h : UnaryAs ks b) (minimum edge : Nat) : BinaryAs minimum edge ks b := by
  intro s input kinds ends
  rcases h s input kinds ends.2 with ⟨e, s₁, same, ahead, operand⟩
  exact ⟨e, s₁, same, ahead, fun e' s' further =>
    gives_binary.mpr ⟨e, s₁, operand, further⟩⟩

theorem BinaryAs.mono {minimum edge tighter : Nat} (h : BinaryAs minimum tighter ks b)
    (le : edge ≤ tighter) : BinaryAs minimum edge ks b :=
  fun s input kinds ends => h s input kinds (ends.mono le)

theorem BinaryAs.exprAs {minimum edge : Nat} (h : BinaryAs minimum edge ks b)
    (le : minimum ≤ edge) : ExprAs minimum ks b := by
  intro s input kinds ends
  rcases h s input kinds (ends.mono le) with ⟨e, s₁, same, ahead, continues⟩
  refine ⟨e, s₁, same, ahead, continues e s₁ ?_⟩
  exact (reaches_climb_of_ends (State.kind_of_kinds ahead ▸ ends.1)).mpr ⟨rfl, rfl⟩

/-- After a name that starts an expression comes no other name, and no empty
brackets. -/
def FollowsName (rest : List Token.Kind) : Prop :=
  rest = [] ∨ ∃ mark more, rest = .mark mark :: more ∧
    (mark = .leftBracket → (firstKind more).opensExpr)

theorem FollowsName.append {rest more : List Token.Kind} (first : FollowsName rest)
    (second : FollowsName more) : FollowsName (rest ++ more) := by
  rcases first with rfl | ⟨mark, tail, rfl, inside⟩
  · exact second
  · refine .inr ⟨mark, tail ++ more, rfl, fun bracket => ?_⟩
    cases tail with
    | nil => exact absurd (inside bracket) nofun
    | cons kind tail => exact inside bracket

/-- The kinds start as an expression does, with a brace only if it is an array that
comes first. -/
structure Opens (ks : List Token.Kind) (braced : Bool) : Prop where
  first : (firstKind ks).opensExpr
  name : ∀ name rest, ks = .ident name :: rest → FollowsName rest
  brace : firstKind ks = .mark .leftBrace → braced

theorem Opens.append {braced : Bool} {more : List Token.Kind} (opens : Opens ks braced)
    (follows : FollowsName more) : Opens (ks ++ more) braced := by
  cases ks with
  | nil => exact absurd opens.first nofun
  | cons kind rest =>
      refine ⟨opens.first, ?_, opens.brace⟩
      rintro name _ equal
      cases equal
      exact (opens.name name rest rfl).append follows

theorem Opens.of_first (kind : Token.Kind) {rest : List Token.Kind} (first : kind.opensExpr)
    (noName : ∀ name, kind ≠ .ident name) (noBrace : kind ≠ .mark .leftBrace) (braced : Bool) :
    Opens (kind :: rest) braced :=
  ⟨first, fun name _ equal => absurd (List.cons.inj equal).1 (noName name),
    fun brace => absurd brace noBrace⟩

/-- The kinds are read as the expression at every level that it stands on. -/
structure Reads (ks : List Token.Kind) (b : Expr Unit) : Prop where
  opens : Opens ks b.startsWithArray
  postfixed : postfixPrecedence ≤ b.precedence → PostfixedAs ks b
  unary : prefixPrecedence ≤ b.precedence → UnaryAs ks b
  binary : ∀ minimum ≤ b.precedence, BinaryAs minimum b.edge ks b

theorem Reads.exprAs (reads : Reads ks b) {minimum : Nat} (le : minimum ≤ b.precedence) :
    ExprAs minimum ks b :=
  (reads.binary minimum le).exprAs (Nat.le_trans le b.precedence_le_edge)

theorem Reads.of_unary (opens : Opens ks b.startsWithArray)
    (loose : b.precedence < postfixPrecedence) (edge : b.edge = primaryPrecedence)
    (unary : UnaryAs ks b) : Reads ks b :=
  ⟨opens, fun tight => absurd tight (Nat.not_le.mpr loose), fun _ => unary,
    fun minimum _ => edge ▸ unary.binaryAs minimum primaryPrecedence⟩

theorem Reads.of_postfixed (opens : Opens ks b.startsWithArray)
    (postfixed : PostfixedAs ks b) : Reads ks b :=
  ⟨opens, fun _ => postfixed, fun _ => postfixed.unaryAs,
    fun minimum _ => postfixed.unaryAs.binaryAs minimum b.edge⟩

theorem Reads.of_binary (opens : Opens ks b.startsWithArray)
    (loose : b.precedence < prefixPrecedence)
    (binary : ∀ minimum ≤ b.precedence, BinaryAs minimum b.edge ks b) : Reads ks b :=
  ⟨opens, fun tight => absurd tight (Nat.not_le.mpr (Nat.lt_succ_of_lt loose)),
    fun tight => absurd tight (Nat.not_le.mpr loose), binary⟩

/-! ## Parentheses -/

/-- Parentheses around the kinds if they are needed. -/
def enclosed (needed : Bool) (ks : List Token.Kind) : List Token.Kind :=
  if needed then .mark .leftParen :: ks ++ [.mark .rightParen] else ks

theorem tokens_enclosed (needed : Bool) (inner : List Piece) :
    Piece.tokens (Expr.enclosed needed inner) = enclosed needed (Piece.tokens inner) := by
  cases needed <;> simp [Expr.enclosed, enclosed]

/-- No type stands between the parentheses, so they open no cast. -/
theorem not_opensCast_of_opens {braced : Bool} (opens : Opens ks braced)
    {input : List Token.Kind} (kinds : s.kinds = .mark .leftParen :: (ks ++ input)) :
    ¬OpensCast s := by
  rintro ⟨paren, word⟩
  rw [← kind_advance_of_mark paren, State.kind_of_kinds (State.kinds_advance kinds)] at word
  cases ks with
  | nil => exact absurd opens.first nofun
  | cons kind rest =>
      rw [List.cons_append, firstKind_cons] at word
      exact absurd (word.symm.trans (Token.Kind.isTypeWord_of_opensExpr opens.first)) nofun

theorem Reads.parenthesized (reads : Reads ks b) :
    PostfixedAs (.mark .leftParen :: ks ++ [.mark .rightParen]) b := by
  intro s input kinds
  simp only [List.cons_append, List.append_assoc, List.nil_append] at kinds
  have paren := State.kind_of_kinds kinds
  have noCast := not_opensCast_of_opens reads.opens kinds
  rcases reads.exprAs (Nat.zero_le _) s.advance _ (State.kinds_advance kinds)
    (endsExpr_of_mark (by decide)) with ⟨e, s₁, same, ahead, inner⟩
  refine ⟨e, s₁.advance, same, State.kinds_advance ahead, ?_, fun e' s' further => ?_⟩
  · exact unary_of_postfixed (by rw [paren]; rfl) noCast
  · exact gives_postfixed.mpr ⟨e, s₁.advance, (gives_primary_of_paren paren).mpr
      ⟨s₁, State.kind_of_kinds ahead, inner, rfl⟩, further⟩

theorem Reads.enclosed_postfixed (reads : Reads ks b) :
    PostfixedAs (enclosed (b.precedence < postfixPrecedence) ks) b := by
  unfold enclosed
  split
  · exact reads.parenthesized
  · next tight => exact reads.postfixed (by simpa using tight)

theorem Reads.enclosed_unary (reads : Reads ks b) :
    UnaryAs (enclosed (b.precedence < prefixPrecedence) ks) b := by
  unfold enclosed
  split
  · exact reads.parenthesized.unaryAs
  · next tight => exact reads.unary (by simpa using tight)

theorem Reads.enclosed_binary (reads : Reads ks b) {minimum needed edge : Nat}
    (le : minimum ≤ needed) (ends : needed ≤ b.precedence → edge ≤ b.edge) :
    BinaryAs minimum edge (enclosed (b.precedence < needed) ks) b := by
  unfold enclosed
  split
  · exact reads.parenthesized.unaryAs.binaryAs minimum edge
  · next tight =>
      have binds : needed ≤ b.precedence := by simpa using tight
      exact (reads.binary minimum (Nat.le_trans le binds)).mono (ends binds)

theorem Reads.enclosed_expr (reads : Reads ks b) (minimum : Nat) :
    ExprAs minimum (enclosed (b.precedence < minimum) ks) b :=
  (reads.enclosed_binary (Nat.le_refl _) fun binds =>
    Nat.le_trans binds b.precedence_le_edge).exprAs (Nat.le_refl _)

theorem Reads.enclosed_opens (reads : Reads ks b) (needed : Bool) :
    Opens (enclosed needed ks) b.startsWithArray := by
  cases needed with
  | false => exact reads.opens
  | true => exact Opens.of_first (.mark .leftParen) rfl nofun nofun _

/-! ## One form after the other -/

theorem reads_ident (name : String) : Reads [.ident name] (.ident .bare name) := by
  refine .of_postfixed ⟨rfl, ?_, fun brace => absurd brace nofun⟩ fun s input kinds => ?_
  · rintro _ _ equal
    cases equal
    exact .inl rfl
  · have isName : s.kind = .ident name := State.kind_of_kinds kinds
    refine ⟨.ident (s.exprNode s.span) name, s.advance.addExpr, rfl, State.kinds_advance kinds,
      ?_, fun e' s' further => ?_⟩
    · refine unary_of_postfixed (by rw [isName]; rfl) fun cast => ?_
      exact absurd (isName.symm.trans cast.1) nofun
    · exact gives_postfixed.mpr
        ⟨_, _, (gives_primary_of_ident isName).mpr ⟨rfl, rfl⟩, further⟩

theorem reads_constant {kind : Token.Kind} {value : Constant} (found : constant? kind = some value) :
    Reads [kind] (.constant .bare value) := by
  have forms : kind.opensExpr ∧ kind.prefixOperator? = none ∧ (∀ name, kind ≠ .ident name) ∧
      kind ≠ .mark .leftParen ∧ kind ≠ .mark .leftBrace := by
    cases kind with
    | int | float | string => exact ⟨rfl, rfl, nofun, nofun, nofun⟩
    | keyword word =>
        cases word <;> first | (cases found; done) | exact ⟨rfl, rfl, nofun, nofun, nofun⟩
    | _ => cases found
  rcases forms with ⟨opens, noPrefix, noName, noParen, noBrace⟩
  refine .of_postfixed (.of_first _ opens noName noBrace _) fun s input kinds => ?_
  have isConstant := State.kind_of_kinds kinds
  rw [List.cons_append, firstKind_cons] at isConstant
  rw [← isConstant] at found noPrefix noParen
  refine ⟨.constant (s.exprNode s.span) value, s.advance.addExpr, rfl, State.kinds_advance kinds,
    unary_of_postfixed noPrefix fun cast => noParen cast.1, fun e' s' further => ?_⟩
  exact gives_postfixed.mpr ⟨_, _, (gives_primary_of_constant found).mpr ⟨rfl, rfl⟩, further⟩

theorem reads_unary {op : Operator} {symbol : Mark} (position : op.IsPrefix)
    (marked : op.mark? = some symbol) (operand : Reads ks b) :
    Reads (.mark symbol :: enclosed (b.precedence < prefixPrecedence) ks) (.unary .bare op b) := by
  have found := Operator.prefixOperator?_of_mark? position marked
  have opens : (Token.Kind.mark symbol).opensExpr ∧ symbol ≠ .leftBrace := by
    rcases Operator.mark?_of_isPrefix position with isMark | isMark <;>
      cases marked.symm.trans isMark <;> decide
  refine .of_unary (.of_first _ opens.1 nofun (fun brace => opens.2 (by cases brace; rfl)) _)
    (Nat.lt_succ_self _) rfl fun s input kinds ends => ?_
  have isPrefix := State.kind_of_kinds kinds
  rcases operand.enclosed_unary s.advance input (State.kinds_advance kinds) ends with
    ⟨e, s₁, rfl, ahead, inner⟩
  rw [List.cons_append, firstKind_cons] at isPrefix
  exact ⟨_, s₁.addExpr, rfl, ahead,
    (gives_unary_of_operator (isPrefix ▸ found)).mpr ⟨e, s₁, rfl, inner, rfl⟩⟩

theorem reads_cast {type : TypeExpr} (readable : type.Readable) (word : type.startsWithWord)
    (operand : Reads ks b) :
    Reads (.mark .leftParen :: Piece.tokens type.pieces ++ .mark .rightParen ::
      enclosed (b.precedence < prefixPrecedence) ks)
      (.binary .bare .typeCast b (.typeLiteral .bare type)) := by
  refine .of_unary (.of_first (.mark .leftParen) rfl nofun nofun _) (Nat.lt_succ_self _) rfl
    fun s input kinds ends => ?_
  simp only [List.cons_append, List.append_assoc] at kinds
  have paren : s.kind = .mark .leftParen := State.kind_of_kinds kinds
  have cast : OpensCast s := by
    refine ⟨paren, ?_⟩
    rcases typeKinds_first type with ⟨first, more, spelled, -, starts⟩
    rw [← kind_advance_of_mark paren, State.kind_of_kinds (State.kinds_advance kinds), spelled]
    exact starts word
  rcases typeExpr_reads type readable (State.kinds_advance kinds) nofun with ⟨s₁, target, ahead⟩
  rcases operand.enclosed_unary s₁.advance.addExpr input (State.kinds_advance ahead) ends with
    ⟨e, s₂, rfl, ahead', inner⟩
  exact ⟨_, s₂.addExpr, rfl, ahead', (gives_unary_of_cast cast).mpr
    ⟨type, s₁, State.kind_of_kinds ahead, target, e, s₂, rfl, inner, rfl⟩⟩

theorem reads_infix {op : Operator} {symbol : Mark} (position : op.IsInfix)
    (marked : op.mark? = some symbol) {ls rs : List Token.Kind} {l r : Expr Unit}
    (left : Reads ls l) (right : Reads rs r) :
    Reads (enclosed (l.precedence < op.leftMinimum) ls ++ .mark symbol ::
      enclosed (r.precedence < op.rightMinimum) rs) (.binary .bare op l r) := by
  have found := Operator.infixOperator?_of_mark? position marked
  have plain : symbol ≠ .question ∧ symbol ≠ .leftBracket ∧ symbol ≠ .leftParen := by
    refine ⟨?_, ?_, ?_⟩ <;>
      · rintro rfl
        exact absurd found nofun
  have starts : (Expr.binary .bare op l r).startsWithArray = l.startsWithArray := by
    cases op <;> first | rfl | exact absurd position.1 nofun
  rcases Operator.minimums_of_isInfix position with ⟨leftLe, loose, edge⟩
  refine .of_binary ?_ loose fun minimum binds s input kinds ends => ?_
  · rw [starts]
    exact (left.enclosed_opens _).append
      (.inr ⟨symbol, _, rfl, fun bracket => absurd bracket plain.2.1⟩)
  · rw [List.append_assoc, List.cons_append] at kinds
    have endsLeft : EndsExpr (op.precedence + 1)
        (.mark symbol :: (enclosed (r.precedence < op.rightMinimum) rs ++ input)) := by
      refine ⟨⟨fun question => ?_, fun other isOther => ?_⟩, fun bracket => ?_, fun paren => ?_⟩
      · exact absurd (Token.Kind.mark.inj question) plain.1
      · cases found.symm.trans isOther
        exact Nat.lt_succ_self _
      · exact absurd (Token.Kind.mark.inj bracket) plain.2.1
      · exact absurd (Token.Kind.mark.inj paren) plain.2.2
    rcases left.enclosed_binary (Nat.le_trans binds leftLe)
      (Expr.precedence_lt_edge_of_isInfix position) s _ kinds endsLeft with
      ⟨e₁, s₁, rfl, ahead, continues⟩
    rcases right.enclosed_expr op.rightMinimum s₁.advance input (State.kinds_advance ahead)
      (edge ▸ ends) with ⟨e₂, s₂, rfl, ahead', inner⟩
    have isInfix : s₁.kind.infixOperator? = some op := State.kind_of_kinds ahead ▸ found
    exact ⟨_, s₂.addExpr, rfl, ahead', fun e' s' further => continues e' s'
      ((reaches_climb_of_operator isInfix binds).mpr ⟨e₂, s₂, inner, further⟩)⟩

theorem reads_ternary {cs ts es : List Token.Kind} {c t e : Expr Unit} (cond : Reads cs c)
    (thenBranch : Reads ts t) (elseBranch : Reads es e) :
    Reads (enclosed (c.precedence < ternaryPrecedence + 1) cs ++ .mark .question :: (ts ++
      .mark .colon :: enclosed (e.precedence < ternaryPrecedence) es)) (.ternary .bare c t e) := by
  refine .of_binary ?_ (Nat.le_of_ble_eq_true rfl) fun minimum binds s input kinds ends => ?_
  · exact (cond.enclosed_opens _).append (.inr ⟨.question, _, rfl, nofun⟩)
  · simp only [List.append_assoc, List.cons_append] at kinds
    have endsCond : EndsExpr (ternaryPrecedence + 1) (.mark .question :: (ts ++
        .mark .colon :: (enclosed (e.precedence < ternaryPrecedence) es ++ input))) :=
      ⟨⟨fun _ => Nat.lt_succ_self _, nofun⟩, nofun, nofun⟩
    rcases cond.enclosed_binary (Nat.le_trans binds (Nat.le_succ _))
      (fun tight => Nat.le_trans tight c.precedence_le_edge) s _ kinds endsCond with
      ⟨e₁, s₁, rfl, ahead₁, continues⟩
    rcases thenBranch.exprAs (Nat.zero_le _) s₁.advance _ (State.kinds_advance ahead₁)
      (endsExpr_of_mark (by decide)) with ⟨e₂, s₂, rfl, ahead₂, inner⟩
    rcases elseBranch.enclosed_expr ternaryPrecedence s₂.advance input (State.kinds_advance ahead₂)
      ends with ⟨e₃, s₃, rfl, ahead₃, other⟩
    exact ⟨_, s₃.addExpr, rfl, ahead₃, fun e' s' further => continues e' s'
      ((reaches_climb_of_question (State.kind_of_kinds ahead₁) binds).mpr
        ⟨e₂, s₂, State.kind_of_kinds ahead₂, inner, e₃, s₃, other, further⟩)⟩

theorem reads_index {rs : List Token.Kind} {r : Expr Unit} (receiver : Reads rs r)
    (subscript : Reads ks b) :
    Reads (enclosed (r.precedence < postfixPrecedence) rs ++ .mark .leftBracket ::
      (ks ++ [.mark .rightBracket])) (.index .bare r b) := by
  refine .of_postfixed ?_ fun s input kinds => ?_
  · refine (receiver.enclosed_opens _).append (.inr ⟨.leftBracket, _, rfl, fun _ => ?_⟩)
    exact (subscript.opens.append (.inr ⟨.rightBracket, [], rfl, nofun⟩)).first
  · simp only [List.append_assoc, List.cons_append, List.nil_append] at kinds
    rcases receiver.enclosed_postfixed s _ kinds with ⟨e₁, s₁, rfl, ahead₁, isPostfixed, continues⟩
    rcases subscript.exprAs (Nat.zero_le _) s₁.advance _ (State.kinds_advance ahead₁)
      (endsExpr_of_mark (by decide)) with ⟨e₂, s₂, rfl, ahead₂, inner⟩
    exact ⟨_, s₂.advance.addExpr, rfl, State.kinds_advance ahead₂, isPostfixed,
      fun e' s' further => continues e' s'
        ((reaches_suffixes_of_bracket (State.kind_of_kinds ahead₁)).mpr
          ⟨e₂, s₂, State.kind_of_kinds ahead₂, inner, further⟩)⟩

/-! ## Lists of expressions -/

/-- The kinds before the mark that closes them are read as these expressions. -/
def ListAs (close : Mark) (ks : List Token.Kind) (bs : List (Expr Unit)) : Prop :=
  ∀ (s : State) (input : List Token.Kind), s.kinds = ks ++ .mark close :: input →
    ∃ items s₁, Expr.bareAll items = bs ∧ s₁.kinds = input ∧ Gives (exprList close s) items s₁

/-- The same for at least one expression. -/
structure FromAs (close : Mark) (ks : List Token.Kind) (bs : List (Expr Unit)) : Prop where
  first : (firstKind ks).opensExpr
  reads : ∀ (s : State) (input : List Token.Kind), s.kinds = ks ++ .mark close :: input →
    ∃ items s₁, Expr.bareAll items = bs ∧ s₁.kinds = input ∧ Gives (listFrom close s) items s₁

/-- The marks that close lists of expressions. -/
def ClosesList (close : Mark) : Prop :=
  close = .rightParen ∨ close = .rightBrace

theorem listAs_nil (close : Mark) : ListAs close [] [] := fun s _ kinds =>
  ⟨[], s.advance, rfl, State.kinds_advance kinds,
    (gives_exprList_of_close (State.kind_of_kinds kinds)).mpr ⟨rfl, rfl⟩⟩

theorem FromAs.listAs {close : Mark} (closes : ClosesList close) {bs : List (Expr Unit)}
    (items : FromAs close ks bs) : ListAs close ks bs := by
  intro s _ kinds
  rw [exprList_of_ne]
  · exact items.reads s _ kinds
  · rw [State.kind_of_kinds kinds]
    have first := items.first
    intro closed
    cases ks with
    | nil => exact absurd first nofun
    | cons kind rest =>
        cases closed
        rcases closes with rfl | rfl <;> exact absurd first nofun

/-- Written expressions are a list if they are one when there are any. -/
theorem listAs_of_from {close : Mark} (closes : ClosesList close) {α : Type}
    {config : PrintConfig} {items : List (Expr α)}
    (nonempty : items ≠ [] → FromAs close
      (Piece.tokens (Piece.separated Piece.comma (Expr.piecesAll config items)))
      (Expr.bareAll items)) :
    ListAs close (Piece.tokens (Piece.separated Piece.comma (Expr.piecesAll config items)))
      (Expr.bareAll items) := by
  cases items with
  | nil => exact listAs_nil close
  | cons e rest => exact (nonempty nofun).listAs closes

theorem ClosesList.endsExpr {close : Mark} (closes : ClosesList close) (minimum : Nat)
    (rest : List Token.Kind) : EndsExpr minimum (.mark close :: rest) := by
  rcases closes with rfl | rfl <;> exact endsExpr_of_mark (by decide)

theorem fromAs_one {close : Mark} (closes : ClosesList close) (only : Reads ks b) :
    FromAs close ks [b] := by
  refine ⟨only.opens.first, fun s input kinds => ?_⟩
  rcases only.exprAs (Nat.zero_le _) s _ kinds (closes.endsExpr _ _) with
    ⟨e, s₁, rfl, ahead, inner⟩
  have isClose : s₁.kind = .mark close := State.kind_of_kinds ahead
  refine ⟨[e], s₁.advance, rfl, State.kinds_advance ahead, gives_listFrom.mpr
    ⟨e, s₁, inner, .inr ⟨?_, rfl, isClose, rfl⟩⟩⟩
  rw [isClose]
  rcases closes with rfl | rfl <;> nofun

theorem fromAs_cons {close : Mark} {more : List Token.Kind} {bs : List (Expr Unit)}
    (head : Reads ks b) (rest : FromAs close more bs) :
    FromAs close (ks ++ .mark .comma :: more) (b :: bs) := by
  refine ⟨(head.opens.append (.inr ⟨.comma, _, rfl, nofun⟩)).first, fun s input kinds => ?_⟩
  rw [List.append_assoc, List.cons_append] at kinds
  rcases head.exprAs (Nat.zero_le _) s _ kinds (endsExpr_of_mark (by decide)) with
    ⟨e, s₁, rfl, ahead, inner⟩
  rcases rest.reads s₁.advance input (State.kinds_advance ahead) with
    ⟨items, s₂, rfl, ahead', others⟩
  exact ⟨e :: items, s₂, rfl, ahead', gives_listFrom.mpr
    ⟨e, s₁, inner, .inl ⟨State.kind_of_kinds ahead, items, rfl, others⟩⟩⟩

theorem reads_call {cs : List Token.Kind} {c : Expr Unit} {bs : List (Expr Unit)}
    (callee : Reads cs c) (args : ListAs .rightParen ks bs) :
    Reads (enclosed (c.precedence < postfixPrecedence) cs ++ .mark .leftParen ::
      (ks ++ [.mark .rightParen])) (.call .bare c bs) := by
  refine .of_postfixed ?_ fun s input kinds => ?_
  · exact (callee.enclosed_opens _).append (.inr ⟨.leftParen, _, rfl, nofun⟩)
  · simp only [List.append_assoc, List.cons_append, List.nil_append] at kinds
    rcases callee.enclosed_postfixed s _ kinds with ⟨e₁, s₁, rfl, ahead₁, isPostfixed, continues⟩
    rcases args s₁.advance input (State.kinds_advance ahead₁) with ⟨items, s₂, rfl, ahead₂, inner⟩
    exact ⟨_, s₂.addExpr, rfl, ahead₂, isPostfixed, fun e' s' further => continues e' s'
      ((reaches_suffixes_of_paren (State.kind_of_kinds ahead₁)).mpr ⟨items, s₂, inner, further⟩)⟩

theorem reads_array {bs : List (Expr Unit)} (items : ListAs .rightBrace ks bs) :
    Reads (.mark .leftBrace :: ks ++ [.mark .rightBrace]) (.array .bare bs) := by
  refine .of_postfixed ⟨rfl, fun _ _ equal => absurd (List.cons.inj equal).1 nofun,
    fun _ => rfl⟩ fun s input kinds => ?_
  simp only [List.append_assoc, List.cons_append, List.nil_append] at kinds
  have brace : s.kind = .mark .leftBrace := State.kind_of_kinds kinds
  rcases items s.advance input (State.kinds_advance kinds) with ⟨es, s₁, rfl, ahead, inner⟩
  refine ⟨.array (s₁.exprNode (s₁.spanFrom s.span)) es, s₁.addExpr, rfl, ahead, ?_,
    fun e' s' further => ?_⟩
  · refine unary_of_postfixed (by rw [brace]; rfl) fun cast => ?_
    exact absurd (brace.symm.trans cast.1) nofun
  · exact gives_postfixed.mpr
      ⟨_, _, (gives_primary_of_brace brace).mpr ⟨es, s₁, rfl, inner, rfl⟩, further⟩

/-! ## Every expression -/

variable {α : Type} (config : PrintConfig)

/-- The single token of a constant that source can give. -/
theorem tokens_constant {value : Constant} (readable : value.Readable Number.Rereads) :
    ∃ kind, Piece.tokens [value.piece] = [kind] ∧ constant? kind = some value := by
  cases value with
  | int n =>
      have unsigned : ¬n < 0 := fun negative =>
        absurd readable (Int.not_le.mpr (Int64.lt_iff_toInt_lt.mp negative))
      exact ⟨.int n, by rw [Constant.piece, if_neg unsigned]; rfl, rfl⟩
  | float x =>
      rcases readable.finite with ⟨significand, exponent, finite⟩
      exact ⟨.float x, by rw [Constant.piece, finite]; rfl, rfl⟩
  | bool b => cases b <;> exact ⟨_, rfl, rfl⟩
  | null => exact ⟨_, rfl, rfl⟩
  | string text => exact ⟨_, rfl, rfl⟩
  | negativeNan | date | duration => exact readable.elim

mutual

/-- A written expression is read as the expression. -/
theorem expr_reads : (e : Expr α) → e.Readable Number.Rereads →
    Reads (Piece.tokens (e.pieces config)) e.bare
  | .ident _ name, _ => reads_ident name
  | .constant _ value, readable => by
      rcases tokens_constant readable with ⟨kind, single, found⟩
      rw [Expr.pieces, single]
      exact reads_constant found
  | .unary _ op operand, readable => by
      obtain ⟨symbol, marked⟩ : ∃ symbol, op.mark? = some symbol := by
        rcases Operator.mark?_of_isPrefix readable.1 with marked | marked <;> exact ⟨_, marked⟩
      rw [Expr.pieces, Operator.piece_of_mark? marked, Piece.tokens_cons_mark, tokens_enclosed,
        ← Expr.precedence_bare operand]
      exact reads_unary readable.1 marked (expr_reads operand readable.2)
  | .binary _ op left right, readable => by
      rcases Expr.readable_binary readable with ⟨rfl, inner, target⟩ | ⟨noCast, position, first, second⟩
      · cases right with
        | typeLiteral _ type =>
            simp only [Expr.pieces, Piece.tokens_append, Piece.tokens_cons_mark,
              Piece.tokens_cons_space, tokens_enclosed, List.append_assoc, List.cons_append,
              List.nil_append, ← Expr.precedence_bare left]
            exact reads_cast target.1 target.2 (expr_reads left inner)
        | _ => exact target.elim
      · obtain ⟨symbol, marked⟩ := Option.isSome_iff_exists.mp position.1
        rw [Expr.pieces_of_ne_typeCast config noCast]
        simp only [Piece.tokens_append, Piece.tokens_around, tokens_enclosed, Operator.piece_of_mark? marked,
          Piece.tokens_cons_mark, Piece.tokens_nil, List.append_assoc, List.cons_append,
          List.nil_append, ← Expr.precedence_bare left, ← Expr.precedence_bare right]
        exact reads_infix position marked (expr_reads left first) (expr_reads right second)
  | .ternary _ cond thenBranch elseBranch, readable => by
      simp only [Expr.pieces, Piece.tokens_append, Piece.tokens_around, tokens_enclosed,
        Piece.tokens_cons_mark, Piece.tokens_nil, List.append_assoc, List.cons_append,
        List.nil_append, ← Expr.precedence_bare cond, ← Expr.precedence_bare elseBranch]
      exact reads_ternary (expr_reads cond readable.1) (expr_reads thenBranch readable.2.1)
        (expr_reads elseBranch readable.2.2)
  | .call _ callee args, readable => by
      simp only [Expr.pieces, Piece.tokens_append, tokens_enclosed, Piece.tokens_cons_mark,
        Piece.tokens_nil, List.append_assoc, List.cons_append, List.nil_append,
        ← Expr.precedence_bare callee]
      exact reads_call (expr_reads callee readable.1)
        (listAs_of_from (.inl rfl) fun nonempty => exprs_read (.inl rfl) args nonempty readable.2)
  | .array _ items, readable => by
      simp only [Expr.pieces, Piece.tokens_append, Piece.tokens_cons_mark, Piece.tokens_nil,
        List.cons_append, List.nil_append]
      exact reads_array
        (listAs_of_from (.inr rfl) fun nonempty => exprs_read (.inr rfl) items nonempty readable)
  | .index _ receiver subscript, readable => by
      simp only [Expr.pieces, Piece.tokens_append, tokens_enclosed, Piece.tokens_cons_mark,
        Piece.tokens_nil, List.append_assoc, List.cons_append, List.nil_append,
        ← Expr.precedence_bare receiver]
      exact reads_index (expr_reads receiver readable.1) (expr_reads subscript readable.2)
  | .typeLiteral _ _, readable => readable.elim

/-- At least one written expression is read up to and with the mark that closes the
list. -/
theorem exprs_read {close : Mark} (closes : ClosesList close) : (items : List (Expr α)) →
    items ≠ [] → Expr.ReadableAll Number.Rereads items →
      FromAs close (Piece.tokens (Piece.separated Piece.comma (Expr.piecesAll config items)))
        (Expr.bareAll items)
  | [only], _, readable => fromAs_one closes (expr_reads only readable.1)
  | e :: next :: rest, _, readable => by
      simp only [Expr.piecesAll, Piece.tokens_separated_cons]
      exact fromAs_cons (expr_reads e readable.1) (exprs_read closes (next :: rest) nofun readable.2)

end

end Parser

end Formulae
