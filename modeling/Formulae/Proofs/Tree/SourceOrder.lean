import Formulae.Proofs.Tree.NestedSpans
import Formulae.Tree.Names
import Mathlib

/-!
# Names and texts in the order of the source

The walks that look for free names and for quoted texts visit the parts of a tree as they are
written.  So the texts are those of the string tokens, one for one, and the uses of free names
are tokens that stand in the same order (`Mode.follows_of_parse`).
-/

namespace Formulae

/-! ## Tokens of quoted texts -/

namespace Token.Kind

/-- The text of a token that is a quoted literal. -/
def quoted? : Token.Kind → Option String
  | .string text => some text
  | _ => none

/-- The texts of the quoted literals among tokens of these kinds. -/
def quoted (kinds : List Token.Kind) : List String :=
  kinds.filterMap quoted?

@[simp]
theorem quoted_nil : quoted [] = [] :=
  rfl

@[simp]
theorem quoted_cons (kind : Token.Kind) (rest : List Token.Kind) :
    quoted (kind :: rest) = kind.quoted?.toList ++ quoted rest := by
  cases found : kind.quoted? <;> simp [quoted, found]

@[simp]
theorem quoted_append (left right : List Token.Kind) :
    quoted (left ++ right) = quoted left ++ quoted right :=
  List.filterMap_append ..

end Token.Kind

open Token.Kind (quoted quoted?)

theorem Constant.text?_of_constant? {kind : Token.Kind} {value : Constant}
    (reads : Parser.constant? kind = some value) : value.text? = kind.quoted? := by
  cases kind with
  | keyword word => cases word <;> cases reads <;> rfl
  | int | float | string => cases reads; rfl
  | _ => cases reads

theorem Operator.quoted?_of_prefixOperator? {kind : Token.Kind} {op : Operator}
    (reads : kind.prefixOperator? = some op) : kind.quoted? = none := by
  cases kind with
  | string text => cases reads
  | _ => rfl

theorem Operator.quoted?_of_infixOperator? {kind : Token.Kind} {op : Operator}
    (reads : kind.infixOperator? = some op) : kind.quoted? = none := by
  cases kind with
  | string text => cases reads
  | _ => rfl

/-! ## Declarations quote nothing -/

mutual

theorem TypeExpr.quoted_pieces : (type : TypeExpr) → quoted (Piece.tokens type.pieces) = []
  | .basic type => by simp [pieces, quoted?]
  | .array element => by simp [pieces, quoted?, quoted_pieces element]
  | .function params ret => by simp [pieces, quoted?, quoted_piecesAll params, quoted_pieces ret]
  | .named name => by simp [pieces, quoted?]

theorem TypeExpr.quoted_piecesAll : (types : List TypeExpr) →
    quoted (Piece.tokens (Piece.separated Piece.comma (TypeExpr.piecesAll types))) = []
  | [] => rfl
  | [type] => quoted_pieces type
  | type :: next :: rest => by
      have more := quoted_piecesAll (next :: rest)
      simp only [piecesAll] at more
      simp [piecesAll, Piece.tokens_separated_cons, quoted?, quoted_pieces type, more]

end

theorem Binder.quoted_pieces (bound : Binder) : quoted (Piece.tokens bound.pieces) = [] := by
  cases mutable : bound.mutable <;> cases type : bound.type <;>
    simp [pieces, mutable, type, quoted?, TypeExpr.quoted_pieces]

theorem Param.quoted_pieces (bound : Param) : quoted (Piece.tokens bound.pieces) = [] := by
  cases mutable : bound.mutable <;>
    simp [pieces, mutable, quoted?, TypeExpr.quoted_pieces]

namespace Phrase

/-! ## Quoted texts -/

/-- The quoted texts in a phrase.  Parameters have no values. -/
def strings : Phrase → List String
  | .expr e => e.strings
  | .exprs list => Expr.stringsAll list
  | .optional e => Expr.stringsOption e
  | .param _ | .params _ => []
  | .stmt s => s.strings
  | .stmts list => Stmt.stringsAll list
  | .init s | .otherwise s => Stmt.stringsOption s

/-- The texts that a phrase quotes are those of its string tokens. -/
theorem SpelledBy.strings_eq {phrase : Phrase} {tokens : List Token}
    (spelled : phrase.SpelledBy tokens) : phrase.strings = quoted (tokens.map Token.kind) := by
  induction spelled with
  | constant reads spans =>
      simp [strings, Expr.strings, Constant.text?_of_constant? reads]
  | ident reads spans => simp [strings, Expr.strings, reads, quoted?]
  | parens opens e' closes inner => simp [inner, opens, closes, quoted?]
  | unary reads operand' spans operand =>
      simpa [strings, Expr.strings, Operator.quoted?_of_prefixOperator? reads] using operand
  | cast opens type' closes operand' literalSpans spans operand =>
      simpa [strings, Expr.strings, opens, closes, quoted?, type', TypeExpr.quoted_pieces]
        using operand
  | binary left' reads right' spans left right =>
      simp only [strings] at left right
      simp [strings, Expr.strings, Operator.quoted?_of_infixOperator? reads, left, right]
  | ternary cond' asks then' parts else' spans cond thenBranch elseBranch =>
      simp only [strings] at cond thenBranch elseBranch
      simp [strings, Expr.strings, asks, parts, quoted?, cond, thenBranch, elseBranch]
  | call callee' opens args' closes spans callee args =>
      simp only [strings] at callee args
      simp [strings, Expr.strings, opens, closes, quoted?, callee, args]
  | array opens items' closes spans items =>
      simpa [strings, Expr.strings, opens, closes, quoted?] using items
  | index receiver' opens subscript' closes spans receiver subscript =>
      simp only [strings] at receiver subscript
      simp [strings, Expr.strings, opens, closes, quoted?, receiver, subscript]
  | noExprs => rfl
  | oneExpr e' inner => simpa [strings, Expr.stringsAll] using inner
  | moreExprs e' parts rest' first rest =>
      simp only [strings] at first rest
      rw [strings, Expr.stringsAll, first, rest]
      simp [parts, quoted?]
  | absent => rfl
  | present e' inner => exact inner
  | param spells spans => simp [strings, spells, Param.quoted_pieces]
  | noParams => rfl
  | oneParam bound' inner => exact inner
  | moreParams bound' parts rest' first rest =>
      simp only [strings] at first rest
      simp [strings, parts, quoted?, ← first, ← rest]
  | exprStmt e' ends spans inner =>
      simpa [strings, Stmt.strings, ends, quoted?] using inner
  | varDecl bound' parts init' ends spans init =>
      simpa [strings, Stmt.strings, bound', Binder.quoted_pieces, parts, ends, quoted?] using init
  | ret starts value' ends spans value =>
      simpa [strings, Stmt.strings, starts, ends, quoted?] using value
  | brk starts ends spans | cont starts ends spans =>
      simp [strings, Stmt.strings, starts, ends, quoted?]
  | ifElse starts opens cond' closes then' else' spans cond thenBranch elseBranch =>
      simp only [strings] at cond thenBranch elseBranch
      simp [strings, Stmt.strings, starts, opens, closes, quoted?, cond, thenBranch, elseBranch]
  | whileLoop starts opens cond' closes body' spans cond body =>
      simp only [strings] at cond body
      simp [strings, Stmt.strings, starts, opens, closes, quoted?, cond, body]
  | doWhile starts body' repeats opens cond' closes ends spans body cond =>
      simp only [strings] at body cond
      simp [strings, Stmt.strings, starts, repeats, opens, closes, ends, quoted?, body, cond]
  | forLoop starts opens init' cond' parts step' closes body' spans init cond step body =>
      simp only [strings] at init cond step body
      simp [strings, Stmt.strings, starts, opens, parts, closes, quoted?, init, cond, step, body]
  | forEach starts opens bound' parts iterable' closes body' spans iterable body =>
      simp only [strings] at iterable body
      simp [strings, Stmt.strings, starts, opens, bound', Binder.quoted_pieces, parts, closes,
        quoted?, iterable, body]
  | block opens list' closes spans list =>
      simpa [strings, Stmt.strings, opens, closes, quoted?] using list
  | function ret' names opens params' closes begins body' ends spans params body =>
      simp only [strings] at params body
      simp [strings, Stmt.strings, ret', TypeExpr.quoted_pieces, names, opens, closes, begins,
        ends, quoted?, ← params, body]
  | noStmts => rfl
  | moreStmts s' rest' first rest =>
      simp only [strings] at first rest
      simp [strings, Stmt.stringsAll, first, rest]
  | noInit ends => simp [strings, Stmt.stringsOption, ends, quoted?]
  | init s' inner => exact inner
  | noElse => rfl
  | otherwise starts s' inner => simpa [strings, Stmt.stringsOption, starts, quoted?] using inner

/-! ## Free names -/

/-- The uses of names in a phrase that are not declared. -/
def free (bound : List String) (role : Role) : Phrase → List Occurrence
  | .expr e => e.free bound role
  | .exprs list => Expr.freeAll bound list
  | .optional e => Expr.freeOption bound e
  | .param _ | .params _ => []
  | .stmt s => s.free bound
  | .stmts list => Stmt.freeAll bound list
  | .init s | .otherwise s => Stmt.freeOption bound s

end Phrase

/-- The token of a name that is used. -/
def Occurrence.token (use : Occurrence) : Token :=
  ⟨.ident use.name, use.span⟩

namespace Occurrence

/-- The uses are among the tokens, in the same order. -/
def Among (uses : List Occurrence) (tokens : List Token) : Prop :=
  (uses.map token).Sublist tokens

variable {uses others : List Occurrence} {tokens before after : List Token}

theorem Among.nil (tokens : List Token) : Among [] tokens :=
  List.nil_sublist tokens

theorem Among.append (first : Among uses before) (second : Among others after) :
    Among (uses ++ others) (before ++ after) := by
  rw [Among, List.map_append]
  exact List.Sublist.append first second

/-- A token in front that is no use of a free name. -/
theorem Among.cons (token : Token) (among : Among uses tokens) : Among uses (token :: tokens) :=
  List.Sublist.cons token among

/-- Tokens behind that are no uses of free names. -/
theorem Among.extend (among : Among uses tokens) (more : List Token) :
    Among uses (tokens ++ more) := by
  simpa using among.append (.nil more)

/-- Tokens in front that are no uses of free names. -/
theorem Among.behind (written : List Token) (among : Among uses tokens) :
    Among uses (written ++ tokens) :=
  (Among.nil written).append among

end Occurrence

open Occurrence (Among)

namespace Phrase

/-- The uses of free names in a phrase are tokens of it, in the order in which they are
written, whatever names are declared around it. -/
theorem SpelledBy.among {phrase : Phrase} {tokens : List Token}
    (spelled : phrase.SpelledBy tokens) (bound : List String) (role : Role) :
    Among (phrase.free bound role) tokens := by
  induction spelled generalizing bound role with
  | constant reads spans => exact .nil _
  | @ident node name token reads spans =>
      by_cases declared : name ∈ bound
      · simp only [free, Expr.free, Expr.occurrence, declared, if_true]
        exact .nil _
      · have same : (⟨name, role, node.id, node.span⟩ : Occurrence).token = token := by
          rw [Occurrence.token, ← reads, spans]
        simp [free, Expr.free, Expr.occurrence, declared, Among, same]
  | parens opens e' closes inner => exact .cons _ ((inner bound role).extend _)
  | unary reads operand' spans operand => exact .cons _ (operand bound .variable)
  | cast opens type' closes operand' literalSpans spans operand =>
      have operand := operand bound .variable
      simp only [free] at operand
      simp only [free, Expr.free, List.append_nil]
      exact .cons _ (.behind _ (.cons _ operand))
  | binary left' reads right' spans left right =>
      exact (left bound .variable).append (.cons _ (right bound .variable))
  | ternary cond' asks then' parts else' spans cond thenBranch elseBranch =>
      simp only [free, Expr.free, List.append_assoc]
      exact (cond bound .variable).append (.cons _ ((thenBranch bound .variable).append
        (.cons _ (elseBranch bound .variable))))
  | call callee' opens args' closes spans callee args =>
      exact (callee bound .callee).append (.cons _ ((args bound role).extend _))
  | array opens items' closes spans items => exact .cons _ ((items bound role).extend _)
  | index receiver' opens subscript' closes spans receiver subscript =>
      exact (receiver bound .variable).append (.cons _ ((subscript bound .variable).extend _))
  | noExprs => exact .nil _
  | oneExpr e' inner => simpa [free, Expr.freeAll] using inner bound .variable
  | moreExprs e' parts rest' first rest =>
      exact (first bound .variable).append (.cons _ (rest bound role))
  | absent => exact .nil _
  | present e' inner => exact inner bound .variable
  | param | noParams | oneParam | moreParams => exact .nil _
  | exprStmt e' ends spans inner => exact (inner bound .variable).extend _
  | varDecl bound' parts init' ends spans init =>
      exact .behind _ (.cons _ ((init bound .variable).extend _))
  | ret starts value' ends spans value => exact .cons _ ((value bound role).extend _)
  | brk | cont => exact .nil _
  | ifElse starts opens cond' closes then' else' spans cond thenBranch elseBranch =>
      simp only [free, Stmt.free, List.append_assoc]
      exact .cons _ (.cons _ ((cond bound .variable).append (.cons _ ((thenBranch bound role).append
        (elseBranch bound role)))))
  | whileLoop starts opens cond' closes body' spans cond body =>
      exact .cons _ (.cons _ ((cond bound .variable).append (.cons _ (body bound role))))
  | doWhile starts body' repeats opens cond' closes ends spans body cond =>
      exact .cons _ ((body bound role).append (.cons _ (.cons _ ((cond bound .variable).extend _))))
  | forLoop starts opens init' cond' parts step' closes body' spans first cond step body =>
      -- The header sees what its first part declares.
      simp only [free, Stmt.free, List.append_assoc]
      exact .cons _ (.cons _ ((first bound role).append ((cond _ role).append (.cons _
        ((step _ role).append (.cons _ (body _ role)))))))
  | @forEach _ binder _ _ _ _ _ _ _ _ _ starts opens bound' parts iterable' closes body' spans
      iterable body =>
      exact .cons _ (.cons _ (.behind _ (.cons _ ((iterable bound .variable).append
        (.cons _ (body (binder.name :: bound) role))))))
  | block opens list' closes spans list => exact .cons _ ((list bound role).extend _)
  | @function _ _ name params _ _ _ _ _ _ _ _ _ ret' names opens params' closes begins body' ends
      spans header body =>
      have inner := body (params.map Param.name ++ name :: bound) role
      exact .behind _ (.cons _ (.cons _ (.behind _ (.cons _ (.cons _ (inner.extend _))))))
  | noStmts => exact .nil _
  | @moreStmts s _ _ _ s' rest' first rest =>
      exact (first bound role).append (rest (s.declared ++ bound) role)
  | noInit => exact .nil _
  | init s' inner => exact inner bound role
  | noElse => exact .nil _
  | otherwise starts s' inner => exact .cons _ (inner bound role)

end Phrase

/-! ## Names in the order of their first use -/

/-- Of two names that are listed, the one listed first is used before all uses of the other. -/
theorem Occurrence.pairwise_eraseDups {r : Occurrence → Occurrence → Prop} :
    (uses : List Occurrence) → uses.Pairwise r →
      (uses.map name).eraseDups.Pairwise fun one other =>
        ∃ use ∈ uses, use.name = one ∧ ∀ later ∈ uses, later.name = other → r use later
  | [], _ => by simp
  | first :: rest, ordered => by
      obtain ⟨before, ordered⟩ := List.pairwise_cons.mp ordered
      -- Behind the first name come those of the uses that are left when its own are taken away.
      have others : (rest.map name).filter (fun other => !other == first.name)
          = (rest.filter fun use => !use.name == first.name).map name := by
        rw [List.filter_map]
        rfl
      have different {other : String}
          (listed : other ∈ ((rest.filter fun use => !use.name == first.name).map name).eraseDups) :
          other ≠ first.name := by
        obtain ⟨use, kept, rfl⟩ := List.mem_map.mp (List.mem_eraseDups.mp listed)
        simpa using (List.mem_filter.mp kept).2
      rw [List.map_cons, List.eraseDups_cons, others, List.pairwise_cons]
      constructor
      · intro other listed
        refine ⟨first, List.mem_cons_self, rfl, fun later isUse isOther => ?_⟩
        rcases List.mem_cons.mp isUse with rfl | isUse
        · exact absurd isOther.symm (different listed)
        · exact before later isUse
      · have inRest := pairwise_eraseDups (rest.filter fun use => !use.name == first.name)
          (ordered.sublist List.filter_sublist)
        refine inRest.imp_of_mem fun _ listed found => ?_
        obtain ⟨use, kept, isOne, earlier⟩ := found
        refine ⟨use, List.mem_cons_of_mem _ (List.mem_of_mem_filter kept), isOne,
          fun later isUse isOther => ?_⟩
        have notFirst : later.name ≠ first.name := isOther ▸ different listed
        rcases List.mem_cons.mp isUse with rfl | isUse
        · exact absurd rfl notFirst
        · exact earlier later (List.mem_filter.mpr ⟨isUse, by simpa using notFirst⟩) isOther
termination_by uses => uses.length
decreasing_by exact Nat.lt_succ_of_le (List.length_filter_le ..)

/-- What is found in a program on a walk through it, as against the tokens it was read from: the
texts are those of the string tokens, each use of a free name is a token, later ones start
later, and the lists of names have each name once, in the order of their first uses. -/
structure Program.Follows (p : Program Unit) (tokens : List Token) : Prop where
  quoted : p.strings = Token.Kind.quoted (tokens.map Token.kind)
  among : Among p.free tokens
  ordered : p.free.Pairwise fun one other => one.span.start < other.span.start
  once : ∀ role, (p.freeNames role).Nodup
  listed : ∀ role name, name ∈ p.freeNames role ↔ ∃ use ∈ p.free, use.role = role ∧ use.name = name
  first : ∀ role, (p.freeNames role).Pairwise fun one other =>
    ∃ use ∈ p.free, (use.role = role ∧ use.name = one) ∧ ∀ later ∈ p.free,
      later.role = role → later.name = other → use.span.start < later.span.start

theorem Program.SpelledBy.follows {p : Program Unit} {tokens : List Token}
    (spelled : p.SpelledBy tokens) (ordered : Token.InOrder tokens) : p.Follows tokens := by
  obtain ⟨front, back, whole, body, tail⟩ := spelled.parts
  have among : Among p.free tokens := by
    rw [whole]
    exact (body.among [] .variable).append (tail.among (Stmt.boundAfter [] p.body) .variable)
  have starts : p.free.Pairwise fun one other => one.span.start < other.span.start := by
    have within := ordered.sublist among
    have apart := List.pairwise_map.mp within.apart
    refine apart.imp_of_mem fun member _ apart => ?_
    exact Nat.lt_of_lt_of_le (within.nonempty _ (List.mem_map_of_mem member)) apart
  have byRole (role : Role) := Occurrence.pairwise_eraseDups
    (p.free.filter fun use => use.role = role) (starts.sublist List.filter_sublist)
  have first (role : Role) : (p.freeNames role).Pairwise fun one other =>
      ∃ use ∈ p.free, (use.role = role ∧ use.name = one) ∧ ∀ later ∈ p.free,
        later.role = role → later.name = other → use.span.start < later.span.start := by
    have listed := Occurrence.pairwise_eraseDups (p.free.filter fun use => use.role = role)
      (starts.sublist List.filter_sublist)
    refine listed.imp fun found => ?_
    obtain ⟨use, member, isOne, before⟩ := found
    simp only [List.mem_filter, decide_eq_true_eq] at member before
    exact ⟨use, member.1, ⟨member.2, isOne⟩, fun later isUse sameRole isOther =>
      before later ⟨isUse, sameRole⟩ isOther⟩
  refine
    { quoted := ?_
      among
      ordered := starts
      once := fun role => ?_
      listed := fun role name => ?_
      first }
  · have texts := body.strings_eq
    have text := tail.strings_eq
    simp only [Phrase.strings] at texts text
    rw [Program.strings, texts, text, whole, List.map_append, Token.Kind.quoted_append]
  · -- A name listed twice would be used before its own first use.
    refine (first role).imp fun found same => ?_
    obtain ⟨use, member, ⟨isRole, isOne⟩, before⟩ := found
    exact Nat.lt_irrefl _ (before use member isRole (isOne.trans same))
  · simp [freeNames, List.mem_eraseDups, and_assoc]

/-- In whatever is read from a source, free names and quoted texts are found in the order of the
source. -/
theorem Mode.follows_of_parse {mode : Mode} {source : String} {tokens : TokenList}
    {output : Parser.Output} (read : Lexer.tokenize source = .ok tokens)
    (parsed : mode.parse tokens = .ok output) : output.program.Follows tokens.items :=
  (spelled_of_parse read parsed).follows (Token.inOrder_of_tokenize read)

/-- The condition of a loop that is tested behind its body, a cast in it, and a name that is
declared in the body only. -/
theorem Mode.follows_of_parse_loop : ∃ tokens output,
    Lexer.tokenize "do \x7b int x = g(\"b\"); s = x; \x7d while ((float) n < s); x(\"b\", \"a\")"
        = .ok tokens ∧
      Mode.program.parse tokens = .ok output ∧
        (output.program.strings, output.program.freeVariables, output.program.freeMethods)
          = (["b", "b", "a"], ["s", "n"], ["g", "x"]) ∧
        output.program.Follows tokens.items := by
  have found : (Lexer.tokenize
      "do \x7b int x = g(\"b\"); s = x; \x7d while ((float) n < s); x(\"b\", \"a\")").toOption.bind
      (fun tokens => (Mode.program.parse tokens).toOption.bind fun output =>
        some (output.program.strings, output.program.freeVariables, output.program.freeMethods))
      = some (["b", "b", "a"], ["s", "n"], ["g", "x"]) := by
    cbv
  obtain ⟨tokens, output, read, parsed, names⟩ := reads_of_toOption found
  exact ⟨tokens, output, read, parsed, Option.some.inj names, Mode.follows_of_parse read parsed⟩

end Formulae
