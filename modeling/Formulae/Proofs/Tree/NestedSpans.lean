import Formulae.Proofs.Parser.StmtSpelled
import Formulae.Proofs.Token.Munch

/-!
# Stretches of source nest

The nodes of a tree carry stretches of source.  `SpanTree` keeps those and forgets the rest.  In
a tree that was read every stretch runs from the start of a token to the end of one, that of a
part lies in that of the whole, and those of two parts lie apart (`Mode.nests_of_parse`).
-/

namespace Formulae

/-! ## Trees of stretches -/

/-- The stretches of source that a node and its parts carry. -/
inductive SpanTree
  | node (span : Span) (parts : List SpanTree)

namespace SpanTree

/-- The stretch of the root. -/
def span : SpanTree → Span
  | .node span _ => span

/-- The parts of the root. -/
def parts : SpanTree → List SpanTree
  | .node _ parts => parts

mutual

/-- The tree and all trees in it. -/
def nodes : SpanTree → List SpanTree
  | .node span parts => .node span parts :: nodesAll parts

/-- Several trees and all trees in them. -/
def nodesAll : List SpanTree → List SpanTree
  | [] => []
  | tree :: rest => tree.nodes ++ nodesAll rest

end

theorem mem_nodesAll {node : SpanTree} {trees : List SpanTree} :
    node ∈ nodesAll trees ↔ ∃ tree ∈ trees, node ∈ tree.nodes := by
  induction trees with
  | nil => simp [nodesAll]
  | cons tree rest inductionHypothesis => simp [nodesAll, inductionHypothesis]

end SpanTree

variable {α : Type}

namespace Expr

mutual

/-- The stretches of an expression and its parts, in the order in which they are written. -/
def spanTree : Expr α → SpanTree
  | .ident node _ | .constant node _ | .typeLiteral node _ => .node node.span []
  | .unary node _ operand => .node node.span [operand.spanTree]
  | .binary node .typeCast left right => .node node.span [right.spanTree, left.spanTree]
  | .binary node _ left right | .index node left right =>
      .node node.span [left.spanTree, right.spanTree]
  | .ternary node cond thenBranch elseBranch =>
      .node node.span [cond.spanTree, thenBranch.spanTree, elseBranch.spanTree]
  | .call node callee args => .node node.span (callee.spanTree :: spanTrees args)
  | .array node items => .node node.span (spanTrees items)

/-- The stretches of several expressions. -/
def spanTrees : List (Expr α) → List SpanTree
  | [] => []
  | e :: rest => e.spanTree :: spanTrees rest

end

@[simp]
theorem span_spanTree (e : Expr α) : e.spanTree.span = e.span := by
  cases e with
  | binary node op left right => cases op <;> rfl
  | _ => rfl

theorem spanTree_of_ne_typeCast {node : Node α} {op : Operator} {left right : Expr α}
    (noCast : op ≠ .typeCast) : (Expr.binary node op left right).spanTree =
      .node node.span [left.spanTree, right.spanTree] := by
  rw [spanTree]
  exact noCast

/-- The stretches of an expression that may be missing. -/
def spanTreesOption (e : Option (Expr α)) : List SpanTree :=
  (e.map spanTree).toList

end Expr

/-- The stretch of a parameter, which has no parts. -/
def Param.spanTree (bound : Param) : SpanTree :=
  .node bound.span []

namespace Stmt

mutual

/-- The stretches of a statement and its parts. -/
def spanTree : Stmt α → SpanTree
  | .expr node e | .varDecl node _ e => .node node.span [e.spanTree]
  | .ret node value => .node node.span (Expr.spanTreesOption value)
  | .ifElse node cond thenBranch elseBranch =>
      .node node.span (cond.spanTree :: thenBranch.spanTree :: spanTreesOption elseBranch)
  | .whileLoop node cond body | .forEach node _ cond body =>
      .node node.span [cond.spanTree, body.spanTree]
  | .doWhile node body cond => .node node.span [body.spanTree, cond.spanTree]
  | .forLoop node init cond step body =>
      .node node.span (spanTreesOption init ++ (Expr.spanTreesOption cond
        ++ (Expr.spanTreesOption step ++ [body.spanTree])))
  | .brk node | .cont node => .node node.span []
  | .block node stmts => .node node.span (spanTrees stmts)
  | .function node _ _ params body =>
      .node node.span (params.map Param.spanTree ++ spanTrees body)

/-- The stretches of a statement that may be missing. -/
def spanTreesOption : Option (Stmt α) → List SpanTree
  | none => []
  | some s => [s.spanTree]

/-- The stretches of several statements. -/
def spanTrees : List (Stmt α) → List SpanTree
  | [] => []
  | s :: rest => s.spanTree :: spanTrees rest

end

end Stmt

/-- The stretches of a program and all that is in it. -/
def Program.spanTree (p : Program α) : SpanTree :=
  .node p.span (Stmt.spanTrees p.body ++ Expr.spanTreesOption p.tail)

/-! ## Tokens in order -/

/-- The tokens come one after the other, none of them empty. -/
structure Token.InOrder (tokens : List Token) : Prop where
  nonempty : ∀ token ∈ tokens, token.span.start < token.span.stop
  apart : tokens.Pairwise fun one other => one.span.stop ≤ other.span.start

theorem Token.InOrder.sublist {tokens part : List Token} (ordered : InOrder tokens)
    (within : part.Sublist tokens) : InOrder part :=
  ⟨fun token member => ordered.nonempty token (within.subset member),
    ordered.apart.sublist within⟩

theorem Token.inOrder_of_tokenize {source : String} {tokens : TokenList}
    (read : Lexer.tokenize source = .ok tokens) : InOrder tokens.items := by
  have ordered := (Lexer.cuts_of_tokenize read).ordered
  exact ⟨ordered.nonempty, ordered.disjoint⟩

namespace Span

/-- Neither of the two reaches into the other. -/
def Apart (one other : Span) : Prop :=
  one.stop ≤ other.start ∨ other.stop ≤ one.start

theorem Apart.symm {one other : Span} (apart : one.Apart other) : other.Apart one :=
  Or.symm apart

theorem Within.trans {one middle other : Span} (first : one.Within middle)
    (second : middle.Within other) : one.Within other :=
  ⟨Nat.le_trans second.1 first.1, Nat.le_trans first.2 second.2⟩

/-- The span reaches from the start of one of the tokens to the end of one that starts no
earlier. -/
def Covers (span : Span) (tokens : List Token) : Prop :=
  ∃ first ∈ tokens, ∃ last ∈ tokens, first.span.start ≤ last.span.start ∧
    span = ⟨first.span.start, last.span.stop⟩

variable {one other : Span} {tokens part before after : List Token}

theorem Covers.mono (covers : one.Covers part) (within : part ⊆ tokens) : one.Covers tokens := by
  obtain ⟨first, isFirst, last, isLast, le, same⟩ := covers
  exact ⟨first, within isFirst, last, within isLast, le, same⟩

theorem covers_token (token : Token) : token.span.Covers [token] :=
  ⟨token, by simp, token, by simp, Nat.le_refl _, rfl⟩

theorem Covers.start_lt (covers : one.Covers tokens) (ordered : Token.InOrder tokens) :
    one.start < one.stop := by
  obtain ⟨first, -, last, isLast, le, rfl⟩ := covers
  exact Nat.lt_of_le_of_lt le (ordered.nonempty last isLast)

/-- What covers earlier tokens ends before what covers later ones. -/
theorem Covers.stop_le (first : one.Covers before) (second : other.Covers after)
    (ordered : Token.InOrder (before ++ after)) : one.stop ≤ other.start := by
  obtain ⟨-, -, last, isLast, -, rfl⟩ := first
  obtain ⟨first, isFirst, -, -, -, rfl⟩ := second
  exact (List.pairwise_append.mp ordered.apart).2.2 last isLast first isFirst

/-- From what covers earlier tokens to what covers later ones. -/
theorem Covers.merge (first : one.Covers before) (second : other.Covers after)
    (ordered : Token.InOrder (before ++ after)) : (one.merge other).Covers (before ++ after) := by
  have nonempty := first.start_lt (ordered.sublist (List.sublist_append_left ..))
  have nonempty' := second.start_lt (ordered.sublist (List.sublist_append_right ..))
  have apart := first.stop_le second ordered
  obtain ⟨start, isStart, last, isLast, le, rfl⟩ := first
  obtain ⟨start', isStart', last', isLast', le', rfl⟩ := second
  dsimp only at nonempty nonempty' apart
  refine ⟨start, by simp [isStart], last', by simp [isLast'], by omega, ?_⟩
  simp only [Span.merge, Span.mk.injEq]
  omega

/-- The span reaches from the start of the token at one place to the end of the token at the same
or a later place. -/
def Runs (span : Span) (tokens : List Token) : Prop :=
  ∃ (i j : Nat) (first last : Token), i ≤ j ∧ tokens[i]? = some first ∧ tokens[j]? = some last ∧
    span = ⟨first.span.start, last.span.stop⟩

/-- Tokens that stand in order start one after the other. -/
theorem Covers.runs (covers : one.Covers tokens) (ordered : Token.InOrder tokens) :
    one.Runs tokens := by
  obtain ⟨first, isFirst, last, isLast, le, rfl⟩ := covers
  obtain ⟨i, found⟩ := List.mem_iff_getElem?.mp isFirst
  obtain ⟨j, found'⟩ := List.mem_iff_getElem?.mp isLast
  refine ⟨i, j, first, last, ?_, found, found', rfl⟩
  obtain ⟨inBounds, isFirst⟩ := List.getElem?_eq_some_iff.mp found
  obtain ⟨inBounds', isLast⟩ := List.getElem?_eq_some_iff.mp found'
  by_contra later
  have apart := List.pairwise_iff_getElem.mp ordered.apart j i inBounds' inBounds (by omega)
  have nonempty := ordered.nonempty last (by simp [← isLast])
  rw [isFirst, isLast] at apart
  omega

end Span

theorem Token.stretch_singleton (token : Token) : Token.stretch [token] = token.span := by
  simp [Token.stretch, Span.merge]

/-- From the start of the first token to the end of the last one, for tokens in order. -/
theorem Token.InOrder.stretch_eq {first : Token} {rest : List Token}
    (ordered : Token.InOrder (first :: rest)) : ∃ last ∈ first :: rest,
      Token.stretch (first :: rest) = ⟨first.span.start, last.span.stop⟩ ∧
        ∀ token ∈ first :: rest,
          first.span.start ≤ token.span.start ∧ token.span.stop ≤ last.span.stop := by
  obtain ⟨front, last, whole⟩ := (List.eq_nil_or_concat (first :: rest)).resolve_left (by simp)
  rw [List.concat_eq_append] at whole
  have starts : ∀ token ∈ first :: rest, first.span.start ≤ token.span.start := by
    have real := ordered.nonempty first (by simp)
    have later := (List.pairwise_cons.mp ordered.apart).1
    simp only [List.forall_mem_cons]
    exact ⟨Nat.le_refl _, fun token member => by have := later token member; omega⟩
  have isLast : last ∈ first :: rest := by simp [whole]
  have real := ordered.nonempty last isLast
  have stops : ∀ token ∈ first :: rest, token.span.stop ≤ last.span.stop := by
    rw [whole] at ordered ⊢
    have earlier := (List.pairwise_append.mp ordered.apart).2.2
    simp only [List.forall_mem_append, List.forall_mem_singleton] at earlier ⊢
    exact ⟨fun token member => by have := earlier token member; omega, Nat.le_refl _⟩
  have getLast : (first :: rest).getLast? = some last := by simp [whole]
  refine ⟨last, isLast, ?_, fun token member => ⟨starts token member, stops token member⟩⟩
  have le := starts last isLast
  have le' := stops first (by simp)
  simp only [Token.stretch, List.head?_cons, getLast, Option.map_some, Option.getD_some,
    Span.merge, Span.mk.injEq]
  omega

/-- Of tokens in order only the first counts where what follows them is reached over. -/
theorem Token.stretch_merge {first : Token} {rest after : List Token} {other : Span}
    (ordered : Token.InOrder ((first :: rest) ++ after)) (covers : other.Covers after) :
    (Token.stretch (first :: rest)).merge other = first.span.merge other := by
  obtain ⟨last, isLast, same, between⟩ :=
    (ordered.sublist (List.sublist_append_left ..)).stretch_eq
  have apart := (Span.covers_token last).mono (by simpa using isLast)
    |>.stop_le covers ordered
  have nonempty := covers.start_lt (ordered.sublist (List.sublist_append_right ..))
  have le := (between first (by simp)).2
  simp only [same, Span.merge, Span.mk.injEq, true_and]
  omega

theorem Token.InOrder.covers_stretch {tokens : List Token} (ordered : Token.InOrder tokens)
    (nonempty : tokens ≠ []) : (Token.stretch tokens).Covers tokens ∧
      ∀ span : Span, span.Covers tokens → span.Within (Token.stretch tokens) := by
  obtain ⟨first, rest, rfl⟩ := List.exists_cons_of_ne_nil nonempty
  obtain ⟨last, isLast, same, between⟩ := ordered.stretch_eq
  rw [same]
  constructor
  · exact ⟨first, by simp, last, isLast, (between last isLast).1, rfl⟩
  · rintro _ ⟨one, isOne, other, isOther, -, rfl⟩
    exact ⟨(between one isOne).1, (between other isOther).2⟩

/-! ## Nested trees -/

/-- Every stretch in the tree covers tokens, and lies in that of its whole and apart from that of
every other part. -/
inductive SpanTree.Nested (tokens : List Token) : SpanTree → Prop
  | node {span : Span} {parts : List SpanTree} (covers : span.Covers tokens)
      (within : ∀ part ∈ parts, part.span.Within span)
      (apart : parts.Pairwise fun one other => one.span.Apart other.span)
      (nested : ∀ part ∈ parts, part.Nested tokens) : Nested tokens (.node span parts)

/-- The trees lie over the tokens, one apart from the other, if the tokens stand in order. -/
def SpanTree.Lie (trees : List SpanTree) (tokens : List Token) : Prop :=
  Token.InOrder tokens → (∀ tree ∈ trees, tree.Nested tokens) ∧
    trees.Pairwise fun one other => one.span.Apart other.span

/-- The stretch covers tokens and contains the trees that lie over them. -/
structure Span.Holds (span : Span) (trees : List SpanTree) (tokens : List Token) : Prop where
  lie : SpanTree.Lie trees tokens
  covers : Token.InOrder tokens → span.Covers tokens
  within : Token.InOrder tokens → ∀ tree ∈ trees, tree.span.Within span

namespace SpanTree

variable {tokens more before middle after : List Token} {tree : SpanTree}
  {trees others : List SpanTree} {one other : Span}

theorem Nested.covers (nested : tree.Nested tokens) : tree.span.Covers tokens := by
  cases nested with
  | node covers within apart nested => exact covers

theorem Nested.mono (nested : tree.Nested tokens) (within : tokens ⊆ more) :
    tree.Nested more := by
  induction nested with
  | node covers inside apart nested inductionHypothesis =>
      exact .node (covers.mono within) inside apart inductionHypothesis

theorem Lie.nil (tokens : List Token) : Lie [] tokens :=
  fun _ => ⟨nofun, .nil⟩

theorem Lie.append (first : Lie trees before) (second : Lie others after) :
    Lie (trees ++ others) (before ++ after) := by
  intro ordered
  obtain ⟨nested, apart⟩ := first (ordered.sublist (List.sublist_append_left ..))
  obtain ⟨nested', apart'⟩ := second (ordered.sublist (List.sublist_append_right ..))
  constructor
  · simp only [List.forall_mem_append]
    exact ⟨fun tree member => (nested tree member).mono (List.subset_append_left ..),
      fun tree member => (nested' tree member).mono (List.subset_append_right ..)⟩
  · refine List.pairwise_append.mpr ⟨apart, apart', fun tree member tree' member' => .inl ?_⟩
    exact (nested tree member).covers.stop_le (nested' tree' member').covers ordered

/-- A token in front that belongs to no tree. -/
theorem Lie.cons (token : Token) (rest : Lie trees tokens) : Lie trees (token :: tokens) :=
  (Lie.nil [token]).append rest

/-- Tokens behind that belong to no tree. -/
theorem Lie.extend (first : Lie trees tokens) (more : List Token) : Lie trees (tokens ++ more) := by
  simpa using first.append (.nil more)

theorem holds_token (token : Token) : token.span.Holds [] [token] :=
  ⟨.nil _, fun _ => Span.covers_token token, fun _ => nofun⟩

theorem Lie.holds (single : Lie [tree] tokens) : tree.span.Holds [tree] tokens := by
  constructor
  · exact single
  · exact fun ordered => ((single ordered).1 tree (by simp)).covers
  · rintro - _ member
    rw [List.mem_singleton.mp member]
    exact ⟨Nat.le_refl _, Nat.le_refl _⟩

end SpanTree

open SpanTree (Lie holds_token)

/-- A node from what covers the first tokens to what covers the last ones holds all between. -/
theorem Span.Holds.node {one other : Span} {front inner back parts : List SpanTree}
    {before middle after tokens : List Token} (first : one.Holds front before)
    (between : Lie inner middle) (last : other.Holds back after)
    (whole : tokens = before ++ (middle ++ after)) (all : parts = front ++ (inner ++ back)) :
    Lie [.node (one.merge other) parts] tokens := by
  subst whole all
  intro ordered
  have frontOrdered := ordered.sublist (List.sublist_append_left before (middle ++ after))
  have backOrdered := ordered.sublist (List.sublist_append_right before (middle ++ after))
  have lastOrdered := backOrdered.sublist (List.sublist_append_right middle after)
  have covers := last.covers lastOrdered
  have covers' := covers.mono (List.subset_append_right middle after)
  obtain ⟨nested, apart⟩ := first.lie.append (between.append last.lie) ordered
  have merged := (first.covers frontOrdered).merge covers' ordered
  have within : ∀ tree ∈ front ++ (inner ++ back), tree.span.Within (one.merge other) := by
    simp only [List.forall_mem_append]
    refine ⟨fun tree member => ?_, fun tree member => ?_, fun tree member => ?_⟩
    · exact (first.within frontOrdered tree member).trans (Span.within_merge_left one other)
    · have frontOrdered' := ordered.sublist (.append_left (List.sublist_append_left middle after) _)
      have middleOrdered := backOrdered.sublist (List.sublist_append_left middle after)
      have covered := ((between middleOrdered).1 tree member).covers
      have startsLater := (first.covers frontOrdered).stop_le covered frontOrdered'
      have stopsBefore := covered.stop_le covers backOrdered
      have nonempty := (first.covers frontOrdered).start_lt frontOrdered
      have nonempty' := covers.start_lt lastOrdered
      simp only [Span.Within, Span.merge]
      omega
    · exact (last.within lastOrdered tree member).trans (Span.within_merge_right one other)
  constructor
  · rintro _ member
    rw [List.mem_singleton.mp member]
    exact .node merged within apart nested
  · exact List.pairwise_singleton ..

/-- A node over all tokens holds all trees that lie over them. -/
theorem SpanTree.Lie.whole {trees : List SpanTree} {tokens : List Token}
    (inner : Lie trees tokens) (nonempty : tokens ≠ []) {span : Span}
    (spans : span = Token.stretch tokens) : Lie [.node span trees] tokens := by
  subst spans
  intro ordered
  obtain ⟨covers, contains⟩ := ordered.covers_stretch nonempty
  obtain ⟨nested, apart⟩ := inner ordered
  constructor
  · rintro _ member
    rw [List.mem_singleton.mp member]
    exact .node covers (fun part member => contains _ (nested part member).covers) apart nested
  · exact List.pairwise_singleton ..

/-! ## Phrases -/

namespace Phrase

/-- The stretches that the nodes of the phrase carry. -/
def spanTrees : Phrase → List SpanTree
  | .expr e => [e.spanTree]
  | .exprs list => Expr.spanTrees list
  | .optional e => Expr.spanTreesOption e
  | .param bound => [bound.spanTree]
  | .params list => list.map Param.spanTree
  | .stmt s => [s.spanTree]
  | .stmts list => Stmt.spanTrees list
  | .init s | .otherwise s => Stmt.spanTreesOption s

theorem holds_expr {e : Expr Unit} {tokens : List Token} (lies : Lie [e.spanTree] tokens) :
    e.span.Holds [e.spanTree] tokens := by
  rw [← Expr.span_spanTree]
  exact lies.holds

/-- The nodes of a phrase lie over the tokens that spell it. -/
theorem SpelledBy.lie {phrase : Phrase} {tokens : List Token} (spelled : phrase.SpelledBy tokens) :
    Lie phrase.spanTrees tokens := by
  induction spelled with
  | constant reads spans =>
      exact (Lie.nil [_]).whole (by simp) (spans.trans (Token.stretch_singleton _).symm)
  | ident reads spans =>
      exact (Lie.nil [_]).whole (by simp) (spans.trans (Token.stretch_singleton _).symm)
  | parens opens e' closes inner => exact .cons _ (inner.extend _)
  | unary reads operand' spans operand =>
      simp only [spanTrees, Expr.spanTree, spans]
      exact (holds_token _).node (.nil []) (holds_expr operand) rfl rfl
  | @cast node literal operand type opening closing written after opens type' closes operand'
      literalSpans spans inner =>
      have literal' : Lie [(Expr.typeLiteral literal type).spanTree] (opening :: written) :=
        (Lie.nil (opening :: written)).whole (by simp) literalSpans
      have operand' := holds_expr inner
      intro ordered
      have later := (operand'.covers (ordered.sublist (by grind))).mono
        (List.subset_cons_self closing after)
      have same : node.span = literal.span.merge operand.span := by
        rw [spans, literalSpans]
        exact (Token.stretch_merge ordered later).symm
      simp only [spanTrees, Expr.spanTree, same]
      exact (holds_expr literal').node (.nil [closing]) operand' rfl rfl ordered
  | @binary node op left right token before after left' reads right' spans first second =>
      have noCast := Parser.ne_typeCast_of_infixOperator? reads
      simp only [spanTrees, Expr.spanTree_of_ne_typeCast noCast, spans]
      exact (holds_expr first).node (.nil [token]) (holds_expr second) rfl rfl
  | @ternary _ _ _ _ question colon _ _ _ cond' asks then' parts else' spans cond thenBranch
      elseBranch =>
      simp only [spanTrees, Expr.spanTree, spans]
      have inner := Lie.cons question (thenBranch.extend [colon])
      exact (holds_expr cond).node inner (holds_expr elseBranch) (by simp) rfl
  | call callee' opens args' closes spans callee args =>
      simp only [spanTrees, Expr.spanTree, spans]
      exact (holds_expr callee).node (.cons _ args) (holds_token _) rfl (by simp [spanTrees])
  | array opens items' closes spans items =>
      simp only [spanTrees, Expr.spanTree, spans]
      exact (holds_token _).node items (holds_token _) rfl (by simp [spanTrees])
  | index receiver' opens subscript' closes spans receiver subscript =>
      simp only [spanTrees, Expr.spanTree, spans]
      exact (holds_expr receiver).node (.cons _ subscript) (holds_token _) rfl rfl
  | noExprs => exact .nil []
  | oneExpr e' inner => exact inner
  | moreExprs e' parts rest' first rest => exact first.append (.cons _ rest)
  | absent => exact .nil []
  | present e' inner => exact inner
  | @param bound tokens spells spans =>
      have nonempty : tokens ≠ [] := by
        rintro rfl
        simp [Param.pieces] at spells
      exact (Lie.nil tokens).whole nonempty spans
  | noParams => exact .nil []
  | oneParam bound' inner => exact inner
  | moreParams bound' parts rest' first rest => exact first.append (.cons _ rest)
  | exprStmt e' ends spans inner => exact (inner.extend _).whole (by simp) spans
  | varDecl bound' parts init' ends spans init =>
      exact ((Lie.nil _).append (.cons _ (init.extend _))).whole (by simp) spans
  | ret starts value' ends spans value => exact (Lie.cons _ (value.extend _)).whole (by simp) spans
  | brk starts ends spans => exact (Lie.nil [_, _]).whole (by simp) spans
  | cont starts ends spans => exact (Lie.nil [_, _]).whole (by simp) spans
  | ifElse starts opens cond' closes then' else' spans cond thenBranch elseBranch =>
      have branches := thenBranch.append elseBranch
      exact (Lie.cons _ (.cons _ (cond.append (.cons _ branches)))).whole (by simp) spans
  | whileLoop starts opens cond' closes body' spans cond body =>
      exact (Lie.cons _ (.cons _ (cond.append (.cons _ body)))).whole (by simp) spans
  | doWhile starts body' repeats opens cond' closes ends spans body cond =>
      exact (Lie.cons _ (body.append (.cons _ (.cons _ (cond.extend _))))).whole (by simp) spans
  | forLoop starts opens init' cond' parts step' closes body' spans init cond step body =>
      exact (Lie.cons _ (.cons _ (init.append (cond.append (.cons _ (step.append
        (.cons _ body))))))).whole (by simp) spans
  | forEach starts opens bound' parts iterable' closes body' spans iterable body =>
      exact (Lie.cons _ (.cons _ ((Lie.nil _).append (.cons _ (iterable.append
        (.cons _ body)))))).whole (by simp) spans
  | block opens list' closes spans list => exact (Lie.cons _ (list.extend _)).whole (by simp) spans
  | function ret' names opens params' closes begins body' ends spans params body =>
      exact ((Lie.nil _).append (.cons _ (.cons _ (params.append (.cons _ (.cons _
        (body.extend _))))))).whole (by simp) spans
  | noStmts => exact .nil []
  | moreStmts s' rest' first rest => exact first.append rest
  | noInit ends => exact .nil _
  | init s' inner => exact inner
  | noElse => exact .nil []
  | otherwise starts s' inner => exact .cons _ inner

end Phrase

/-! ## Programs -/

namespace SpanTree

variable {tokens : List Token} {tree : SpanTree}

theorem Nested.node_of_mem (nested : tree.Nested tokens) :
    ∀ node ∈ tree.nodes, node.Nested tokens ∧ node.span.Within tree.span := by
  induction nested with
  | @node span parts covers within apart nested inductionHypothesis =>
      simp only [nodes, List.forall_mem_cons]
      constructor
      · exact ⟨.node covers within apart nested, Nat.le_refl _, Nat.le_refl _⟩
      · intro node member
        obtain ⟨part, isPart, member⟩ := mem_nodesAll.mp member
        obtain ⟨nested', within'⟩ := inductionHypothesis part isPart node member
        exact ⟨nested', within'.trans (within part isPart)⟩

/-- The stretches of what was read from tokens, the root apart: they run from token to token and
lie in that of the root.  Everywhere the stretches of the parts lie in that of the whole, and none
of them reaches into another. -/
structure Nests (tree : SpanTree) (tokens : List Token) : Prop where
  runs : ∀ node ∈ nodesAll tree.parts, node.span.Runs tokens
  inside : ∀ node ∈ nodesAll tree.parts, node.span.Within tree.span
  within : ∀ node ∈ tree.nodes, ∀ part ∈ node.parts, part.span.Within node.span
  apart : ∀ node ∈ tree.nodes, node.parts.Pairwise fun one other => one.span.Apart other.span

theorem Nested.nests (nested : tree.Nested tokens) (ordered : Token.InOrder tokens) :
    tree.Nests tokens := by
  have deep := nested.node_of_mem
  have below : ∀ node ∈ nodesAll tree.parts, node ∈ tree.nodes := by
    obtain ⟨span, parts⟩ := tree
    exact fun node member => List.mem_cons_of_mem _ member
  constructor
  · exact fun node member => (deep node (below node member)).1.covers.runs ordered
  · exact fun node member => (deep node (below node member)).2
  · intro node member
    obtain ⟨-, within, -, -⟩ := (deep node member).1
    exact within
  · intro node member
    obtain ⟨-, -, apart, -⟩ := (deep node member).1
    exact apart

end SpanTree

theorem Program.SpelledBy.nests {p : Program Unit} {tokens : List Token}
    (spelled : p.SpelledBy tokens) (ordered : Token.InOrder tokens) :
    p.spanTree.Nests tokens := by
  obtain ⟨front, back, whole, body, tail⟩ := spelled.parts
  have lie : Lie (Stmt.spanTrees p.body ++ Expr.spanTreesOption p.tail) tokens := by
    rw [whole]
    exact body.lie.append tail.lie
  by_cases empty : tokens = []
  · -- Nothing lies over no tokens.
    have nested := (lie ordered).1
    have none : Stmt.spanTrees p.body ++ Expr.spanTreesOption p.tail = [] := by
      rw [List.eq_nil_iff_forall_not_mem]
      intro tree member
      obtain ⟨first, isFirst, -⟩ := (nested tree member).covers
      rw [empty] at isFirst
      cases isFirst
    constructor <;> simp [Program.spanTree, none, SpanTree.parts, SpanTree.nodes, SpanTree.nodesAll]
  · have single := lie.whole empty (spelled.span empty)
    exact ((single ordered).1 _ (by simp [Program.spanTree])).nests ordered

/-- In whatever is read from a source, the stretches of source that the nodes carry nest. -/
theorem Mode.nests_of_parse {mode : Mode} {source : String} {tokens : TokenList}
    {output : Parser.Output} (read : Lexer.tokenize source = .ok tokens)
    (parsed : mode.parse tokens = .ok output) : output.program.spanTree.Nests tokens.items :=
  (spelled_of_parse read parsed).nests (Token.inOrder_of_tokenize read)

/-- The tokens of `(float) (a + 1)`. -/
def castSum : TokenList :=
  ⟨[⟨.mark .leftParen, ⟨0, 1⟩⟩, ⟨.basicType .float, ⟨1, 6⟩⟩, ⟨.mark .rightParen, ⟨6, 7⟩⟩,
    ⟨.mark .leftParen, ⟨8, 9⟩⟩, ⟨.ident "a", ⟨9, 10⟩⟩, ⟨.mark .plus, ⟨11, 12⟩⟩,
    ⟨.int 1, ⟨13, 14⟩⟩, ⟨.mark .rightParen, ⟨14, 15⟩⟩], 15⟩

/-- The stretches of a cast of a sum in parentheses. -/
theorem Mode.nests_castSum : ∃ output, Lexer.tokenize "(float) (a + 1)" = .ok castSum ∧
    Mode.expression.parse castSum = .ok output ∧
      output.program.spanTree.Nests castSum.items := by
  have read : Lexer.tokenize "(float) (a + 1)" = .ok castSum := by decide +kernel
  have parses : (Mode.expression.parse castSum).toOption.isSome := by cbv
  obtain ⟨output, found⟩ := Option.isSome_iff_exists.mp parses
  have parsed := eq_ok_of_toOption found
  exact ⟨output, read, parsed, Mode.nests_of_parse read parsed⟩

end Formulae
