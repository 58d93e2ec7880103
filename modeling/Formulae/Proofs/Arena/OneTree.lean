import Formulae.Arena.Store
import Formulae.Proofs.Arena.Agreement
import Formulae.Proofs.Arena.Forest
import Mathlib

/-!
# What is read is one tree

Putting a tree into storage leaves one node without a parent, its root (`Expr.turns_store`,
`Stmt.turns_store`), and a formula refers to all nodes that are left.  So reading any tokens leaves
exactly one tree in storage, whatever was tried on the way (`Mode.isOneTree_of_parse`).
-/

namespace Formulae

namespace Arena

variable {β γ : Type} {before : List Ref} {step : StateM Arena β} {after : β → List Ref}

/-- The step takes these nodes without a parent, and leaves those. -/
def Turns (before : List Ref) (step : StateM Arena β) (after : β → List Ref) : Prop :=
  ∀ (a : Arena) (orphans : List Ref), a.Forest (before ++ orphans) →
    (step a).2.Forest (after (step a).1 ++ orphans)

theorem Turns.bind {next : β → StateM Arena γ} {last : γ → List Ref} (first : Turns before step after)
    (rest : ∀ value, Turns (after value) (next value) last) : Turns before (step >>= next) last :=
  fun _ _ forest => rest _ _ _ (first _ _ forest)

theorem turns_pure {value : β} (same : before = after value) : Turns before (pure value) after :=
  fun _ _ forest => same ▸ forest

/-- Other nodes without a parent stay so. -/
theorem Turns.beside (turns : Turns [] step after) (others : List Ref) :
    Turns others step fun value => others ++ after value := by
  intro a orphans forest
  have whole := turns a (others ++ orphans) forest
  refine whole.perm ?_
  rw [List.append_assoc]
  exact List.perm_append_comm_assoc _ _ _

theorem Turns.perm {others : List Ref} (turns : Turns before step after)
    (same : others.Perm before) : Turns others step after :=
  fun a orphans forest => turns a orphans (forest.perm (same.append_right orphans))

/-- An expression without a list of items. -/
theorem turns_addExpr {kind : ExprKind} (span : Span) (noItems : kind.items? = none)
    (isChildren : ∀ a : Arena, (a.exprChildren kind).map .expr = before) :
    Turns before (addExpr kind span) fun id => [.expr id] := by
  intro a orphans forest
  have unchanged : (addExprList [] a).2 = a := by simp [addExprList]
  rw [← isChildren a] at forest
  have added := forest.addExpr [] span (.inl ⟨noItems, rfl⟩) (by rw [unchanged])
  rw [unchanged] at added
  exact added

/-- An expression with a list of items. -/
theorem turns_addItems {kind : Window → ExprKind} {ids : List Nat} (span : Span)
    (isItems : ∀ w, (kind w).items? = some w)
    (isChildren : ∀ a : Arena,
      ((addExprList ids a).2.exprChildren (kind (addExprList ids a).1)).map .expr = before) :
    Turns before (addExprList ids >>= fun items => addExpr (kind items) span)
      fun id => [.expr id] := by
  intro a orphans forest
  rw [← isChildren a] at forest
  exact forest.addExpr ids span (.inr (isItems _)) rfl

/-- A statement without a list of statements and without parameters. -/
theorem turns_addStmt {kind : StmtKind} (span : Span) (noBody : kind.body? = none)
    (noParams : kind.params? = none) (isChildren : ∀ a : Arena, a.stmtChildren kind = before) :
    Turns before (addStmt kind span) fun id => [.stmt id] := by
  intro a orphans forest
  have unchanged : (addParams [] (addStmtList [] a).2).2 = a := by simp [addStmtList, addParams]
  have added := forest.addStmt [] [] span (.inl ⟨noBody, rfl⟩) (.inl ⟨noParams, rfl⟩)
    (isChildren _)
  rw [unchanged] at added
  exact added

/-- The statements of a block or a function. -/
theorem stmtChildren_addStmtList (kind : Window → StmtKind) (ids : List Nat) (a : Arena)
    (isChildren : ∀ (b : Arena) w, b.stmtChildren (kind w) = (w.slice b.stmtLists).map .stmt) :
    (addStmtList ids a).2.stmtChildren (kind (addStmtList ids a).1) = ids.map .stmt := by
  rw [isChildren]
  exact congrArg (List.map Ref.stmt) (Window.slice_append a.stmtLists ids)

theorem turns_addBlock (ids : List Nat) (span : Span) :
    Turns (ids.map .stmt) (addStmtList ids >>= fun body => addStmt (.block body) span)
      fun id => [.stmt id] := by
  intro a orphans forest
  have unchanged (b : Arena) : (addParams [] b).2 = b := by simp [addParams]
  have added := forest.addStmt ids [] span (.inr rfl) (.inl ⟨rfl, rfl⟩)
    (stmtChildren_addStmtList .block ids a fun _ _ => rfl)
  rw [unchanged] at added
  exact added

theorem turns_addFunction (ret : TypeExpr) (name : String) (params : List Param) (ids : List Nat)
    (span : Span) :
    Turns (ids.map .stmt)
      (addStmtList ids >>= fun body => addParams params >>= fun params =>
        addStmt (.function ret name params body) span)
      fun id => [.stmt id] :=
  fun a _ forest => forest.addStmt ids params span (.inr rfl) (.inr rfl)
    (stmtChildren_addStmtList (.function ret name _) ids a fun _ _ => rfl)

end Arena

open Arena (Turns turns_addExpr turns_addItems turns_addStmt)

namespace Expr

variable {α : Type}

mutual

theorem turns_store : ∀ e : Expr α, Turns [] e.store fun id => [.expr id]
  | .ident node _ | .constant node _ | .typeLiteral node _ =>
      turns_addExpr node.span rfl fun _ => rfl
  | .unary node _ operand =>
      (turns_store operand).bind fun _ => turns_addExpr node.span rfl fun _ => rfl
  | .binary node op left right => by
      by_cases cast : op = .typeCast
      · subst cast
        rw [store_cast]
        exact (turns_store right).bind fun y => ((turns_store left).beside [.expr y]).bind fun x =>
          (turns_addExpr node.span rfl fun _ => rfl : Turns [.expr x, .expr y] _ _).perm
            (List.Perm.swap _ _ _)
      · rw [store_isInfix _ _ _ cast]
        exact (turns_store left).bind fun x => ((turns_store right).beside [.expr x]).bind fun _ =>
          turns_addExpr node.span rfl fun _ => rfl
  | .ternary node cond thenBranch elseBranch =>
      (turns_store cond).bind fun c => ((turns_store thenBranch).beside [.expr c]).bind fun x =>
        ((turns_store elseBranch).beside [.expr c, .expr x]).bind fun _ =>
          turns_addExpr node.span rfl fun _ => rfl
  | .call node callee args =>
      (turns_store callee).bind fun f => ((turns_storeAll args).beside [.expr f]).bind fun xs =>
        turns_addItems node.span (fun _ => rfl) fun a =>
          congrArg (fun ids : List Nat => Ref.expr f :: ids.map .expr) (Window.slice_append a.exprLists xs)
  | .array node items =>
      (turns_storeAll items).bind fun xs => turns_addItems node.span (fun _ => rfl) fun a =>
        congrArg (List.map Ref.expr) (Window.slice_append a.exprLists xs)
  | .index node receiver subscript =>
      (turns_store receiver).bind fun x => ((turns_store subscript).beside [.expr x]).bind fun _ =>
        turns_addExpr node.span rfl fun _ => rfl

theorem turns_storeAll : ∀ list : List (Expr α), Turns [] (storeAll list) fun ids => ids.map .expr
  | [] => Arena.turns_pure rfl
  | e :: rest =>
      (turns_store e).bind fun x => ((turns_storeAll rest).beside [.expr x]).bind fun _ =>
        Arena.turns_pure rfl

end

theorem turns_storeOption : ∀ e : Option (Expr α),
    Turns [] (storeOption e) fun id => id.toList.map .expr
  | none => Arena.turns_pure rfl
  | some e => (turns_store e).bind fun _ => Arena.turns_pure rfl

end Expr

namespace Stmt

variable {α : Type}

mutual

theorem turns_store : ∀ s : Stmt α, Turns [] s.store fun id => [.stmt id]
  | .expr node e => e.turns_store.bind fun _ => turns_addStmt node.span rfl rfl fun _ => rfl
  | .varDecl node _ init =>
      init.turns_store.bind fun _ => turns_addStmt node.span rfl rfl fun _ => rfl
  | .ret node value =>
      (Expr.turns_storeOption value).bind fun _ => turns_addStmt node.span rfl rfl fun _ => rfl
  | .ifElse node cond thenBranch elseBranch =>
      cond.turns_store.bind fun c => ((turns_store thenBranch).beside [.expr c]).bind fun x =>
        ((turns_storeOption elseBranch).beside [.expr c, .stmt x]).bind fun _ =>
          turns_addStmt node.span rfl rfl fun _ => rfl
  | .whileLoop node cond body =>
      cond.turns_store.bind fun c => ((turns_store body).beside [.expr c]).bind fun _ =>
        turns_addStmt node.span rfl rfl fun _ => rfl
  | .doWhile node body cond =>
      (turns_store body).bind fun x => (cond.turns_store.beside [.stmt x]).bind fun _ =>
        turns_addStmt node.span rfl rfl fun _ => rfl
  | .forLoop node init cond step body =>
      (turns_storeOption init).bind fun _ =>
        ((Expr.turns_storeOption cond).beside _).bind fun _ =>
          ((Expr.turns_storeOption step).beside _).bind fun _ =>
            ((turns_store body).beside _).bind fun _ =>
              turns_addStmt node.span rfl rfl fun _ => rfl
  | .forEach node _ iterable body =>
      iterable.turns_store.bind fun xs => ((turns_store body).beside [.expr xs]).bind fun _ =>
        turns_addStmt node.span rfl rfl fun _ => rfl
  | .brk node | .cont node => turns_addStmt node.span rfl rfl fun _ => rfl
  | .block node stmts => (turns_storeAll stmts).bind fun ids => Arena.turns_addBlock ids node.span
  | .function node written name params body =>
      (turns_storeAll body).bind fun ids =>
        Arena.turns_addFunction written name params ids node.span

theorem turns_storeOption : ∀ s : Option (Stmt α),
    Turns [] (storeOption s) fun id => id.toList.map .stmt
  | none => Arena.turns_pure rfl
  | some s => (turns_store s).bind fun _ => Arena.turns_pure rfl

theorem turns_storeAll : ∀ list : List (Stmt α), Turns [] (storeAll list) fun ids => ids.map .stmt
  | [] => Arena.turns_pure rfl
  | s :: rest =>
      (turns_store s).bind fun x => ((turns_storeAll rest).beside [.stmt x]).bind fun _ =>
        Arena.turns_pure rfl

end

end Stmt

/-! ## Formulas -/

namespace Stored

variable {s : Stored}

theorem mem_edges_of_parent {parent child : Ref} : (some parent, child) ∈ s.edges ↔
    parent ∈ s.arena.refs ∧ child ∈ s.arena.children parent := by
  simp [edges]

theorem ends_edges (s : Stored) : s.edges.map Prod.snd = s.roots ++ s.arena.targets := by
  simp [edges, Arena.targets, List.map_flatMap, Function.comp_def]

/-- How many nodes may still stand above the node. -/
def height (s : Stored) : Ref → Nat
  | .expr id => s.arena.stmts.length + 1 + (s.arena.exprs.length - id)
  | .stmt id => s.arena.stmts.length - id

theorem height_lt {parent child : Ref} (before : child.Before parent)
    (inside : parent ∈ s.arena.refs) : s.height parent < s.height child := by
  cases child with
  | expr i =>
      cases parent with
      | expr j =>
          have below := Arena.expr_mem_refs.mp inside
          have smaller : i < j := before
          simp only [height]
          omega
      | stmt j =>
          simp only [height]
          omega
  | stmt i =>
      cases parent with
      | expr j => exact before.elim
      | stmt j =>
          have below := Arena.stmt_mem_refs.mp inside
          have smaller : i < j := before
          simp only [height]
          omega

/-- If each node has an edge to it, and children stand before their parents, then each node is
reached. -/
theorem reaches_of_edges (ends : (s.edges.map Prod.snd).Perm s.arena.refs)
    (before : ∀ parent child, (some parent, child) ∈ s.edges → child.Before parent) (ref : Ref)
    (member : ref ∈ s.arena.refs) : s.Reaches ref := by
  rcases List.mem_map.mp (ends.symm.subset member) with ⟨⟨start, _⟩, edge, rfl⟩
  cases start with
  | none => exact .root edge
  | some parent =>
      have inside := (mem_edges_of_parent.mp edge).1
      have higher := height_lt (before parent _ edge) inside
      exact .child (reaches_of_edges ends before parent inside) edge
termination_by s.height ref

theorem nodup_refs (a : Arena) : a.refs.Nodup := by
  refine List.nodup_append.mpr ⟨?_, ?_, ?_⟩
  · exact List.Nodup.map (fun _ _ same => Ref.expr.inj same) List.nodup_range
  · exact List.Nodup.map (fun _ _ same => Ref.stmt.inj same) List.nodup_range
  · intro one isExpr two isStmt
    obtain ⟨_, -, rfl⟩ := List.mem_map.mp isExpr
    obtain ⟨_, -, rfl⟩ := List.mem_map.mp isStmt
    exact nofun

end Stored

/-- A formula that refers to all nodes without a parent. -/
theorem Arena.Forest.isOneTree {a : Arena} {ids : List Nat} {e : Option Nat}
    (forest : a.Forest (ids.map .stmt ++ e.toList.map .expr)) (span : Span) :
    Stored.IsOneTree ⟨(addStmtList ids a).2, (addStmtList ids a).1, e, span⟩ := by
  set s : Stored := ⟨(addStmtList ids a).2, (addStmtList ids a).1, e, span⟩ with isS
  have grown : a ≤ s.arena := le_addStmtList ids a
  have roots : s.roots = ids.map .stmt ++ e.toList.map .expr :=
    congrArg (fun ids : List Nat => ids.map Ref.stmt ++ e.toList.map .expr)
      (Window.slice_append a.stmtLists ids)
  have targets : s.arena.targets = a.targets :=
    List.flatMap_congr fun _ member => forest.children_of_le grown member
  have ends : (s.edges.map Prod.snd).Perm s.arena.refs := by
    rw [s.ends_edges, roots, targets]
    exact List.perm_append_comm.trans forest.edges
  have before (parent child : Ref) (edge : (some parent, child) ∈ s.edges) :
      child.Before parent := by
    obtain ⟨inside, isChild⟩ := Stored.mem_edges_of_parent.mp edge
    rw [forest.children_of_le grown inside] at isChild
    exact forest.before parent inside child isChild
  exact
    { reached := Stored.reaches_of_edges ends before
      oneEdge := by
        intro ref member
        rw [ends.count_eq]
        exact List.count_eq_one_of_mem (Stored.nodup_refs s.arena) member
      inside := fun edge member => ends.subset (List.mem_map_of_mem member)
      before := before
      exprLists := forest.exprLists
      stmtLists := by
        have tile := forest.stmtLists.snoc ids.length
        rw [← List.length_append] at tile
        exact tile
      params := forest.params }

/-- The storage of a tree is one tree. -/
theorem Program.isOneTree_stored (p : Program Unit) : p.stored.IsOneTree := by
  obtain ⟨body, tail, span⟩ := p
  have turns : Turns [] (Build.storeBody (body, tail)) fun stored =>
      stored.1.map .stmt ++ stored.2.toList.map .expr :=
    (Stmt.turns_storeAll body).bind fun _ =>
      ((Expr.turns_storeOption tail).beside _).bind fun _ => Arena.turns_pure rfl
  have forest := turns .empty [] Arena.forest_empty
  rw [List.append_nil] at forest
  rw [Build.stored_eq body tail span rfl]
  exact forest.isOneTree span

/-- Where reading tokens into a tree succeeds, so does reading them into storage, with the tree,
and storage holds as many expressions and statements as the tree has, which are one tree. -/
theorem Mode.isOneTree_of_parse {mode : Mode} {tokens : TokenList} {output : Parser.Output}
    (parsed : mode.parse tokens = .ok output) :
    ∃ stored, mode.store tokens = .ok stored ∧ stored = output.program.stored ∧
      stored.arena.exprs.length = output.exprs ∧ stored.arena.stmts.length = output.stmts ∧
      stored.IsOneTree := by
  cases mode.same tokens with
  | ok reads stores exprs stmts =>
      cases parsed.symm.trans reads
      exact ⟨_, stores, rfl, exprs, stmts, Program.isOneTree_stored _⟩
  | error reads stores => cases parsed.symm.trans reads

/-- A formula whose statements are tried in several forms, with a cast and lists of items. -/
def looping : String :=
  "for (int i = f(\x7b1\x7d);;) break; (int) i"

/-- All tries but the ones that fit are given up. -/
theorem Mode.isOneTree_of_parse_loop : ∃ tokens output stored,
    Lexer.tokenize looping = .ok tokens ∧ Mode.program.parse tokens = .ok output ∧
      Mode.program.store tokens = .ok stored ∧ stored.arena.exprs.length = 7 ∧
      stored.arena.stmts.length = 3 ∧ stored.IsOneTree := by
  have reads : (Lexer.tokenize looping).toOption.bind
      (fun tokens => (Mode.program.parse tokens).toOption.map fun output =>
        (output.exprs, output.stmts)) = some (7, 3) := by cbv
  rcases Option.bind_eq_some_iff.mp reads with ⟨tokens, lexed, reads⟩
  rcases Option.map_eq_some_iff.mp reads with ⟨output, parsed, counts⟩
  rcases Prod.mk.inj counts with ⟨exprs, stmts⟩
  have parsed' : Mode.program.parse tokens = .ok output := eq_ok_of_toOption parsed
  rcases Mode.isOneTree_of_parse parsed' with ⟨stored, stores, -, exprs', stmts', oneTree⟩
  exact ⟨tokens, output, stored, eq_ok_of_toOption lexed, parsed', stores, exprs'.trans exprs,
    stmts'.trans stmts, oneTree⟩

end Formulae
