import Formulae.Arena.Edges
import Formulae.Proofs.Arena.Stored
import Mathlib.Data.List.Perm.Basic

/-!
# Storage while it is filled

While a tree is put into storage, some nodes have no parent yet.  At any time each node has one
edge to it or is one of these (`Arena.Forest`).  Adding a node takes some of them as its children
and leaves the new node without a parent.
-/

namespace Formulae

namespace Window

variable {α : Type} {windows : List Window} {length : Nat}

theorem slice_of_prefix {w : Window} {list longer : List α} (inside : w.start + w.length ≤ list.length)
    (grown : list <+: longer) : w.slice longer = w.slice list := by
  obtain ⟨more, rfl⟩ := grown
  rw [slice, slice, List.drop_append_of_le_length (by omega),
    List.take_append_of_le_length (by rw [List.length_drop]; omega)]

/-- The window of what is added at the end shows just this. -/
theorem slice_append (list more : List α) :
    (Window.mk list.length more.length).slice (list ++ more) = more := by
  simp [slice]

theorem Tile.nil : Tile [] 0 :=
  ⟨nofun, .nil, nofun⟩

/-- A window of what is added at the end. -/
theorem Tile.snoc (tile : Tile windows length) (count : Nat) :
    Tile (windows ++ [⟨length, count⟩]) (length + count) where
  inside := by
    intro w member
    rcases List.mem_append.mp member with old | new
    · have := tile.inside w old
      omega
    · obtain rfl := List.mem_singleton.mp new
      exact Nat.le_refl _
  disjoint := by
    refine List.pairwise_append.mpr ⟨tile.disjoint, List.pairwise_singleton _ _, ?_⟩
    intro v old w new i inOld inNew
    obtain rfl := List.mem_singleton.mp new
    have := tile.inside v old
    have := inOld.2
    have below : length ≤ i := inNew.1
    omega
  covers := by
    intro i below
    by_cases earlier : i < length
    · rcases tile.covers i earlier with ⟨w, member, has⟩
      exact ⟨w, List.mem_append_left _ member, has⟩
    · exact ⟨⟨length, count⟩, List.mem_append_right _ List.mem_cons_self,
        Nat.not_lt.mp earlier, below⟩

/-- A list that grows by what a new window shows, or not at all. -/
theorem Tile.grow (tile : Tile windows length) {new : Option Window} {count : Nat}
    (window : new = none ∧ count = 0 ∨ new = some ⟨length, count⟩) :
    Tile (windows ++ new.toList) (length + count) := by
  rcases window with ⟨rfl, rfl⟩ | rfl
  · simpa using tile
  · exact tile.snoc count

end Window

namespace Arena

/-- All ends of edges between nodes. -/
def targets (a : Arena) : List Ref :=
  a.refs.flatMap a.children

/-- Each node has one edge to it or is among these, children stand before their parents, and the
lists hold nothing but children and parameters. -/
structure Forest (a : Arena) (orphans : List Ref) : Prop where
  edges : (a.targets ++ orphans).Perm a.refs
  before : ∀ parent ∈ a.refs, ∀ child ∈ a.children parent, child.Before parent
  exprLists : Window.Tile a.exprWindows a.exprLists.length
  stmtLists : Window.Tile a.stmtWindows a.stmtLists.length
  params : Window.Tile a.paramWindows a.params.length

theorem forest_empty : empty.Forest [] :=
  ⟨.nil, nofun, .nil, .nil, .nil⟩

variable {a b : Arena} {orphans others : List Ref}

@[simp]
theorem expr_mem_refs {id : Nat} : .expr id ∈ a.refs ↔ id < a.exprs.length := by
  simp [refs]

@[simp]
theorem stmt_mem_refs {id : Nat} : .stmt id ∈ a.refs ↔ id < a.stmts.length := by
  simp [refs]

theorem Forest.perm (forest : a.Forest orphans) (same : orphans.Perm others) : a.Forest others :=
  { forest with edges := (same.symm.append_left _).trans forest.edges }

theorem Forest.mem_refs (forest : a.Forest orphans) {ref : Ref} (member : ref ∈ orphans) :
    ref ∈ a.refs :=
  forest.edges.subset (List.mem_append_right _ member)

/-! ## What has grown -/

theorem exprChildren_of_le (tile : Window.Tile a.exprWindows a.exprLists.length) (grown : a ≤ b)
    {cell : Cell ExprKind} (member : cell ∈ a.exprs) :
    b.exprChildren cell.kind = a.exprChildren cell.kind := by
  have same {w : Window} (isItems : cell.kind.items? = some w) :
      w.slice b.exprLists = w.slice a.exprLists :=
    Window.slice_of_prefix (tile.inside w (List.mem_filterMap.mpr ⟨cell, member, isItems⟩))
      grown.exprLists
  unfold exprChildren
  cases kind : cell.kind with
  | call callee args => simp only [same (by rw [kind]; rfl)]
  | array items => simp only [same (by rw [kind]; rfl)]
  | _ => rfl

theorem stmtChildren_of_le (tile : Window.Tile a.stmtWindows a.stmtLists.length) (grown : a ≤ b)
    {cell : Cell StmtKind} (member : cell ∈ a.stmts) :
    b.stmtChildren cell.kind = a.stmtChildren cell.kind := by
  have same {w : Window} (isBody : cell.kind.body? = some w) :
      w.slice b.stmtLists = w.slice a.stmtLists :=
    Window.slice_of_prefix (tile.inside w (List.mem_filterMap.mpr ⟨cell, member, isBody⟩))
      grown.stmtLists
  unfold stmtChildren
  cases kind : cell.kind with
  | block stmts => simp only [same (by rw [kind]; rfl)]
  | function ret name params body => simp only [same (by rw [kind]; rfl)]
  | _ => rfl

/-- Nodes keep their children. -/
theorem Forest.children_of_le (forest : a.Forest orphans) (grown : a ≤ b) {ref : Ref}
    (member : ref ∈ a.refs) : b.children ref = a.children ref := by
  cases ref with
  | expr id =>
      have inside := expr_mem_refs.mp member
      have found := List.prefix_iff_getElem?.mp grown.exprs id inside
      rw [children, children, found, List.getElem?_eq_getElem inside]
      simp only [Option.map_some, Option.getD_some,
        exprChildren_of_le forest.exprLists grown (List.getElem_mem inside)]
  | stmt id =>
      have inside := stmt_mem_refs.mp member
      have found := List.prefix_iff_getElem?.mp grown.stmts id inside
      rw [children, children, found, List.getElem?_eq_getElem inside]
      simp only [Option.map_some, Option.getD_some,
        stmtChildren_of_le forest.stmtLists grown (List.getElem_mem inside)]

theorem Forest.targets_of_le (forest : a.Forest orphans) (grown : a ≤ b) {ref : Ref}
    (refs : b.refs.Perm (a.refs ++ [ref])) : b.targets.Perm (a.targets ++ b.children ref) := by
  have old : a.refs.flatMap b.children = a.targets :=
    List.flatMap_congr fun _ member => forest.children_of_le grown member
  have whole := refs.flatMap_right b.children
  rw [List.flatMap_append, old, List.flatMap_singleton] at whole
  exact whole

/-- One more node, which has some of the nodes without parents as its children. -/
theorem Forest.edges_of_le (forest : a.Forest (others ++ orphans)) (grown : a ≤ b) {ref : Ref}
    (refs : b.refs.Perm (a.refs ++ [ref])) (children : b.children ref = others) :
    (b.targets ++ ref :: orphans).Perm b.refs := by
  have targets := forest.targets_of_le grown refs
  rw [children] at targets
  calc
    (b.targets ++ ref :: orphans).Perm (a.targets ++ others ++ ref :: orphans) :=
      targets.append_right _
    _ = a.targets ++ (others ++ ref :: orphans) := List.append_assoc _ _ _
    _ |>.Perm (a.targets ++ (ref :: (others ++ orphans))) :=
      List.perm_middle.append_left _
    _ |>.Perm (ref :: (a.targets ++ (others ++ orphans))) := List.perm_middle
    _ |>.Perm (ref :: a.refs) := forest.edges.cons _
    _ |>.Perm (a.refs ++ [ref]) := (List.perm_append_singleton _ _).symm
    _ |>.Perm b.refs := refs.symm

/-! ## Adding nodes -/

theorem refs_addExpr (kind : ExprKind) (span : Span) (a : Arena) :
    (addExpr kind span a).2.refs.Perm (a.refs ++ [.expr a.exprs.length]) := by
  have whole : (addExpr kind span a).2.refs =
      (List.range a.exprs.length).map Ref.expr ++ .expr a.exprs.length ::
        (List.range a.stmts.length).map .stmt := by
    simp [refs, addExpr, List.range_succ]
  rw [whole]
  exact List.perm_middle.trans (List.perm_append_singleton _ _).symm

theorem refs_addStmt (kind : StmtKind) (span : Span) (a : Arena) :
    (addStmt kind span a).2.refs.Perm (a.refs ++ [.stmt a.stmts.length]) := by
  have whole : (addStmt kind span a).2.refs = a.refs ++ [.stmt a.stmts.length] := by
    simp [refs, addStmt, List.range_succ]
  rw [whole]

theorem filterMap_concat {α β : Type} (f : α → Option β) (list : List α) (last : α) :
    (list ++ [last]).filterMap f = list.filterMap f ++ (f last).toList := by
  cases given : f last <;> simp [given]

/-- Storage with one more expression, whose list of items, if any, is new. -/
theorem Forest.addExpr {children : List Nat} {kind : ExprKind}
    (forest : a.Forest (children.map .expr ++ orphans)) (items : List Nat) (span : Span)
    (isItems : kind.items? = none ∧ items = [] ∨
      kind.items? = some (Arena.addExprList items a).1)
    (isChildren : (Arena.addExprList items a).2.exprChildren kind = children) :
    (Arena.addExpr kind span (Arena.addExprList items a).2).2.Forest
      (.expr a.exprs.length :: orphans) := by
  have grown : a ≤ (Arena.addExpr kind span (Arena.addExprList items a).2).2 :=
    le_trans (le_addExprList items a) (le_addExpr kind span _)
  have refs : (Arena.addExpr kind span (Arena.addExprList items a).2).2.refs.Perm
      (a.refs ++ [.expr a.exprs.length]) :=
    refs_addExpr kind span _
  have own : (Arena.addExpr kind span (Arena.addExprList items a).2).2.children
      (.expr a.exprs.length) = children.map .expr := by
    have found : (Arena.addExpr kind span (Arena.addExprList items a).2).2.exprs[a.exprs.length]? =
        some ⟨kind, span⟩ :=
      List.getElem?_concat_length
    rw [Arena.children, found]
    exact congrArg (List.map Ref.expr) isChildren
  exact
    { edges := forest.edges_of_le grown refs own
      before := by
        intro parent member child isChild
        rcases List.mem_append.mp (refs.mem_iff.mp member) with old | new
        · rw [forest.children_of_le grown old] at isChild
          exact forest.before parent old child isChild
        · obtain rfl := List.mem_singleton.mp new
          rw [own] at isChild
          have inside := forest.mem_refs (List.mem_append_left _ isChild)
          obtain ⟨id, -, rfl⟩ := List.mem_map.mp isChild
          exact expr_mem_refs.mp inside
      exprLists := by
        have window : kind.items? = none ∧ items.length = 0 ∨
            kind.items? = some ⟨a.exprLists.length, items.length⟩ :=
          isItems.imp_left fun none => ⟨none.1, by rw [none.2]; rfl⟩
        have tile := forest.exprLists.grow window
        have windows : (Arena.addExpr kind span (Arena.addExprList items a).2).2.exprWindows =
            a.exprWindows ++ kind.items?.toList :=
          filterMap_concat _ _ _
        rw [← List.length_append] at tile
        rw [windows]
        exact tile
      stmtLists := forest.stmtLists
      params := forest.params }

/-- Storage with one more statement, whose list of statements and whose parameters, if any, are
new. -/
theorem Forest.addStmt {children : List Ref} {kind : StmtKind}
    (forest : a.Forest (children ++ orphans)) (ids : List Nat) (params : List Param) (span : Span)
    (isBody : kind.body? = none ∧ ids = [] ∨ kind.body? = some (Arena.addStmtList ids a).1)
    (isParams : kind.params? = none ∧ params = [] ∨
      kind.params? = some (Arena.addParams params a).1)
    (isChildren : (Arena.addStmtList ids a).2.stmtChildren kind = children) :
    (Arena.addStmt kind span (Arena.addParams params (Arena.addStmtList ids a).2).2).2.Forest
      (.stmt a.stmts.length :: orphans) := by
  set b := (Arena.addStmt kind span (Arena.addParams params (Arena.addStmtList ids a).2).2).2
    with isB
  have grown : a ≤ b :=
    le_trans (le_addStmtList ids a) (le_trans (le_addParams params _) (le_addStmt kind span _))
  have refs : b.refs.Perm (a.refs ++ [.stmt a.stmts.length]) := refs_addStmt kind span _
  have own : b.children (.stmt a.stmts.length) = children := by
    have found : b.stmts[a.stmts.length]? = some ⟨kind, span⟩ := List.getElem?_concat_length
    rw [Arena.children, found]
    exact isChildren
  exact
    { edges := forest.edges_of_le grown refs own
      before := by
        intro parent member child isChild
        rcases List.mem_append.mp (refs.mem_iff.mp member) with old | new
        · rw [forest.children_of_le grown old] at isChild
          exact forest.before parent old child isChild
        · obtain rfl := List.mem_singleton.mp new
          rw [own] at isChild
          have inside := forest.mem_refs (List.mem_append_left _ isChild)
          cases child with
          | expr id => trivial
          | stmt id => exact stmt_mem_refs.mp inside
      exprLists := forest.exprLists
      stmtLists := by
        have window : kind.body? = none ∧ ids.length = 0 ∨
            kind.body? = some ⟨a.stmtLists.length, ids.length⟩ :=
          isBody.imp_left fun none => ⟨none.1, by rw [none.2]; rfl⟩
        have tile := forest.stmtLists.grow window
        have windows : b.stmtWindows = a.stmtWindows ++ kind.body?.toList := filterMap_concat _ _ _
        rw [← List.length_append] at tile
        rw [windows]
        exact tile
      params := by
        have window : kind.params? = none ∧ params.length = 0 ∨
            kind.params? = some ⟨a.params.length, params.length⟩ :=
          isParams.imp_left fun none => ⟨none.1, by rw [none.2]; rfl⟩
        have tile := forest.params.grow window
        have windows : b.paramWindows = a.paramWindows ++ kind.params?.toList :=
          filterMap_concat _ _ _
        rw [← List.length_append] at tile
        rw [windows]
        exact tile }

end Arena

end Formulae
