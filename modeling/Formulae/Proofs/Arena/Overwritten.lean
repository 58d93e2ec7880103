import Formulae.Proofs.Arena.Agreement
import Formulae.Proofs.Parser.Numbers
import Formulae.Proofs.RoundTrip
import Formulae.Proofs.Tree.Edited
import Mathlib

/-!
# Storage with some nodes overwritten

Trees that differ in some leaves are stored step by step in the same way.  In what is stored only
the nodes of these leaves differ, at the places that the numbers of the leaves name
(`Program.overwrites_rename`, `Program.overwrites_requote`).
-/

namespace Formulae

variable {α β γ : Type}

namespace Arena

/-- The same storage with this kind of expression at the places. -/
def overwrite (places : List Nat) (kind : ExprKind) (a : Arena) : Arena :=
  { a with exprs := a.exprs.mapIdx fun place cell =>
      if place ∈ places then ⟨kind, cell.span⟩ else cell }

/-- The second storage is the first with one kind of expression in place of another at the places,
each of which is listed once. -/
structure Overwritten (before after : ExprKind) (places : List Nat) (a b : Arena) : Prop where
  eq : b = a.overwrite places after
  nodup : places.Nodup
  before : ∀ place ∈ places, ∃ span, a.exprs[place]? = some ⟨before, span⟩

variable {before after : ExprKind} {places others : List Nat} {a b : Arena}

theorem Overwritten.lt_length (overwritten : Overwritten before after places a b) {place : Nat}
    (member : place ∈ places) : place < a.exprs.length := by
  obtain ⟨span, found⟩ := overwritten.before place member
  exact (List.getElem?_eq_some_iff.mp found).1

theorem Overwritten.length_eq (overwritten : Overwritten before after places a b) :
    b.exprs.length = a.exprs.length := by
  rw [overwritten.eq, overwrite, List.length_mapIdx]

theorem Overwritten.perm (overwritten : Overwritten before after places a b)
    (same : places.Perm others) : Overwritten before after others a b := by
  refine ⟨?_, same.nodup_iff.mp overwritten.nodup, fun place member =>
    overwritten.before place (same.symm.subset member)⟩
  rw [overwritten.eq, overwrite, overwrite]
  simp only [same.mem_iff]

theorem overwritten_empty : Overwritten before after [] .empty .empty :=
  ⟨rfl, .nil, nofun⟩

/-- A node that both add. -/
theorem Overwritten.addExpr (overwritten : Overwritten before after places a b) (kind : ExprKind)
    (span : Span) :
    Overwritten before after places (Arena.addExpr kind span a).2 (Arena.addExpr kind span b).2 := by
  have notLast : a.exprs.length ∉ places := fun member =>
    Nat.lt_irrefl _ (overwritten.lt_length member)
  refine ⟨?_, overwritten.nodup, fun place member => ?_⟩
  · simp [Arena.addExpr, overwritten.eq, overwrite, List.mapIdx_append, notLast]
  · obtain ⟨span, found⟩ := overwritten.before place member
    refine ⟨span, ?_⟩
    rw [Arena.addExpr, List.getElem?_append_left (overwritten.lt_length member)]
    exact found

/-- A node that differs. -/
theorem Overwritten.addOther (overwritten : Overwritten before after places a b) (span : Span) :
    Overwritten before after (places ++ [a.exprs.length]) (Arena.addExpr before span a).2
      (Arena.addExpr after span b).2 := by
  have notLast : a.exprs.length ∉ places := fun member =>
    Nat.lt_irrefl _ (overwritten.lt_length member)
  have earlier : (a.exprs.mapIdx fun place cell =>
      if place ∈ places then (⟨after, cell.span⟩ : Cell ExprKind) else cell) =
        a.exprs.mapIdx fun place cell =>
          if place ∈ places ++ [a.exprs.length] then ⟨after, cell.span⟩ else cell :=
    List.mapIdx_eq_mapIdx_iff.mpr fun place inside => by simp [Nat.ne_of_lt inside]
  refine ⟨?_, ?_, ?_⟩
  · simp [Arena.addExpr, overwritten.eq, overwrite, List.mapIdx_append, earlier]
  · rw [List.nodup_append]
    refine ⟨overwritten.nodup, by simp, fun place member other last same => ?_⟩
    rw [List.mem_singleton.mp last] at same
    exact notLast (same ▸ member)
  · rw [List.forall_mem_append]
    constructor
    · intro place member
      obtain ⟨span, found⟩ := overwritten.before place member
      exact ⟨span, (List.getElem?_append_left (overwritten.lt_length member)).trans found⟩
    · simp [Arena.addExpr]

/-! ## Steps -/

/-- Both steps add the nodes of these entries, the second one with other nodes at the places, and
come to the same result. -/
def Overwrites (before after : ExprKind) (entries : List ExprEntry) (places : List Nat)
    (step step' : StateM Arena β) : Prop :=
  ∀ a b done, ExprEntry.InTurn a.exprs.length entries →
    (∀ entry ∈ entries, entry.form.IsRead) → Overwritten before after done a b →
      (step' b).1 = (step a).1 ∧
        Overwritten before after (done ++ places) (step a).2 (step' b).2 ∧
          (step a).2.exprs.length = a.exprs.length + entries.length

variable {entries more : List ExprEntry}

theorem overwrites_pure (value : β) :
    Overwrites before after [] [] (pure value : StateM Arena β) (pure value) := by
  intro a b done _ _ overwritten
  rw [List.append_nil]
  exact ⟨rfl, overwritten, rfl⟩

theorem Overwrites.bind {step step' : StateM Arena β} {next next' : β → StateM Arena γ}
    (first : Overwrites before after entries places step step')
    (second : ∀ value, Overwrites before after more others (next value) (next' value)) :
    Overwrites before after (entries ++ more) (places ++ others) (step >>= next)
      (step' >>= next') := by
  intro a b done inTurn isRead overwritten
  rw [ExprEntry.inTurn_append] at inTurn
  rw [List.forall_mem_append] at isRead
  obtain ⟨value, middle, length⟩ := first a b done inTurn.1 isRead.1 overwritten
  rw [← length] at inTurn
  obtain ⟨result, last, length'⟩ :=
    second (step a).1 (step a).2 (step' b).2 (done ++ places) inTurn.2 isRead.2 middle
  have run : (step' >>= next') b = next' (step a).1 (step' b).2 := by
    rw [← value]
    rfl
  rw [run, List.length_append, ← Nat.add_assoc, ← length, ← List.append_assoc]
  exact ⟨result, last, length'⟩

/-- The places may be listed in another order. -/
theorem Overwrites.perm {step step' : StateM Arena β}
    (overwrites : Overwrites before after entries places step step')
    (same : places.Perm others) : Overwrites before after entries others step step' := by
  intro a b done inTurn isRead overwritten
  obtain ⟨value, last, length⟩ := overwrites a b done inTurn isRead overwritten
  exact ⟨value, last.perm (same.append_left done), length⟩

theorem overwrites_addExpr (entry : ExprEntry) (kind : ExprKind) (span : Span) :
    Overwrites before after [entry] [] (addExpr kind span) (addExpr kind span) := by
  intro a b done _ _ overwritten
  rw [List.append_nil]
  exact ⟨overwritten.length_eq, overwritten.addExpr kind span, by simp [addExpr]⟩

/-- The one step adds the one kind of node, the other the other. -/
theorem overwrites_other (entry : ExprEntry) (span : Span) :
    Overwrites before after [entry] [entry.number] (addExpr before span) (addExpr after span) := by
  intro a b done inTurn _ overwritten
  rw [ExprEntry.inTurn_singleton.mp inTurn]
  exact ⟨overwritten.length_eq, overwritten.addOther span, by simp [addExpr]⟩

/-- A step that neither reads nor changes which expressions are stored. -/
theorem overwrites_beside {step : StateM Arena β}
    (beside : ∀ a exprs, step { a with exprs } = ((step a).1, { (step a).2 with exprs })) :
    Overwrites before after [] [] step step := by
  intro a b done _ _ overwritten
  have same : (step a).2.exprs = a.exprs := congrArg (fun result => result.2.exprs) (beside a a.exprs)
  have run := beside a b.exprs
  have changed : { a with exprs := b.exprs } = b := by rw [overwritten.eq, overwrite]
  rw [changed] at run
  rw [run, List.append_nil, same]
  refine ⟨rfl, ⟨?_, overwritten.nodup, by rw [same]; exact overwritten.before⟩, rfl⟩
  rw [overwrite, same, overwritten.eq, overwrite]

theorem overwrites_addExprList (ids : List Nat) :
    Overwrites before after [] [] (addExprList ids) (addExprList ids) :=
  overwrites_beside fun _ _ => rfl

theorem overwrites_addStmtList (ids : List Nat) :
    Overwrites before after [] [] (addStmtList ids) (addStmtList ids) :=
  overwrites_beside fun _ _ => rfl

theorem overwrites_addStmt (kind : StmtKind) (span : Span) :
    Overwrites before after [] [] (addStmt kind span) (addStmt kind span) :=
  overwrites_beside fun _ _ => rfl

theorem overwrites_addParams (list : List Param) :
    Overwrites before after [] [] (addParams list) (addParams list) :=
  overwrites_beside fun _ _ => rfl

end Arena

open Arena (overwrites_pure overwrites_addExpr overwrites_other overwrites_addExprList
  overwrites_addStmtList overwrites_addStmt overwrites_addParams)

/-! ## Trees -/

section

variable {before after : ExprKind} {places others more : List Nat}

namespace Expr

/-- In what storing the first expression adds, storing the second one adds other nodes at the
places. -/
def Overwrites (before after : ExprKind) (places : List Nat) (e e' : Expr α) : Prop :=
  Arena.Overwrites before after e.completed places e.store e'.store

/-- The same of several expressions. -/
def OverwritesAll (before after : ExprKind) (places : List Nat) (es es' : List (Expr α)) : Prop :=
  Arena.Overwrites before after (completedAll es) places (storeAll es) (storeAll es')

/-- The same of expressions that may be missing. -/
def OverwritesOption (before after : ExprKind) (places : List Nat) (e e' : Option (Expr α)) :
    Prop :=
  Arena.Overwrites before after (completedOption e) places (storeOption e) (storeOption e')

variable {x x' y y' z z' : Expr α} {es es' : List (Expr α)}

theorem Overwrites.unary (operand : x.Overwrites before after places x') (node : Node α)
    (op : Operator) :
    (Expr.unary node op x).Overwrites before after places (.unary node op x') := by
  have parts := operand.bind fun i =>
    overwrites_addExpr (Expr.unary node op x).entry (.unary op i) node.span
  rw [List.append_nil] at parts
  exact parts

theorem Overwrites.binary (left : x.Overwrites before after places x')
    (right : y.Overwrites before after others y') (node : Node α) (op : Operator) :
    (Expr.binary node op x y).Overwrites before after (places ++ others)
      (.binary node op x' y') := by
  by_cases cast : op = .typeCast
  · subst cast
    have parts := right.bind fun j => left.bind fun i =>
      overwrites_addExpr (Expr.binary node .typeCast x y).entry (.binary .typeCast i j) node.span
    rw [List.append_nil, ← List.append_assoc] at parts
    rw [Overwrites, store_cast, store_cast]
    exact parts.perm List.perm_append_comm
  · have parts := left.bind fun i => right.bind fun j =>
      overwrites_addExpr (Expr.binary node op x y).entry (.binary op i j) node.span
    rw [List.append_nil, ← List.append_assoc] at parts
    rw [Overwrites, store_isInfix _ _ _ cast, store_isInfix _ _ _ cast,
      completed_isInfix _ _ _ cast]
    exact parts

theorem Overwrites.ternary (cond : x.Overwrites before after places x')
    (thenBranch : y.Overwrites before after others y')
    (elseBranch : z.Overwrites before after more z') (node : Node α) :
    (Expr.ternary node x y z).Overwrites before after (places ++ others ++ more)
      (.ternary node x' y' z') := by
  have parts := cond.bind fun c => thenBranch.bind fun i => elseBranch.bind fun j =>
    overwrites_addExpr (Expr.ternary node x y z).entry (.ternary c i j) node.span
  simp only [List.append_nil, ← List.append_assoc] at parts
  exact parts

theorem Overwrites.call (callee : x.Overwrites before after places x')
    (args : OverwritesAll before after others es es') (node : Node α) :
    (Expr.call node x es).Overwrites before after (places ++ others) (.call node x' es') := by
  have parts := callee.bind fun i => args.bind fun ids =>
    (overwrites_addExprList ids).bind fun w =>
      overwrites_addExpr (Expr.call node x es).entry (.call i w) node.span
  simp only [List.append_nil, List.nil_append, ← List.append_assoc] at parts
  exact parts

theorem OverwritesAll.array (items : OverwritesAll before after places es es') (node : Node α) :
    (Expr.array node es).Overwrites before after places (.array node es') := by
  have parts := items.bind fun ids =>
    (overwrites_addExprList ids).bind fun w =>
      overwrites_addExpr (Expr.array node es).entry (.array w) node.span
  simp only [List.append_nil, List.nil_append] at parts
  exact parts

theorem Overwrites.index (receiver : x.Overwrites before after places x')
    (subscript : y.Overwrites before after others y') (node : Node α) :
    (Expr.index node x y).Overwrites before after (places ++ others) (.index node x' y') := by
  have parts := receiver.bind fun i => subscript.bind fun j =>
    overwrites_addExpr (Expr.index node x y).entry (.index i j) node.span
  rw [List.append_nil, ← List.append_assoc] at parts
  exact parts

theorem overwritesAll_nil : OverwritesAll before after [] ([] : List (Expr α)) [] :=
  overwrites_pure []

theorem Overwrites.cons (first : x.Overwrites before after places x')
    (rest : OverwritesAll before after others es es') :
    OverwritesAll before after (places ++ others) (x :: es) (x' :: es') := by
  have parts := first.bind fun i => rest.bind fun ids => overwrites_pure (i :: ids)
  simp only [List.append_nil] at parts
  exact parts

theorem overwritesOption_none :
    OverwritesOption before after [] (none : Option (Expr α)) none :=
  overwrites_pure none

theorem Overwrites.option (value : x.Overwrites before after places x') :
    OverwritesOption before after places (some x) (some x') := by
  have parts := value.bind fun i => overwrites_pure (some i)
  simp only [List.append_nil] at parts
  exact parts

end Expr

namespace Stmt

/-- In what storing the first statement adds, storing the second one adds other nodes at the
places. -/
def Overwrites (before after : ExprKind) (places : List Nat) (s s' : Stmt α) : Prop :=
  Arena.Overwrites before after s.completed places s.store s'.store

/-- The same of statements that may be missing. -/
def OverwritesOption (before after : ExprKind) (places : List Nat) (s s' : Option (Stmt α)) :
    Prop :=
  Arena.Overwrites before after (completedOption s) places (storeOption s) (storeOption s')

/-- The same of several statements. -/
def OverwritesAll (before after : ExprKind) (places : List Nat) (stmts stmts' : List (Stmt α)) :
    Prop :=
  Arena.Overwrites before after (completedAll stmts) places (storeAll stmts) (storeAll stmts')

variable {e e' : Expr α} {value value' step step' : Option (Expr α)} {s s' body body' : Stmt α}
  {other other' : Option (Stmt α)} {stmts stmts' : List (Stmt α)} {last : List Nat}

theorem overwrites_expr (inner : e.Overwrites before after places e') (node : StmtNode) :
    (Stmt.expr node e).Overwrites before after places (.expr node e') := by
  have parts := inner.bind fun i => overwrites_addStmt (.expr i) node.span
  simp only [List.append_nil] at parts
  exact parts

theorem overwrites_varDecl (init : e.Overwrites before after places e') (node : StmtNode)
    (binder : Binder) :
    (Stmt.varDecl node binder e).Overwrites before after places (.varDecl node binder e') := by
  have parts := init.bind fun i => overwrites_addStmt (.varDecl binder i) node.span
  simp only [List.append_nil] at parts
  exact parts

theorem overwrites_ret (inner : Expr.OverwritesOption before after places value value')
    (node : StmtNode) :
    (Stmt.ret node value).Overwrites before after places (.ret node value') := by
  have parts := inner.bind fun i => overwrites_addStmt (.ret i) node.span
  simp only [List.append_nil] at parts
  exact parts

theorem overwrites_ifElse (cond : e.Overwrites before after places e')
    (thenBranch : s.Overwrites before after others s')
    (elseBranch : OverwritesOption before after more other other') (node : StmtNode) :
    (Stmt.ifElse node e s other).Overwrites before after (places ++ others ++ more)
      (.ifElse node e' s' other') := by
  have parts := cond.bind fun c => thenBranch.bind fun i => elseBranch.bind fun j =>
    overwrites_addStmt (.ifElse c i j) node.span
  simp only [List.append_nil, ← List.append_assoc] at parts
  exact parts

theorem overwrites_whileLoop (cond : e.Overwrites before after places e')
    (inner : s.Overwrites before after others s') (node : StmtNode) :
    (Stmt.whileLoop node e s).Overwrites before after (places ++ others)
      (.whileLoop node e' s') := by
  have parts := cond.bind fun c => inner.bind fun i =>
    overwrites_addStmt (.whileLoop c i) node.span
  simp only [List.append_nil] at parts
  exact parts

theorem overwrites_doWhile (inner : s.Overwrites before after places s')
    (cond : e.Overwrites before after others e') (node : StmtNode) :
    (Stmt.doWhile node s e).Overwrites before after (places ++ others) (.doWhile node s' e') := by
  have parts := inner.bind fun i => cond.bind fun c => overwrites_addStmt (.doWhile i c) node.span
  simp only [List.append_nil] at parts
  exact parts

theorem overwrites_forLoop (init : OverwritesOption before after places other other')
    (cond : Expr.OverwritesOption before after others value value')
    (next : Expr.OverwritesOption before after more step step')
    (inner : s.Overwrites before after last s') (node : StmtNode) :
    (Stmt.forLoop node other value step s).Overwrites before after
      (places ++ others ++ more ++ last) (.forLoop node other' value' step' s') := by
  have parts := init.bind fun i => cond.bind fun c => next.bind fun n => inner.bind fun b =>
    overwrites_addStmt (.forLoop i c n b) node.span
  simp only [List.append_nil, ← List.append_assoc] at parts
  exact parts

theorem overwrites_forEach (iterable : e.Overwrites before after places e')
    (inner : s.Overwrites before after others s') (node : StmtNode) (binder : Binder) :
    (Stmt.forEach node binder e s).Overwrites before after (places ++ others)
      (.forEach node binder e' s') := by
  have parts := iterable.bind fun i => inner.bind fun b =>
    overwrites_addStmt (.forEach binder i b) node.span
  simp only [List.append_nil] at parts
  exact parts

theorem overwrites_block (inner : OverwritesAll before after places stmts stmts')
    (node : StmtNode) :
    (Stmt.block node stmts).Overwrites before after places (.block node stmts') := by
  have parts := inner.bind fun ids => (overwrites_addStmtList ids).bind fun w =>
    overwrites_addStmt (.block w) node.span
  simp only [List.append_nil] at parts
  exact parts

theorem overwrites_function (inner : OverwritesAll before after places stmts stmts')
    (node : StmtNode) (ret : TypeExpr) (name : String) (params : List Param) :
    (Stmt.function node ret name params stmts).Overwrites before after places
      (.function node ret name params stmts') := by
  have parts := inner.bind fun ids => (overwrites_addStmtList ids).bind fun w =>
    (overwrites_addParams params).bind fun ps =>
      overwrites_addStmt (.function ret name ps w) node.span
  simp only [List.append_nil] at parts
  exact parts

theorem overwritesOption_none :
    OverwritesOption before after [] (none : Option (Stmt α)) none :=
  overwrites_pure none

theorem Overwrites.option (inner : s.Overwrites before after places s') :
    OverwritesOption before after places (some s) (some s') := by
  have parts := inner.bind fun i => overwrites_pure (some i)
  simp only [List.append_nil] at parts
  exact parts

theorem overwritesAll_nil : OverwritesAll before after [] ([] : List (Stmt α)) [] :=
  overwrites_pure []

theorem Overwrites.cons (first : s.Overwrites before after places s')
    (rest : OverwritesAll before after others stmts stmts') :
    OverwritesAll before after (places ++ others) (s :: stmts) (s' :: stmts') := by
  have parts := first.bind fun i => rest.bind fun ids => overwrites_pure (i :: ids)
  simp only [List.append_nil] at parts
  exact parts

end Stmt

end

/-! ## Renaming -/

namespace Renaming

/-- The numbers of the uses that are renamed. -/
def places (r : Renaming) (uses : List Occurrence) : List Nat :=
  (uses.filter fun use => use.role = r.role && use.name = r.old).map Occurrence.node

@[simp]
theorem places_append (r : Renaming) (uses more : List Occurrence) :
    r.places (uses ++ more) = r.places uses ++ r.places more := by
  simp [places]

end Renaming

namespace Expr

variable {r : Renaming}

theorem overwrites_rename_ident (bound : List String) (role : Role) (node : Node α)
    (name : String) :
    (Expr.ident node name).Overwrites (.ident r.old) (.ident r.new)
      (r.places (occurrence bound role node name))
      (.ident node (r.apply bound role name)) := by
  by_cases matched : name ∉ bound ∧ role = r.role ∧ name = r.old
  · obtain ⟨undeclared, rfl, rfl⟩ := matched
    have single : r.places (occurrence bound r.role node r.old) = [node.id] := by
      simp [Renaming.places, occurrence, undeclared]
    rw [single, Renaming.apply, if_pos ⟨undeclared, rfl, rfl⟩]
    exact overwrites_other _ node.span
  · have none : r.places (occurrence bound role node name) = [] := by
      by_cases declared : name ∈ bound
      · simp [Renaming.places, occurrence, declared]
      · simpa [Renaming.places, occurrence, declared] using matched
    rw [none, Renaming.apply, if_neg matched]
    exact overwrites_addExpr _ _ node.span

mutual

/-- Renaming overwrites the uses that are renamed. -/
theorem overwrites_rename (bound : List String) : ∀ (role : Role) (e : Expr α),
    e.Overwrites (.ident r.old) (.ident r.new) (r.places (e.free bound role))
      (e.rename r bound role)
  | role, .ident node name => overwrites_rename_ident bound role node name
  | _, .constant node _ | _, .typeLiteral node _ => overwrites_addExpr _ _ node.span
  | _, .unary node op operand => (overwrites_rename bound .variable operand).unary node op
  | _, .binary node op left right => by
      rw [rename, free, Renaming.places_append]
      exact (overwrites_rename bound .variable left).binary
        (overwrites_rename bound .variable right) node op
  | _, .ternary node cond thenBranch elseBranch => by
      rw [rename, free, Renaming.places_append, Renaming.places_append]
      exact (overwrites_rename bound .variable cond).ternary
        (overwrites_rename bound .variable thenBranch)
        (overwrites_rename bound .variable elseBranch) node
  | _, .call node callee args => by
      rw [rename, free, Renaming.places_append]
      exact (overwrites_rename bound .callee callee).call (overwrites_renameAll bound args) node
  | _, .array node items => (overwrites_renameAll bound items).array node
  | _, .index node receiver subscript => by
      rw [rename, free, Renaming.places_append]
      exact (overwrites_rename bound .variable receiver).index
        (overwrites_rename bound .variable subscript) node

theorem overwrites_renameAll (bound : List String) : ∀ es : List (Expr α),
    OverwritesAll (.ident r.old) (.ident r.new) (r.places (freeAll bound es)) es
      (renameAll r bound es)
  | [] => overwritesAll_nil
  | e :: rest => by
      rw [renameAll, freeAll, Renaming.places_append]
      exact (overwrites_rename bound .variable e).cons (overwrites_renameAll bound rest)

end

theorem overwrites_renameOption (bound : List String) : ∀ e : Option (Expr α),
    OverwritesOption (.ident r.old) (.ident r.new) (r.places (freeOption bound e)) e
      (e.map (rename r bound .variable))
  | none => overwritesOption_none
  | some e => (overwrites_rename bound .variable e).option

end Expr

namespace Stmt

variable {r : Renaming}

mutual

theorem overwrites_rename (bound : List String) : ∀ s : Stmt α,
    s.Overwrites (.ident r.old) (.ident r.new) (r.places (s.free bound)) (s.rename r bound)
  | .expr node e => overwrites_expr (Expr.overwrites_rename bound .variable e) node
  | .varDecl node binder init =>
      overwrites_varDecl (Expr.overwrites_rename bound .variable init) node binder
  | .ret node value => overwrites_ret (Expr.overwrites_renameOption bound value) node
  | .ifElse node cond thenBranch elseBranch => by
      rw [rename, free, Renaming.places_append, Renaming.places_append]
      exact overwrites_ifElse (Expr.overwrites_rename bound .variable cond)
        (overwrites_rename bound thenBranch) (overwrites_renameOption bound elseBranch) node
  | .whileLoop node cond body => by
      rw [rename, free, Renaming.places_append]
      exact overwrites_whileLoop (Expr.overwrites_rename bound .variable cond)
        (overwrites_rename bound body) node
  | .doWhile node body cond => by
      rw [rename, free, Renaming.places_append]
      exact overwrites_doWhile (overwrites_rename bound body)
        (Expr.overwrites_rename bound .variable cond) node
  | .forLoop node init cond step body => by
      simp only [rename, free, Renaming.places_append]
      exact overwrites_forLoop (overwrites_renameOption bound init)
        (Expr.overwrites_renameOption _ cond) (Expr.overwrites_renameOption _ step)
        (overwrites_rename _ body) node
  | .forEach node binder iterable body => by
      rw [rename, free, Renaming.places_append]
      exact overwrites_forEach (Expr.overwrites_rename bound .variable iterable)
        (overwrites_rename _ body) node binder
  | .brk node | .cont node => overwrites_addStmt _ node.span
  | .block node stmts => overwrites_block (overwrites_renameAll bound stmts) node
  | .function node result name params body =>
      overwrites_function (overwrites_renameAll _ body) node result name params

theorem overwrites_renameOption (bound : List String) : ∀ s : Option (Stmt α),
    OverwritesOption (.ident r.old) (.ident r.new) (r.places (freeOption bound s)) s
      (renameOption r bound s)
  | none => overwritesOption_none
  | some s => (overwrites_rename bound s).option

theorem overwrites_renameAll (bound : List String) : ∀ stmts : List (Stmt α),
    OverwritesAll (.ident r.old) (.ident r.new) (r.places (freeAll bound stmts)) stmts
      (renameAll r bound stmts)
  | [] => overwritesAll_nil
  | s :: rest => by
      rw [renameAll, freeAll, Renaming.places_append]
      exact (overwrites_rename bound s).cons (overwrites_renameAll _ rest)

end

end Stmt

/-! ## Quoted texts -/

namespace Expr

variable {old new : String}

theorem overwrites_requote_constant (node : Node α) (value : Constant) :
    (Expr.constant node value).Overwrites (.constant (.string old)) (.constant (.string new))
      (ExprEntry.quoting old (Expr.constant node value).entries)
      (.constant node (requoteConstant old new value)) := by
  by_cases quotes : value.text? = some old
  · have single : ExprEntry.quoting old (Expr.constant node value).entries = [node.id] := by
      simp [ExprEntry.quoting, entries, inner, entry, number, Expr.node, ExprEntry.text?, form,
        quotes]
    rw [single, requoteConstant, if_pos quotes]
    intro a b done inTurn isRead overwritten
    have isString : value = .string old :=
      Constant.eq_string_of_isRead (isRead _ List.mem_cons_self) quotes
    subst isString
    exact overwrites_other (Expr.constant node (.string old)).entry node.span a b done inTurn isRead
      overwritten
  · have none : ExprEntry.quoting old (Expr.constant node value).entries = [] := by
      simp [ExprEntry.quoting, entries, inner, entry, ExprEntry.text?, form, quotes]
    rw [none, requoteConstant, if_neg quotes]
    exact overwrites_addExpr _ _ node.span

mutual

/-- Requoting overwrites the literals that quote the text. -/
theorem overwrites_requote : ∀ e : Expr α,
    e.Overwrites (.constant (.string old)) (.constant (.string new))
      (ExprEntry.quoting old e.entries) (e.requote old new)
  | .constant node value => overwrites_requote_constant node value
  | .ident node _ | .typeLiteral node _ => overwrites_addExpr _ _ node.span
  | .unary node op operand => (overwrites_requote operand).unary node op
  | .binary node op left right => by
      have places : ExprEntry.quoting old (Expr.binary node op left right).entries =
          ExprEntry.quoting old left.entries ++ ExprEntry.quoting old right.entries :=
        ExprEntry.quoting_append ..
      rw [places, requote]
      exact (overwrites_requote left).binary (overwrites_requote right) node op
  | .ternary node cond thenBranch elseBranch => by
      have places : ExprEntry.quoting old (Expr.ternary node cond thenBranch elseBranch).entries =
          ExprEntry.quoting old cond.entries ++ ExprEntry.quoting old thenBranch.entries
            ++ ExprEntry.quoting old elseBranch.entries := by
        rw [← ExprEntry.quoting_append, ← ExprEntry.quoting_append]
        rfl
      rw [places, requote]
      exact (overwrites_requote cond).ternary (overwrites_requote thenBranch)
        (overwrites_requote elseBranch) node
  | .call node callee args => by
      have places : ExprEntry.quoting old (Expr.call node callee args).entries =
          ExprEntry.quoting old callee.entries ++ ExprEntry.quoting old (entriesAll args) :=
        ExprEntry.quoting_append ..
      rw [places, requote]
      exact (overwrites_requote callee).call (overwrites_requoteAll args) node
  | .array node items => (overwrites_requoteAll items).array node
  | .index node receiver subscript => by
      have places : ExprEntry.quoting old (Expr.index node receiver subscript).entries =
          ExprEntry.quoting old receiver.entries ++ ExprEntry.quoting old subscript.entries :=
        ExprEntry.quoting_append ..
      rw [places, requote]
      exact (overwrites_requote receiver).index (overwrites_requote subscript) node

theorem overwrites_requoteAll : ∀ es : List (Expr α),
    OverwritesAll (.constant (.string old)) (.constant (.string new))
      (ExprEntry.quoting old (entriesAll es)) es (requoteAll old new es)
  | [] => overwritesAll_nil
  | e :: rest => by
      have places : ExprEntry.quoting old (entriesAll (e :: rest)) =
          ExprEntry.quoting old e.entries ++ ExprEntry.quoting old (entriesAll rest) :=
        ExprEntry.quoting_append ..
      rw [places, requoteAll]
      exact (overwrites_requote e).cons (overwrites_requoteAll rest)

end

theorem overwrites_requoteOption : ∀ e : Option (Expr α),
    OverwritesOption (.constant (.string old)) (.constant (.string new))
      (ExprEntry.quoting old (entriesOption e)) e (e.map (requote old new))
  | none => overwritesOption_none
  | some e => (overwrites_requote e).option

end Expr

namespace Stmt

variable {old new : String}

mutual

theorem overwrites_requote : ∀ s : Stmt α,
    s.Overwrites (.constant (.string old)) (.constant (.string new))
      (ExprEntry.quoting old s.exprEntries) (s.requote old new)
  | .expr node e => overwrites_expr e.overwrites_requote node
  | .varDecl node binder init => overwrites_varDecl init.overwrites_requote node binder
  | .ret node value => overwrites_ret (Expr.overwrites_requoteOption value) node
  | .ifElse node cond thenBranch elseBranch => by
      rw [requote, exprEntries, ExprEntry.quoting_append, ExprEntry.quoting_append]
      exact overwrites_ifElse cond.overwrites_requote (overwrites_requote thenBranch)
        (overwrites_requoteOption elseBranch) node
  | .whileLoop node cond body => by
      rw [requote, exprEntries, ExprEntry.quoting_append]
      exact overwrites_whileLoop cond.overwrites_requote (overwrites_requote body) node
  | .doWhile node body cond => by
      rw [requote, exprEntries, ExprEntry.quoting_append]
      exact overwrites_doWhile (overwrites_requote body) cond.overwrites_requote node
  | .forLoop node init cond step body => by
      simp only [requote, exprEntries, ExprEntry.quoting_append]
      exact overwrites_forLoop (overwrites_requoteOption init)
        (Expr.overwrites_requoteOption cond) (Expr.overwrites_requoteOption step)
        (overwrites_requote body) node
  | .forEach node binder iterable body => by
      rw [requote, exprEntries, ExprEntry.quoting_append]
      exact overwrites_forEach iterable.overwrites_requote (overwrites_requote body) node binder
  | .brk node | .cont node => overwrites_addStmt _ node.span
  | .block node stmts => overwrites_block (overwrites_requoteAll stmts) node
  | .function node result name params body =>
      overwrites_function (overwrites_requoteAll body) node result name params

theorem overwrites_requoteOption : ∀ s : Option (Stmt α),
    OverwritesOption (.constant (.string old)) (.constant (.string new))
      (ExprEntry.quoting old (exprEntriesOption s)) s (requoteOption old new s)
  | none => overwritesOption_none
  | some s => (overwrites_requote s).option

theorem overwrites_requoteAll : ∀ stmts : List (Stmt α),
    OverwritesAll (.constant (.string old)) (.constant (.string new))
      (ExprEntry.quoting old (exprEntriesAll stmts)) stmts (requoteAll old new stmts)
  | [] => overwritesAll_nil
  | s :: rest => by
      rw [requoteAll, exprEntriesAll, ExprEntry.quoting_append]
      exact (overwrites_requote s).cons (overwrites_requoteAll rest)

end

end Stmt

/-! ## Formulas -/

/-- The same formula with this kind of expression at the places. -/
def Stored.overwrite (places : List Nat) (kind : ExprKind) (s : Stored) : Stored :=
  { s with arena := s.arena.overwrite places kind }

/-- Storing the second formula gives what storing the first one gives, with one kind of expression
in place of another at the places, each of which is listed once. -/
structure Program.Overwrites (before after : ExprKind) (places : List Nat) (p q : Program α) :
    Prop where
  stored : q.stored = p.stored.overwrite places after
  nodup : places.Nodup
  before : ∀ place ∈ places, ∃ span, p.stored.arena.exprs[place]? = some ⟨before, span⟩

namespace Program

variable {before after : ExprKind} {places others : List Nat} {p q : Program α}

theorem overwrites_of_parts (inTurn : ExprEntry.InTurn 0 p.completed)
    (isRead : ∀ entry ∈ p.completed, entry.form.IsRead)
    (body : Stmt.OverwritesAll before after places p.body q.body)
    (tail : Expr.OverwritesOption before after others p.tail q.tail) (span : q.span = p.span) :
    p.Overwrites before after (places ++ others) q := by
  have parts : Arena.Overwrites before after p.completed (places ++ others) p.storeIn q.storeIn := by
    have steps := body.bind fun ids => tail.bind fun e =>
      (overwrites_addStmtList ids).bind fun w => overwrites_pure (Root.mk w e p.span)
    simp only [List.append_nil] at steps
    rw [storeIn, storeIn, span]
    exact steps
  obtain ⟨root, overwritten, -⟩ := parts .empty .empty [] inTurn isRead Arena.overwritten_empty
  refine ⟨?_, overwritten.nodup, overwritten.before⟩
  change Stored.mk (q.storeIn .empty).2 (q.storeIn .empty).1 = _
  rw [root, overwritten.eq]
  rfl

/-- Renaming overwrites the uses that are renamed. -/
theorem overwrites_rename (r : Renaming) (inTurn : ExprEntry.InTurn 0 p.completed)
    (isRead : ∀ entry ∈ p.completed, entry.form.IsRead) :
    p.Overwrites (.ident r.old) (.ident r.new) (r.places p.free) (p.rename r).2 := by
  rw [free, Renaming.places_append]
  exact overwrites_of_parts inTurn isRead (Stmt.overwrites_renameAll [] p.body)
    (Expr.overwrites_renameOption _ p.tail) rfl

/-- Requoting overwrites the literals that quote the text. -/
theorem overwrites_requote (old new : String) (inTurn : ExprEntry.InTurn 0 p.completed)
    (isRead : ∀ entry ∈ p.completed, entry.form.IsRead) :
    p.Overwrites (.constant (.string old)) (.constant (.string new))
      (ExprEntry.quoting old p.entries) (p.requote old new).2 := by
  rw [entries, ExprEntry.quoting_append]
  exact overwrites_of_parts inTurn isRead (Stmt.overwrites_requoteAll p.body)
    (Expr.overwrites_requoteOption p.tail) rfl

end Program

/-!
## Renaming and requoting in storage

A formula that was read is edited node by node: what an edit counts are the nodes that it
overwrites, all others stay as they are, and with a new name or text that the formula does not
have, the edit the other way round undoes it (`Mode.editsExactly_of_parse`).
-/

namespace Program

variable {p : Program α}

/-- The renaming counts the nodes that it overwrites, once each, replaces the name in its own list
of free names, changes neither the other list nor the quoted texts, and is undone by the renaming
the other way round. -/
structure RenamesExactly (p : Program α) (r : Renaming) : Prop where
  count : (p.rename r).1 = (r.places p.free).length
  overwrites : p.Overwrites (.ident r.old) (.ident r.new) (r.places p.free) (p.rename r).2
  listed : (p.rename r).2.freeNames r.role = (p.freeNames r.role).map (replaced r.old r.new)
  unlisted : ∀ role, role ≠ r.role → (p.rename r).2.freeNames role = p.freeNames role
  strings : (p.rename r).2.strings = p.strings
  back : (p.rename r).2.rename r.back = ((p.rename r).1, p)

/-- Requoting counts the nodes that it overwrites, once each, replaces the text in the list of
quoted texts, changes neither list of free names, and is undone by requoting the other way
round. -/
structure RequotesExactly (p : Program α) (old new : String) : Prop where
  count : (p.requote old new).1 = p.strings.count old
  places : (p.requote old new).1 = (ExprEntry.quoting old p.entries).length
  overwrites : p.Overwrites (.constant (.string old)) (.constant (.string new))
    (ExprEntry.quoting old p.entries) (p.requote old new).2
  strings : (p.requote old new).2.strings = p.strings.map (replaced old new)
  freeNames : ∀ role, (p.requote old new).2.freeNames role = p.freeNames role
  back : (p.requote old new).2.requote new old = ((p.requote old new).1, p)

theorem renamesExactly {r : Renaming} (spared : r.new ∉ p.mentions)
    (inTurn : ExprEntry.InTurn 0 p.completed)
    (isRead : ∀ entry ∈ p.completed, entry.form.IsRead) : p.RenamesExactly r where
  count := by rw [rename, Renaming.places, List.length_map, List.countP_eq_length_filter]
  overwrites := overwrites_rename r inTurn isRead
  listed := freeNames_rename spared
  unlisted := fun _ other => freeNames_rename_of_ne spared other
  strings := strings_rename r p
  back := rename_back spared

theorem requotesExactly {old new : String} (spared : new ∉ p.strings)
    (inTurn : ExprEntry.InTurn 0 p.completed)
    (isRead : ∀ entry ∈ p.completed, entry.form.IsRead) : p.RequotesExactly old new where
  count := rfl
  places := count_requote old new p
  overwrites := overwrites_requote old new inTurn isRead
  strings := strings_requote old new p
  freeNames := freeNames_requote old new p
  back := requote_back spared fun entry member =>
    isRead entry (p.completed_perm.symm.subset member)

end Program

/-- Reading builds the storage of a formula, and in that storage a name or a text that the formula
does not have is put in exactly and taken back exactly. -/
theorem Mode.editsExactly_of_parse {mode : Mode} {tokens : TokenList} {output : Parser.Output}
    {old new : String} (parsed : mode.parse tokens = .ok output)
    (unmentioned : new ∉ output.program.mentions) (unquoted : new ∉ output.program.strings) :
    mode.store tokens = .ok output.program.stored ∧
      (∀ role, output.program.RenamesExactly ⟨role, old, new⟩) ∧
        output.program.RequotesExactly old new := by
  have complete := completes_of_parse parsed
  refine ⟨?_, fun role => ?_, ?_⟩
  · rw [store_eq, parsed]
    rfl
  · exact Program.renamesExactly unmentioned complete.inTurn complete.isRead
  · exact Program.requotesExactly unquoted complete.inTurn complete.isRead

/-- A name that is used and called, declared in a block and as a parameter, and quoted. -/
theorem Mode.editsExactly_of_parse_shadowed : ∃ tokens output,
    Lexer.tokenize
        "int f(int k) \x7b return k; \x7d \x7b int k = k; s = k; \x7d k(\"k\", k, \"t\") + f(k)"
          = .ok tokens ∧
      Mode.program.parse tokens = .ok output ∧
        (output.program.freeVariables, output.program.freeMethods, output.program.strings)
          = (["k", "s"], ["k"], ["k", "t"]) ∧
        ([Role.variable, .callee].map fun role => (output.program.rename ⟨role, "k", "m"⟩).1)
          = [3, 1] ∧
        output.program.RenamesExactly ⟨.variable, "k", "m"⟩ ∧
        output.program.RenamesExactly ⟨.callee, "k", "m"⟩ ∧
        output.program.RequotesExactly "k" "m" := by
  have found : (Lexer.tokenize
      "int f(int k) \x7b return k; \x7d \x7b int k = k; s = k; \x7d k(\"k\", k, \"t\") + f(k)"
      ).toOption.bind
      (fun tokens => (Mode.program.parse tokens).toOption.bind fun output =>
        some (output.program.mentions,
          (output.program.freeVariables, output.program.freeMethods, output.program.strings),
          [Role.variable, .callee].map fun role => (output.program.rename ⟨role, "k", "m"⟩).1))
      = some (["f", "k", "k", "k", "k", "s", "k", "k", "k", "f", "k"],
          (["k", "s"], ["k"], ["k", "t"]), [3, 1]) := by
    cbv
  obtain ⟨tokens, output, read, parsed, values⟩ := reads_of_toOption found
  obtain ⟨mentions, values⟩ := Prod.mk.inj (Option.some.inj values)
  obtain ⟨lists, counts⟩ := Prod.mk.inj values
  have texts : output.program.strings = ["k", "t"] := congrArg (fun names => names.2.2) lists
  obtain ⟨-, renames, requotes⟩ := @Mode.editsExactly_of_parse _ _ _ "k" "m" parsed
    (by rw [mentions]; decide) (by rw [texts]; decide)
  exact ⟨tokens, output, read, parsed, lists, counts, renames .variable, renames .callee, requotes⟩

end Formulae
