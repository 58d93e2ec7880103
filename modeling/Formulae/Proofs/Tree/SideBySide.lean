import Formulae.Proofs.Tree.Mentions
import Formulae.Typing.Coerce

/-!
# Trees side by side

A tree and the same tree with a variable renamed to a name that stands nowhere in it
(`Expr.Renamed`, `Stmt.Renamed`) are built up from their parts in step.
-/

namespace Formulae

variable {α : Type} {r : Renaming} {bound : List String}

namespace Expr

@[simp]
theorem node_rename (e : Expr α) (role : Role) : (e.rename r bound role).node = e.node := by
  cases e <;> rfl

@[simp]
theorem span_rename (e : Expr α) (role : Role) : (e.rename r bound role).span = e.span :=
  congrArg Node.span (node_rename e role)

/-- The second expression is the first after the renaming, whose new name is not in it. -/
structure Renamed (r : Renaming) (bound : List String) (role : Role) (e e' : Expr α) : Prop where
  eq : e' = e.rename r bound role
  spared : r.new ∉ e.mentions

/-- The same of several expressions. -/
structure RenamedAll (r : Renaming) (bound : List String) (es es' : List (Expr α)) : Prop where
  eq : es' = renameAll r bound es
  spared : r.new ∉ mentionsAll es

/-- The same of expressions that may be missing. -/
structure RenamedOption (r : Renaming) (bound : List String) (e e' : Option (Expr α)) :
    Prop where
  eq : e' = e.map (rename r bound .variable)
  spared : r.new ∉ mentionsOption e

section

variable {role : Role} {e e' x x' y y' z z' : Expr α} {es es' : List (Expr α)}

theorem Renamed.node_eq (renamed : e.Renamed r bound role e') : e'.node = e.node := by
  rw [renamed.eq, node_rename]

theorem Renamed.label_eq (renamed : e.Renamed r bound role e') : e'.label = e.label :=
  congrArg Node.label renamed.node_eq

theorem Renamed.span_eq (renamed : e.Renamed r bound role e') : e'.span = e.span :=
  congrArg Node.span renamed.node_eq

theorem RenamedAll.labels_eq (renamed : RenamedAll r bound es es') :
    es'.map label = es.map label := by
  rw [renamed.eq]
  clear renamed
  induction es with
  | nil => rfl
  | cons e rest inductionHypothesis =>
      rw [renameAll, List.map_cons, List.map_cons, inductionHypothesis, label, node_rename]
      rfl

@[simp]
theorem length_renameAll (es : List (Expr α)) : (renameAll r bound es).length = es.length := by
  induction es with
  | nil => rfl
  | cons e rest inductionHypothesis =>
      rw [renameAll, List.length_cons, List.length_cons, inductionHypothesis]

theorem RenamedAll.length_eq (renamed : RenamedAll r bound es es') : es'.length = es.length := by
  rw [renamed.eq, length_renameAll]

theorem renamed_constant (node : Node α) (value : Constant) :
    (Expr.constant node value).Renamed r bound role (.constant node value) :=
  ⟨rfl, List.not_mem_nil⟩

theorem renamed_typeLiteral (node : Node α) (type : TypeExpr) :
    (Expr.typeLiteral node type).Renamed r bound role (.typeLiteral node type) :=
  ⟨rfl, List.not_mem_nil⟩

theorem Renamed.unary (renamed : x.Renamed r bound .variable x') (node : Node α)
    (op : Operator) : (Expr.unary node op x).Renamed r bound role (.unary node op x') :=
  ⟨by rw [renamed.eq, rename], renamed.spared⟩

theorem Renamed.binary (first : x.Renamed r bound .variable x')
    (second : y.Renamed r bound .variable y') (node : Node α) (op : Operator) :
    (Expr.binary node op x y).Renamed r bound role (.binary node op x' y') where
  eq := by rw [first.eq, second.eq, rename]
  spared := by
    rw [mentions, List.mem_append, not_or]
    exact ⟨first.spared, second.spared⟩

theorem Renamed.index (first : x.Renamed r bound .variable x')
    (second : y.Renamed r bound .variable y') (node : Node α) :
    (Expr.index node x y).Renamed r bound role (.index node x' y') where
  eq := by rw [first.eq, second.eq, rename]
  spared := by
    rw [mentions, List.mem_append, not_or]
    exact ⟨first.spared, second.spared⟩

theorem Renamed.ternary (first : x.Renamed r bound .variable x')
    (second : y.Renamed r bound .variable y') (third : z.Renamed r bound .variable z')
    (node : Node α) : (Expr.ternary node x y z).Renamed r bound role (.ternary node x' y' z') where
  eq := by rw [first.eq, second.eq, third.eq, rename]
  spared := by
    simp only [mentions, List.mem_append, not_or]
    exact ⟨⟨first.spared, second.spared⟩, third.spared⟩

theorem Renamed.call (first : x.Renamed r bound .callee x') (second : RenamedAll r bound es es')
    (node : Node α) : (Expr.call node x es).Renamed r bound role (.call node x' es') where
  eq := by rw [first.eq, second.eq, rename]
  spared := by
    rw [mentions, List.mem_append, not_or]
    exact ⟨first.spared, second.spared⟩

theorem RenamedAll.array (renamed : RenamedAll r bound es es') (node : Node α) :
    (Expr.array node es).Renamed r bound role (.array node es') :=
  ⟨by rw [renamed.eq, rename], renamed.spared⟩

theorem renamedAll_nil : RenamedAll r bound ([] : List (Expr α)) [] :=
  ⟨rfl, List.not_mem_nil⟩

theorem Renamed.cons (first : x.Renamed r bound .variable x')
    (rest : RenamedAll r bound es es') : RenamedAll r bound (x :: es) (x' :: es') where
  eq := by rw [first.eq, rest.eq, renameAll]
  spared := by
    rw [mentionsAll, List.mem_append, not_or]
    exact ⟨first.spared, rest.spared⟩

theorem renamedOption_none : RenamedOption r bound (none : Option (Expr α)) none :=
  ⟨rfl, List.not_mem_nil⟩

theorem Renamed.option (renamed : e.Renamed r bound .variable e') :
    RenamedOption r bound (some e) (some e') :=
  ⟨congrArg some renamed.eq, renamed.spared⟩

theorem Renamed.withId (renamed : e.Renamed r bound role e') (id : Nat) :
    (e.withId id).Renamed r bound role (e'.withId id) := by
  rcases renamed with ⟨rfl, spared⟩
  refine ⟨?_, ?_⟩
  · cases e <;> rfl
  · cases e <;> exact spared

end

end Expr

namespace Stmt

@[simp]
theorem span_rename (s : Stmt α) : (s.rename r bound).span = s.span := by
  cases s <;> rfl

/-- The second statement is the first after the renaming, whose new name is not in it. -/
structure Renamed (r : Renaming) (bound : List String) (s s' : Stmt α) : Prop where
  eq : s' = s.rename r bound
  spared : r.new ∉ s.mentions

/-- The same of statements that may be missing. -/
structure RenamedOption (r : Renaming) (bound : List String) (s s' : Option (Stmt α)) :
    Prop where
  eq : s' = renameOption r bound s
  spared : r.new ∉ mentionsOption s

/-- The same of several statements. -/
structure RenamedAll (r : Renaming) (bound : List String) (stmts stmts' : List (Stmt α)) :
    Prop where
  eq : stmts' = renameAll r bound stmts
  spared : r.new ∉ mentionsAll stmts

section

variable {e e' x x' : Expr α} {value value' cond cond' step step' : Option (Expr α)}
  {s s' t t' : Stmt α} {i i' : Option (Stmt α)} {stmts stmts' : List (Stmt α)}

theorem renamedOption_none : RenamedOption r bound (none : Option (Stmt α)) none :=
  ⟨rfl, List.not_mem_nil⟩

theorem Renamed.option (renamed : s.Renamed r bound s') :
    RenamedOption r bound (some s) (some s') :=
  ⟨congrArg some renamed.eq, renamed.spared⟩

theorem renamedAll_nil : RenamedAll r bound ([] : List (Stmt α)) [] :=
  ⟨rfl, List.not_mem_nil⟩

theorem Renamed.cons (first : s.Renamed r bound s')
    (rest : RenamedAll r (s.declared ++ bound) stmts stmts') :
    RenamedAll r bound (s :: stmts) (s' :: stmts') where
  eq := by rw [first.eq, rest.eq, renameAll]
  spared := by
    rw [mentionsAll, List.mem_append, not_or]
    exact ⟨first.spared, rest.spared⟩

theorem renamed_expr (renamed : e.Renamed r bound .variable e') (node : StmtNode) :
    (Stmt.expr node e).Renamed r bound (.expr node e') :=
  ⟨by rw [renamed.eq, rename], renamed.spared⟩

theorem renamed_varDecl (renamed : e.Renamed r bound .variable e') (node : StmtNode)
    {binder : Binder} (different : binder.name ≠ r.new) :
    (Stmt.varDecl node binder e).Renamed r bound (.varDecl node binder e') :=
  ⟨by rw [renamed.eq, rename], List.not_mem_cons_of_ne_of_not_mem different.symm renamed.spared⟩

theorem renamed_ret (renamed : Expr.RenamedOption r bound value value') (node : StmtNode) :
    (Stmt.ret node value).Renamed r bound (.ret node value') :=
  ⟨by rw [renamed.eq, rename], renamed.spared⟩

theorem renamed_ifElse (cond : x.Renamed r bound .variable x') (first : s.Renamed r bound s')
    (second : RenamedOption r bound i i') (node : StmtNode) :
    (Stmt.ifElse node x s i).Renamed r bound (.ifElse node x' s' i') where
  eq := by rw [cond.eq, first.eq, second.eq, rename]
  spared := by
    simp only [mentions, List.mem_append, not_or]
    exact ⟨⟨cond.spared, first.spared⟩, second.spared⟩

theorem renamed_whileLoop (cond : x.Renamed r bound .variable x') (body : s.Renamed r bound s')
    (node : StmtNode) : (Stmt.whileLoop node x s).Renamed r bound (.whileLoop node x' s') where
  eq := by rw [cond.eq, body.eq, rename]
  spared := by
    rw [mentions, List.mem_append, not_or]
    exact ⟨cond.spared, body.spared⟩

theorem renamed_doWhile (cond : x.Renamed r bound .variable x') (body : s.Renamed r bound s')
    (node : StmtNode) : (Stmt.doWhile node s x).Renamed r bound (.doWhile node s' x') where
  eq := by rw [cond.eq, body.eq, rename]
  spared := by
    rw [mentions, List.mem_append, not_or]
    exact ⟨body.spared, cond.spared⟩

theorem renamed_forLoop (init : RenamedOption r bound i i')
    (isCond : Expr.RenamedOption r (declaredOption i ++ bound) cond cond')
    (isStep : Expr.RenamedOption r (declaredOption i ++ bound) step step')
    (body : s.Renamed r (declaredOption i ++ bound) s') (node : StmtNode) :
    (Stmt.forLoop node i cond step s).Renamed r bound (.forLoop node i' cond' step' s') where
  eq := by rw [init.eq, isCond.eq, isStep.eq, body.eq, rename]
  spared := by
    simp only [mentions, List.mem_append, not_or]
    exact ⟨⟨⟨init.spared, isCond.spared⟩, isStep.spared⟩, body.spared⟩

theorem renamed_forEach {binder : Binder} (different : binder.name ≠ r.new)
    (iterable : x.Renamed r bound .variable x') (body : s.Renamed r (binder.name :: bound) s')
    (node : StmtNode) :
    (Stmt.forEach node binder x s).Renamed r bound (.forEach node binder x' s') where
  eq := by rw [iterable.eq, body.eq, rename]
  spared := by
    simp only [mentions, List.mem_append, List.mem_cons, not_or]
    exact ⟨⟨different.symm, iterable.spared⟩, body.spared⟩

theorem renamed_block (renamed : RenamedAll r bound stmts stmts') (node : StmtNode) :
    (Stmt.block node stmts).Renamed r bound (.block node stmts') :=
  ⟨by rw [renamed.eq, rename], renamed.spared⟩

theorem renamed_function {name : String} {params : List Param}
    (renamed : RenamedAll r (params.map Param.name ++ name :: bound) stmts stmts')
    (different : name ≠ r.new) (fresh : r.new ∉ params.map Param.name) (node : StmtNode)
    (result : TypeExpr) :
    (Stmt.function node result name params stmts).Renamed r bound
      (.function node result name params stmts') where
  eq := by rw [renamed.eq, rename]
  spared := by
    simp only [mentions, List.mem_append, List.mem_cons, not_or]
    exact ⟨⟨different.symm, fresh⟩, renamed.spared⟩

end

end Stmt

/-! ## Sizes -/

namespace Expr

mutual

@[simp]
theorem size_rename : ∀ {role : Role} (e : Expr α), (e.rename r bound role).size = e.size
  | _, .ident _ _ | _, .constant _ _ | _, .typeLiteral _ _ => rfl
  | _, .unary _ _ operand => congrArg (· + 1) (size_rename operand)
  | _, .binary _ _ left right | _, .index _ left right => by
      rw [rename, size, size, size_rename left, size_rename right]
  | _, .ternary _ cond thenBranch elseBranch => by
      rw [rename, size, size, size_rename cond, size_rename thenBranch, size_rename elseBranch]
  | _, .call _ callee args => by
      rw [rename, size, size, size_rename callee, sizeAll_rename args]
  | _, .array _ items => congrArg (· + 1) (sizeAll_rename items)

@[simp]
theorem sizeAll_rename : ∀ es : List (Expr α), sizeAll (renameAll r bound es) = sizeAll es
  | [] => rfl
  | e :: rest => by rw [renameAll, sizeAll, sizeAll, size_rename e, sizeAll_rename rest]

end

@[simp]
theorem map_size_rename (e : Option (Expr α)) :
    (e.map (rename r bound .variable)).map size = e.map size := by
  cases e with
  | none => rfl
  | some e => exact congrArg some (size_rename e)

end Expr

namespace Stmt

mutual

@[simp]
theorem exprSize_rename (bound : List String) : ∀ s : Stmt α,
    (s.rename r bound).exprSize = s.exprSize
  | .expr _ e | .varDecl _ _ e => Expr.size_rename e
  | .ret _ value => by rw [rename, exprSize, exprSize, Expr.map_size_rename]
  | .ifElse _ cond thenBranch elseBranch => by
      rw [rename, exprSize, exprSize, Expr.size_rename, exprSize_rename bound thenBranch,
        exprSizeOption_rename bound elseBranch]
  | .whileLoop _ cond body | .doWhile _ body cond => by
      rw [rename, exprSize, exprSize, Expr.size_rename, exprSize_rename bound body]
  | .forLoop _ init cond step body => by
      rw [rename, exprSize, exprSize, exprSizeOption_rename bound init, Expr.map_size_rename,
        Expr.map_size_rename, exprSize_rename _ body]
  | .forEach _ _ iterable body => by
      rw [rename, exprSize, exprSize, Expr.size_rename, exprSize_rename _ body]
  | .brk _ | .cont _ => rfl
  | .block _ stmts => exprSizeAll_rename bound stmts
  | .function _ _ _ _ body => exprSizeAll_rename _ body

@[simp]
theorem exprSizeOption_rename (bound : List String) : ∀ s : Option (Stmt α),
    exprSizeOption (renameOption r bound s) = exprSizeOption s
  | none => rfl
  | some s => exprSize_rename bound s

@[simp]
theorem exprSizeAll_rename (bound : List String) : ∀ stmts : List (Stmt α),
    exprSizeAll (renameAll r bound stmts) = exprSizeAll stmts
  | [] => rfl
  | s :: rest => by
      rw [renameAll, exprSizeAll, exprSizeAll, exprSize_rename bound s, exprSizeAll_rename _ rest]

end

end Stmt

@[simp]
theorem Program.exprSize_rename (p : Program α) : (p.rename r).2.exprSize = p.exprSize := by
  rw [rename, exprSize, exprSize, Stmt.exprSizeAll_rename, Expr.map_size_rename]

end Formulae
