import Formulae.Tree.Printer

/-!
# Trees without their places

Two trees are the same node for node when they agree once spans, numbers and
labels are taken away.  What is written depends on nothing but that
(`Program.print_bare`).
-/

namespace Formulae

variable {α : Type}

/-! ## Taking the places away -/

/-- A node that carries nothing. -/
def Node.bare : Node Unit :=
  ⟨0, Span.point 0, ()⟩

/-- A statement's node that carries nothing. -/
def StmtNode.bare : StmtNode :=
  ⟨0, Span.point 0⟩

/-- The parameter without its place. -/
def Param.bare (param : Param) : Param :=
  { param with span := Span.point 0 }

namespace Expr

mutual

/-- The expression without spans, numbers and labels. -/
def bare : Expr α → Expr Unit
  | .ident _ name => .ident .bare name
  | .constant _ value => .constant .bare value
  | .unary _ op operand => .unary .bare op operand.bare
  | .binary _ op left right => .binary .bare op left.bare right.bare
  | .ternary _ cond thenBranch elseBranch =>
      .ternary .bare cond.bare thenBranch.bare elseBranch.bare
  | .call _ callee args => .call .bare callee.bare (bareAll args)
  | .array _ items => .array .bare (bareAll items)
  | .index _ receiver subscript => .index .bare receiver.bare subscript.bare
  | .typeLiteral _ type => .typeLiteral .bare type

/-- Several expressions without spans, numbers and labels. -/
def bareAll : List (Expr α) → List (Expr Unit)
  | [] => []
  | e :: rest => e.bare :: bareAll rest

end

end Expr

namespace Stmt

mutual

/-- The statement without spans, numbers and labels. -/
def bare : Stmt α → Stmt Unit
  | .expr _ e => .expr .bare e.bare
  | .varDecl _ binder init => .varDecl .bare binder init.bare
  | .ret _ value => .ret .bare (value.map Expr.bare)
  | .ifElse _ cond thenBranch elseBranch =>
      .ifElse .bare cond.bare thenBranch.bare (bareOption elseBranch)
  | .whileLoop _ cond body => .whileLoop .bare cond.bare body.bare
  | .doWhile _ body cond => .doWhile .bare body.bare cond.bare
  | .forLoop _ init cond step body =>
      .forLoop .bare (bareOption init) (cond.map Expr.bare) (step.map Expr.bare) body.bare
  | .forEach _ binder iterable body => .forEach .bare binder iterable.bare body.bare
  | .brk _ => .brk .bare
  | .cont _ => .cont .bare
  | .block _ stmts => .block .bare (bareAll stmts)
  | .function _ result name params body =>
      .function .bare result name (params.map Param.bare) (bareAll body)

/-- A statement that may be missing without spans, numbers and labels. -/
def bareOption : Option (Stmt α) → Option (Stmt Unit)
  | none => none
  | some s => some s.bare

/-- Several statements without spans, numbers and labels. -/
def bareAll : List (Stmt α) → List (Stmt Unit)
  | [] => []
  | s :: rest => s.bare :: bareAll rest

end

end Stmt

/-- The program without spans, numbers and labels. -/
def Program.bare (p : Program α) : Program Unit :=
  ⟨Stmt.bareAll p.body, p.tail.map Expr.bare, Span.point 0⟩

/-! ## What is written -/

theorem Operator.piece_of_mark? {op : Operator} {symbol : Mark} (marked : op.mark? = some symbol) :
    op.piece = .mark symbol := by
  rw [piece, marked]

namespace Expr

variable (config : PrintConfig)

theorem pieces_of_ne_typeCast {node : Node α} {op : Operator} {left right : Expr α}
    (noCast : op ≠ .typeCast) : (Expr.binary node op left right).pieces config =
      enclosed (left.precedence < op.leftMinimum) (left.pieces config)
        ++ config.around op.piece
        ++ enclosed (right.precedence < op.rightMinimum) (right.pieces config) := by
  rw [pieces]
  exact noCast

@[simp]
theorem precedence_bare (e : Expr α) : e.bare.precedence = e.precedence := by
  cases e <;> simp only [bare, precedence]

theorem startsWithArray_bare : (e : Expr α) → e.bare.startsWithArray = e.startsWithArray
  | .ident .. | .constant .. | .unary .. | .array .. | .typeLiteral .. => rfl
  | .binary _ op left _ => by
      cases op <;> simp only [bare, startsWithArray, startsWithArray_bare left]
  | .ternary _ cond _ _ => by simp only [bare, startsWithArray, startsWithArray_bare cond]
  | .call _ callee _ => by simp only [bare, startsWithArray, startsWithArray_bare callee]
  | .index _ receiver _ => by simp only [bare, startsWithArray, startsWithArray_bare receiver]

mutual

theorem pieces_bare : (e : Expr α) → e.bare.pieces config = e.pieces config
  | .ident .. | .constant .. | .typeLiteral .. => rfl
  | .unary _ _ operand => by
      simp only [bare, pieces, precedence_bare, pieces_bare operand]
  | .binary _ op left right => by
      cases op <;>
        simp only [bare, pieces, precedence_bare, pieces_bare left, pieces_bare right]
  | .ternary _ cond thenBranch elseBranch => by
      simp only [bare, pieces, precedence_bare, pieces_bare cond, pieces_bare thenBranch,
        pieces_bare elseBranch]
  | .call _ callee args => by
      simp only [bare, pieces, precedence_bare, pieces_bare callee, piecesAll_bare args]
  | .array _ items => by simp only [bare, pieces, piecesAll_bare items]
  | .index _ receiver subscript => by
      simp only [bare, pieces, precedence_bare, pieces_bare receiver, pieces_bare subscript]

theorem piecesAll_bare : (items : List (Expr α)) →
    piecesAll config (bareAll items) = piecesAll config items
  | [] => rfl
  | e :: rest => by simp only [bareAll, piecesAll, pieces_bare e, piecesAll_bare rest]

end

theorem statementPieces_bare (e : Expr α) :
    e.bare.statementPieces config = e.statementPieces config := by
  simp only [statementPieces, startsWithArray_bare, pieces_bare]

end Expr

namespace Stmt

variable (config : PrintConfig)

theorem spacedOption_bare (e : Option (Expr α)) :
    spacedOption config (e.map Expr.bare) = spacedOption config e := by
  cases e <;> simp [spacedOption, Expr.pieces_bare]

mutual

theorem pieces_bare : (depth : Nat) → (s : Stmt α) →
    s.bare.pieces config depth = s.pieces config depth
  | _, .expr _ e => by simp only [bare, pieces, Expr.statementPieces_bare]
  | _, .varDecl _ _ init => by simp only [bare, pieces, Expr.pieces_bare]
  | _, .ret _ value => by simp only [bare, pieces, spacedOption_bare]
  | depth, .ifElse _ cond thenBranch elseBranch => by
      simp only [bare, pieces, Expr.pieces_bare, pieces_bare depth thenBranch,
        elsePieces_bare depth elseBranch]
  | depth, .whileLoop _ _ body => by
      simp only [bare, pieces, Expr.pieces_bare, pieces_bare depth body]
  | depth, .doWhile _ body _ => by
      simp only [bare, pieces, Expr.pieces_bare, pieces_bare depth body]
  | depth, .forLoop _ init cond step body => by
      simp only [bare, pieces, initPieces_bare depth init, spacedOption_bare,
        pieces_bare depth body]
  | depth, .forEach _ _ iterable body => by
      simp only [bare, pieces, Expr.pieces_bare, pieces_bare depth body]
  | _, .brk _ | _, .cont _ => rfl
  | depth, .block _ stmts => by simp only [bare, pieces, piecesAll_bare (depth + 1) stmts]
  | depth, .function _ _ _ params body => by
      have sameParams : (params.map Param.bare).map Param.pieces = params.map Param.pieces := by
        rw [List.map_map]
        rfl
      simp only [bare, pieces, sameParams, piecesAll_bare (depth + 1) body]

theorem elsePieces_bare : (depth : Nat) → (s : Option (Stmt α)) →
    elsePieces config depth (bareOption s) = elsePieces config depth s
  | _, none => rfl
  | depth, some s => by simp only [bareOption, elsePieces, pieces_bare depth s]

theorem initPieces_bare : (depth : Nat) → (s : Option (Stmt α)) →
    initPieces config depth (bareOption s) = initPieces config depth s
  | _, none => rfl
  | depth, some s => by simp only [bareOption, initPieces, pieces_bare depth s]

theorem piecesAll_bare : (depth : Nat) → (stmts : List (Stmt α)) →
    piecesAll config depth (bareAll stmts) = piecesAll config depth stmts
  | _, [] => rfl
  | depth, s :: rest => by
      simp only [bareAll, piecesAll, pieces_bare depth s, piecesAll_bare depth rest]

end

end Stmt

namespace Program

theorem print_bare (config : PrintConfig) (p : Program α) : p.bare.print config = p.print config := by
  obtain ⟨body, tail, span⟩ := p
  have lines : Program.lines config (Program.bare ⟨body, tail, span⟩)
      = Program.lines config ⟨body, tail, span⟩ := by
    cases tail <;>
      simp [Program.lines, bare, Stmt.piecesAll_bare, Expr.statementPieces_bare]
  simp only [print, pieces, lines]

end Program

end Formulae
