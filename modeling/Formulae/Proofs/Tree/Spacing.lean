import Formulae.Proofs.Token.Fitting
import Formulae.Proofs.Tree.Bare
import Formulae.Proofs.Tree.Readable

/-!
# Where the tokens of a written tree meet

No token of a written tree becomes part of the one before it, with spaces around
operators or without: its text is read as its tokens (`Program.fits_pieces`).
-/

namespace Formulae

open Piece

/-! ## Expressions -/

theorem fits_separated {separator : List Piece} (nonempty : separator ≠ [])
    (neutral : ∀ piece ∈ separator, piece.Neutral) {lists : List (List Piece)}
    (fits : ∀ list ∈ lists, Fits list) : Fits (separated separator lists) := by
  match lists with
  | [] => exact fits_nil
  | [only] => exact fits only (by simp)
  | first :: next :: rest =>
      have others : Fits (separated separator (next :: rest)) :=
        fits_separated nonempty neutral fun list member => fits list (List.mem_cons_of_mem _ member)
      rw [separated, List.append_assoc]
      exact (fits first (by simp)).joinAll nonempty neutral others

theorem fits_commas {lists : List (List Piece)} (fits : ∀ list ∈ lists, Fits list) :
    Fits (separated comma lists) := by
  refine fits_separated (by simp [comma]) (fun piece member => ?_) fits
  rcases List.mem_cons.mp member with rfl | member
  · exact neutral_mark rfl
  · rw [List.mem_singleton.mp member]
    exact neutral_space

theorem fits_enclosed {needed : Bool} {inner : List Piece} (fits : Fits inner) :
    Fits (Expr.enclosed needed inner) := by
  cases needed with
  | false => exact fits
  | true => exact (fits.snoc (neutral_mark rfl)).cons (neutral_mark rfl)

mutual

theorem TypeExpr.fits_pieces : (type : TypeExpr) → type.Readable → Fits type.pieces
  | .basic word, _ => fits_token (.basicType word) trivial nofun
  | .named name, readable => fits_token (.ident name) readable nofun
  | .array element, readable => by
      rw [pieces]
      exact (element.fits_pieces readable.1).join (neutral_mark rfl) (fits_nil.cons (neutral_mark rfl))
  | .function params ret, readable => by
      simp only [pieces, List.append_assoc, List.cons_append, List.nil_append]
      refine Fits.keyword _ (neutral_mark rfl) ?_
      refine (fits_commas (fits_piecesAll params readable.1)).join (neutral_mark rfl) ?_
      exact (((ret.fits_pieces readable.2).cons neutral_space).cons (neutral_mark rfl)).cons
        neutral_space

theorem TypeExpr.fits_piecesAll : (types : List TypeExpr) → TypeExpr.ReadableAll types →
    ∀ list ∈ TypeExpr.piecesAll types, Fits list
  | type :: rest, readable, list, member => by
      rcases List.mem_cons.mp member with rfl | member
      · exact type.fits_pieces readable.1
      · exact fits_piecesAll rest readable.2 list member

end

section

variable {α : Type} (config : PrintConfig)

theorem Constant.fits_piece {value : Constant} (readable : value.Readable Number.Rereads) :
    Fits [value.piece] := by
  cases value with
  | int n =>
      have unsigned : ¬n < 0 := fun negative =>
        absurd readable (Int.not_le.mpr (Int64.lt_iff_toInt_lt.mp negative))
      rw [piece, if_neg unsigned]
      exact fits_token (.int n) readable nofun
  | float x =>
      rcases readable.finite with ⟨significand, exponent, finite⟩
      rw [piece, finite]
      exact fits_token (.float x) readable nofun
  | bool b => cases b <;> exact fits_token _ trivial nofun
  | null => exact fits_token _ trivial nofun
  | string text => exact fits_token (.string text) trivial nofun
  | negativeNan | date | duration => exact readable.elim

theorem Expr.enclosed_ne_nil {needed : Bool} {inner : List Piece} (nonempty : inner ≠ []) :
    Expr.enclosed needed inner ≠ [] := by
  cases needed with
  | false => exact nonempty
  | true => exact List.cons_ne_nil _ _

theorem Expr.pieces_ne_nil (e : Expr α) (readable : e.Readable Number.Rereads) :
    e.pieces config ≠ [] := by
  cases e with
  | binary node op left right =>
      rcases Expr.readable_binary readable with ⟨rfl, -, -⟩ | ⟨noCast, -, -, -⟩
      · simp [pieces]
      · rw [pieces_of_ne_typeCast config noCast]
        unfold PrintConfig.around
        split <;> simp
  | typeLiteral node type => exact readable.elim
  | ternary =>
      simp only [pieces, PrintConfig.around]
      split <;> simp
  | _ => simp [pieces]

mutual

theorem Expr.fits_pieces : (e : Expr α) → e.Readable Number.Rereads → Fits (e.pieces config)
  | .ident _ name, readable => fits_token (.ident name) readable nofun
  | .constant _ value, readable => Constant.fits_piece readable
  | .unary _ op operand, readable => by
      have inner := operand.fits_pieces readable.2
      have nonempty := operand.pieces_ne_nil config readable.2
      rcases Operator.mark?_of_isPrefix readable.1 with marked | marked <;>
        rw [pieces, Operator.piece_of_mark? marked] <;>
        exact (fits_enclosed inner).prefixed (opens_of_head (by rintro c ⟨⟩; decide))
          (enclosed_ne_nil nonempty)
  | .binary _ op left right, readable => by
      rcases Expr.readable_binary readable with ⟨rfl, inner, target⟩ | ⟨noCast, position, first, second⟩
      · cases right with
        | typeLiteral _ type =>
            simp only [pieces, List.append_assoc, List.cons_append, List.nil_append]
            refine Fits.cons (neutral_mark rfl) ?_
            refine (type.fits_pieces target.1).join (neutral_mark rfl) ?_
            exact (fits_enclosed (left.fits_pieces inner)).cons neutral_space
        | _ => exact target.elim
      · obtain ⟨symbol, marked⟩ := Option.isSome_iff_exists.mp position.1
        rw [pieces_of_ne_typeCast config noCast, Operator.piece_of_mark? marked, List.append_assoc]
        exact (fits_enclosed (left.fits_pieces first)).around config symbol
          (fits_enclosed (right.fits_pieces second))
          (enclosed_ne_nil (left.pieces_ne_nil config first))
          (enclosed_ne_nil (right.pieces_ne_nil config second))
  | .ternary _ cond thenBranch elseBranch, readable => by
      have condFits := cond.fits_pieces readable.1
      have thenFits := thenBranch.fits_pieces readable.2.1
      have elseFits := elseBranch.fits_pieces readable.2.2
      have condNonempty := cond.pieces_ne_nil config readable.1
      have thenNonempty := thenBranch.pieces_ne_nil config readable.2.1
      have elseNonempty := elseBranch.pieces_ne_nil config readable.2.2
      simp only [pieces, List.append_assoc]
      refine (fits_enclosed condFits).around config .question ?_ (enclosed_ne_nil condNonempty) ?_
      · exact thenFits.around config .colon (fits_enclosed elseFits) thenNonempty
          (enclosed_ne_nil elseNonempty)
      · simp [thenNonempty]
  | .call _ callee args, readable => by
      simp only [pieces, List.append_assoc, List.cons_append, List.nil_append]
      refine (fits_enclosed (callee.fits_pieces readable.1)).join (neutral_mark rfl) ?_
      exact (fits_commas (fits_piecesAll args readable.2)).snoc (neutral_mark rfl)
  | .array _ items, readable => by
      simp only [pieces, List.cons_append, List.nil_append]
      exact ((fits_commas (fits_piecesAll items readable)).snoc (neutral_mark rfl)).cons
        (neutral_mark rfl)
  | .index _ receiver subscript, readable => by
      simp only [pieces, List.append_assoc, List.cons_append, List.nil_append]
      refine (fits_enclosed (receiver.fits_pieces readable.1)).join (neutral_mark rfl) ?_
      exact (subscript.fits_pieces readable.2).snoc (neutral_mark rfl)
  | .typeLiteral _ _, readable => readable.elim

theorem Expr.fits_piecesAll : (items : List (Expr α)) → Expr.ReadableAll Number.Rereads items →
    ∀ list ∈ Expr.piecesAll config items, Fits list
  | e :: rest, readable, list, member => by
      rcases List.mem_cons.mp member with rfl | member
      · exact e.fits_pieces readable.1
      · exact fits_piecesAll rest readable.2 list member

end

/-! ## Statements -/

theorem Binder.fits_pieces {bound : Binder} (readable : bound.Readable) : Fits bound.pieces := by
  obtain ⟨mutable, type, name⟩ := bound
  have isName : Fits [Piece.ident name] := fits_token (.ident name) readable.name nofun
  have behind : Fits (Binder.pieces ⟨false, type, name⟩) := by
    cases type with
    | none => exact Fits.keyword .varWord neutral_space isName
    | some type =>
        simp only [pieces, Bool.false_eq_true, if_false, List.nil_append]
        exact (type.fits_pieces (readable.type type rfl)).join neutral_space isName
  cases mutable with
  | false => exact behind
  | true => exact Fits.keyword .mutWord neutral_space behind

theorem Binder.pieces_ne_nil (bound : Binder) : bound.pieces ≠ [] := by
  simp [pieces]

theorem Param.fits_pieces {bound : Param} (readable : bound.Readable) : Fits bound.pieces := by
  obtain ⟨mutable, type, name, span⟩ := bound
  have behind : Fits (Param.pieces ⟨false, type, name, span⟩) := by
    simp only [pieces, Bool.false_eq_true, if_false, List.nil_append]
    exact (type.fits_pieces readable.type).join neutral_space
      (fits_token (.ident name) readable.name nofun)
  cases mutable with
  | false => exact behind
  | true => exact Fits.keyword .mutWord neutral_space behind

theorem Expr.fits_statementPieces {e : Expr α} (readable : e.Readable Number.Rereads) :
    Fits (e.statementPieces config) :=
  fits_enclosed (e.fits_pieces config readable)

/-- An expression that may be missing, between something and a mark. -/
theorem Stmt.fits_spacedOption {e : Option (Expr α)}
    (readable : ∀ value ∈ e, value.Readable Number.Rereads) {left right : List Piece}
    {piece : Piece} (before : Fits left) (neutral : piece.Neutral) (after : Fits right) :
    Fits (left ++ (spacedOption config e ++ piece :: right)) := by
  cases e with
  | none => exact before.join neutral after
  | some e =>
      exact before.join neutral_space ((e.fits_pieces config (readable e rfl)).join neutral after)

/-- Lines behind one another, each after a line break. -/
theorem Stmt.fits_lines (depth : Nat) {last : List Piece} (fits : Fits last) :
    (lines : List (List Piece)) → (∀ line ∈ lines, Fits line) → ∀ {line : List Piece},
      Fits line → Fits (line ++ ((lines.map (config.newline (depth + 1) :: ·)).flatten
        ++ config.newline depth :: last))
  | [], _, _, first => first.join (neutral_newline _) fits
  | next :: rest, linesFit, _, first => by
      have more := fits_lines depth fits rest
        (fun other member => linesFit other (List.mem_cons_of_mem _ member))
        (linesFit next (by simp))
      simp only [List.map_cons, List.flatten_cons, List.append_assoc, List.cons_append]
      exact first.join (neutral_newline _) more

theorem Stmt.fits_braced (depth : Nat) {lines : List (List Piece)}
    (fits : ∀ line ∈ lines, Fits line) : Fits (braced config depth lines) := by
  cases lines with
  | nil => exact (fits_nil.cons (neutral_mark rfl)).cons (neutral_mark rfl)
  | cons first rest =>
      have close : Fits [Piece.mark .rightBrace] := fits_nil.cons (neutral_mark rfl)
      have inner := fits_lines config depth close rest
        (fun other member => fits other (List.mem_cons_of_mem _ member)) (fits first (by simp))
      simp only [braced, List.isEmpty_cons, Bool.false_eq_true, if_false, List.map_cons,
        List.flatten_cons, List.append_assoc, List.cons_append, List.nil_append]
      exact (inner.cons (neutral_newline _)).cons (neutral_mark rfl)

mutual

theorem Stmt.fits_pieces : (depth : Nat) → (stmt : Stmt α) → stmt.Readable Number.Rereads →
    Fits (stmt.pieces config depth)
  | _, .expr _ e, readable => by
      rw [pieces]
      exact (Expr.fits_statementPieces config readable).snoc (neutral_mark rfl)
  | _, .varDecl _ bound init, readable => by
      have value := init.fits_pieces config readable.2
      have nonempty := init.pieces_ne_nil config readable.2
      simp only [pieces, List.append_assoc]
      refine (Binder.fits_pieces readable.1).around config .equal (value.snoc (neutral_mark rfl))
        bound.pieces_ne_nil ?_
      simp
  | _, .ret _ value, readable => by
      have word : Fits [Piece.keyword .returnWord] := fits_token _ trivial nofun
      rw [pieces, List.append_assoc]
      exact fits_spacedOption config readable word (neutral_mark rfl) fits_nil
  | depth, .ifElse _ cond thenBranch none, readable => by
      simp only [pieces, elsePieces, List.append_assoc, List.cons_append, List.nil_append,
        List.append_nil]
      refine Fits.keyword _ neutral_space (Fits.cons (neutral_mark rfl) ?_)
      refine (cond.fits_pieces config readable.1).join (neutral_mark rfl) ?_
      exact (fits_pieces depth thenBranch readable.2.1).cons neutral_space
  | depth, .ifElse _ cond thenBranch (some elseBranch), readable => by
      simp only [pieces, elsePieces, List.append_assoc, List.cons_append, List.nil_append]
      refine Fits.keyword _ neutral_space (Fits.cons (neutral_mark rfl) ?_)
      refine (cond.fits_pieces config readable.1).join (neutral_mark rfl) (Fits.cons neutral_space ?_)
      refine (fits_pieces depth thenBranch readable.2.1).join neutral_space ?_
      exact Fits.keyword _ neutral_space (fits_pieces depth elseBranch readable.2.2.1)
  | depth, .whileLoop _ cond body, readable => by
      simp only [pieces, List.append_assoc, List.cons_append, List.nil_append]
      refine Fits.keyword _ neutral_space (Fits.cons (neutral_mark rfl) ?_)
      refine (cond.fits_pieces config readable.1).join (neutral_mark rfl) ?_
      exact (fits_pieces depth body readable.2).cons neutral_space
  | depth, .doWhile _ body cond, readable => by
      simp only [pieces, List.append_assoc, List.cons_append, List.nil_append]
      refine Fits.keyword _ neutral_space ?_
      refine (fits_pieces depth body readable.1).join neutral_space ?_
      refine Fits.keyword _ neutral_space (Fits.cons (neutral_mark rfl) ?_)
      refine (cond.fits_pieces config readable.2).join (neutral_mark rfl) ?_
      exact fits_nil.cons (neutral_mark rfl)
  | depth, .forLoop _ init cond step body, readable => by
      rcases readable with ⟨initReadable, -, condReadable, stepReadable, inner⟩
      simp only [pieces, List.append_assoc, List.cons_append, List.nil_append]
      refine Fits.keyword _ neutral_space (Fits.cons (neutral_mark rfl) ?_)
      refine fits_spacedOption config condReadable (fits_initPieces depth init initReadable)
        (neutral_mark rfl) ?_
      refine fits_spacedOption config stepReadable fits_nil (neutral_mark rfl) ?_
      exact (fits_pieces depth body inner).cons neutral_space
  | depth, .forEach _ bound iterable body, readable => by
      simp only [pieces, List.append_assoc, List.cons_append, List.nil_append]
      refine Fits.keyword _ neutral_space (Fits.cons (neutral_mark rfl) ?_)
      refine (Binder.fits_pieces readable.1).join neutral_space ?_
      refine Fits.cons (neutral_mark rfl) (Fits.cons neutral_space ?_)
      refine (iterable.fits_pieces config readable.2.1).join (neutral_mark rfl) ?_
      exact (fits_pieces depth body readable.2.2).cons neutral_space
  | _, .brk _, _ => Fits.keyword .breakWord (neutral_mark rfl) fits_nil
  | _, .cont _, _ => Fits.keyword .continueWord (neutral_mark rfl) fits_nil
  | depth, .block _ stmts, readable => by
      rw [pieces]
      exact fits_braced config depth (fits_piecesAll (depth + 1) stmts readable)
  | depth, .function _ result name params body, readable => by
      simp only [pieces, List.append_assoc, List.cons_append, List.nil_append]
      refine (result.fits_pieces readable.1).join neutral_space ?_
      refine Fits.ident readable.2.1 (neutral_mark rfl) ?_
      refine (fits_commas fun list member => ?_).join (neutral_mark rfl) (Fits.cons neutral_space ?_)
      · rcases List.mem_map.mp member with ⟨param, isParam, rfl⟩
        exact Param.fits_pieces (readable.2.2.1 param isParam)
      · exact fits_braced config depth (fits_piecesAll (depth + 1) body readable.2.2.2)

theorem Stmt.fits_initPieces : (depth : Nat) → (init : Option (Stmt α)) →
    Stmt.ReadableOption Number.Rereads init → Fits (Stmt.initPieces config depth init)
  | _, none, _ => fits_nil.cons (neutral_mark rfl)
  | depth, some stmt, readable => fits_pieces depth stmt readable

theorem Stmt.fits_piecesAll : (depth : Nat) → (stmts : List (Stmt α)) →
    Stmt.ReadableAll Number.Rereads stmts → ∀ line ∈ Stmt.piecesAll config depth stmts, Fits line
  | depth, stmt :: rest, readable, line, member => by
      rcases List.mem_cons.mp member with rfl | member
      · exact fits_pieces depth stmt readable.1
      · exact fits_piecesAll depth rest readable.2 line member

end

/-- No token of a written program becomes part of the one before it. -/
theorem Program.fits_pieces {p : Program α} (readable : p.Readable Number.Rereads) :
    Fits (p.pieces config) := by
  refine fits_separated (by simp) (fun piece member => ?_) fun line member => ?_
  · rw [List.mem_singleton.mp member]
    exact neutral_newline 0
  · rcases List.mem_append.mp member with member | member
    · exact Stmt.fits_piecesAll config 0 p.body readable.body line member
    · obtain ⟨body, tail, span⟩ := p
      cases tail with
      | none => simp at member
      | some e =>
          simp only [Option.map_some, Option.toList_some, List.mem_singleton] at member
          rw [member]
          exact Expr.fits_statementPieces config (readable.tail e rfl)

end

end Formulae
