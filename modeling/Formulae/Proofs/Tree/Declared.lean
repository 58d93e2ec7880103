import Formulae.Tree.Basic
import Formulae.Tree.Rename

/-!
# What a tree declares

A free use is of a name that nothing around it declares.  Renaming and replacing texts keep
the numbers of the declared functions, and the functions declared in the body of a function
are among them.
-/

namespace Formulae

variable {α : Type}

namespace Expr

mutual

/-- A use that is free is of a name that is not declared around it. -/
theorem undeclared_of_free {bound : List String} {use : Occurrence} :
    ∀ (role : Role) (e : Expr α), use ∈ e.free bound role → use.name ∉ bound
  | role, .ident node name, member => by
      rw [free, occurrence] at member
      split at member
      · cases member
      · next undeclared =>
          cases List.mem_singleton.mp member
          exact undeclared
  | _, .constant _ _, member | _, .typeLiteral _ _, member => nomatch member
  | _, .unary _ _ operand, member => undeclared_of_free _ operand member
  | _, .binary _ _ left right, member | _, .index _ left right, member =>
      (List.mem_append.mp member).elim (undeclared_of_free _ left) (undeclared_of_free _ right)
  | _, .ternary _ cond thenBranch elseBranch, member =>
      (List.mem_append.mp member).elim
        (fun member => (List.mem_append.mp member).elim (undeclared_of_free _ cond)
          (undeclared_of_free _ thenBranch))
        (undeclared_of_free _ elseBranch)
  | _, .call _ callee args, member =>
      (List.mem_append.mp member).elim (undeclared_of_free _ callee) (undeclared_of_freeAll args)
  | _, .array _ items, member => undeclared_of_freeAll items member

theorem undeclared_of_freeAll {bound : List String} {use : Occurrence} :
    ∀ es : List (Expr α), use ∈ freeAll bound es → use.name ∉ bound
  | [], member => nomatch member
  | e :: rest, member =>
      (List.mem_append.mp member).elim (undeclared_of_free _ e) (undeclared_of_freeAll rest)

end

theorem undeclared_of_freeOption {bound : List String} {use : Occurrence} :
    ∀ e : Option (Expr α), use ∈ freeOption bound e → use.name ∉ bound
  | none, member => nomatch member
  | some e, member => undeclared_of_free _ e member

end Expr

namespace Stmt

mutual

theorem undeclared_of_free {bound : List String} {use : Occurrence} :
    ∀ s : Stmt α, use ∈ s.free bound → use.name ∉ bound
  | .expr _ e, member | .varDecl _ _ e, member => Expr.undeclared_of_free _ e member
  | .ret _ value, member => Expr.undeclared_of_freeOption value member
  | .ifElse _ cond thenBranch elseBranch, member =>
      (List.mem_append.mp member).elim
        (fun member => (List.mem_append.mp member).elim (Expr.undeclared_of_free _ cond)
          (undeclared_of_free thenBranch))
        (undeclared_of_freeOption elseBranch)
  | .whileLoop _ cond body, member =>
      (List.mem_append.mp member).elim (Expr.undeclared_of_free _ cond) (undeclared_of_free body)
  | .doWhile _ body cond, member =>
      (List.mem_append.mp member).elim (undeclared_of_free body) (Expr.undeclared_of_free _ cond)
  | .forLoop _ init cond step body, member => by
      have further {names : List String} (undeclared : use.name ∉ names ++ bound) :
          use.name ∉ bound := fun declared => undeclared (List.mem_append_right _ declared)
      simp only [free, List.mem_append] at member
      rcases member with ((isInit | isCond) | isStep) | isBody
      · exact undeclared_of_freeOption init isInit
      · exact further (Expr.undeclared_of_freeOption cond isCond)
      · exact further (Expr.undeclared_of_freeOption step isStep)
      · exact further (undeclared_of_free body isBody)
  | .forEach _ binder iterable body, member =>
      (List.mem_append.mp member).elim (Expr.undeclared_of_free _ iterable) fun isBody declared =>
        undeclared_of_free body isBody (List.mem_cons_of_mem _ declared)
  | .brk _, member | .cont _, member => nomatch member
  | .block _ stmts, member => undeclared_of_freeAll stmts member
  | .function _ _ name params body, member => fun declared =>
      undeclared_of_freeAll body member
        (List.mem_append_right _ (List.mem_cons_of_mem _ declared))

theorem undeclared_of_freeOption {bound : List String} {use : Occurrence} :
    ∀ s : Option (Stmt α), use ∈ freeOption bound s → use.name ∉ bound
  | none, member => nomatch member
  | some s, member => undeclared_of_free s member

theorem undeclared_of_freeAll {bound : List String} {use : Occurrence} :
    ∀ stmts : List (Stmt α), use ∈ freeAll bound stmts → use.name ∉ bound
  | [], member => nomatch member
  | s :: rest, member =>
      (List.mem_append.mp member).elim (undeclared_of_free s) fun later declared =>
        undeclared_of_freeAll rest later (List.mem_append_right _ declared)

end

/-- What is in scope before statements is in scope after them. -/
theorem subset_boundAfter (bound : List String) (stmts : List (Stmt α)) :
    bound ⊆ boundAfter bound stmts := by
  induction stmts generalizing bound with
  | nil => exact List.Subset.refl _
  | cons s rest inductionHypothesis =>
      exact List.Subset.trans (List.subset_append_right _ _) (inductionHypothesis _)

mutual

/-- Renaming keeps the numbers of functions. -/
theorem numbers_rename (r : Renaming) (bound : List String) : ∀ s : Stmt α,
    (s.rename r bound).functions.map Prod.fst = s.functions.map Prod.fst
  | .expr _ _ | .varDecl _ _ _ | .ret _ _ | .brk _ | .cont _ => rfl
  | .ifElse _ _ thenBranch elseBranch => by
      simp only [rename, functions, List.map_append, numbers_rename r _ thenBranch,
        numbers_renameOption r _ elseBranch]
  | .whileLoop _ _ body | .doWhile _ body _ | .forEach _ _ _ body => numbers_rename r _ body
  | .forLoop _ init _ _ body => by
      simp only [rename, functions, List.map_append, numbers_rename r _ body,
        numbers_renameOption r _ init]
  | .block _ stmts => numbers_renameAll r _ stmts
  | .function node _ _ _ body => congrArg (node.id :: ·) (numbers_renameAll r _ body)

theorem numbers_renameOption (r : Renaming) (bound : List String) : ∀ s : Option (Stmt α),
    (functionsOption (renameOption r bound s)).map Prod.fst = (functionsOption s).map Prod.fst
  | none => rfl
  | some s => numbers_rename r bound s

theorem numbers_renameAll (r : Renaming) (bound : List String) : ∀ stmts : List (Stmt α),
    (functionsAll (renameAll r bound stmts)).map Prod.fst = (functionsAll stmts).map Prod.fst
  | [] => rfl
  | s :: rest => by
      simp only [renameAll, functionsAll, List.map_append, numbers_rename r _ s,
        numbers_renameAll r _ rest]

end

mutual

/-- Replacing quoted texts keeps the numbers of functions. -/
theorem numbers_requote (old new : String) : ∀ s : Stmt α,
    (s.requote old new).functions.map Prod.fst = s.functions.map Prod.fst
  | .expr _ _ | .varDecl _ _ _ | .ret _ _ | .brk _ | .cont _ => rfl
  | .ifElse _ _ thenBranch elseBranch => by
      simp only [requote, functions, List.map_append, numbers_requote old new thenBranch,
        numbers_requoteOption old new elseBranch]
  | .whileLoop _ _ body | .doWhile _ body _ | .forEach _ _ _ body => numbers_requote old new body
  | .forLoop _ init _ _ body => by
      simp only [requote, functions, List.map_append, numbers_requote old new body,
        numbers_requoteOption old new init]
  | .block _ stmts => numbers_requoteAll old new stmts
  | .function node _ _ _ body => congrArg (node.id :: ·) (numbers_requoteAll old new body)

theorem numbers_requoteOption (old new : String) : ∀ s : Option (Stmt α),
    (functionsOption (requoteOption old new s)).map Prod.fst = (functionsOption s).map Prod.fst
  | none => rfl
  | some s => numbers_requote old new s

theorem numbers_requoteAll (old new : String) : ∀ stmts : List (Stmt α),
    (functionsAll (requoteAll old new stmts)).map Prod.fst = (functionsAll stmts).map Prod.fst
  | [] => rfl
  | s :: rest => by
      simp only [requoteAll, functionsAll, List.map_append, numbers_requote old new s,
        numbers_requoteAll old new rest]

end

mutual

/-- What is declared inside of a function is among the functions of the statement. -/
theorem functions_inside : ∀ (s : Stmt α) {function : Nat × List (Stmt α)},
    function ∈ s.functions → functionsAll function.2 ⊆ s.functions
  | .expr _ _, _, member | .varDecl _ _ _, _, member | .ret _ _, _, member | .brk _, _, member
  | .cont _, _, member => nomatch member
  | .ifElse _ _ thenBranch elseBranch, _, member =>
      (List.mem_append.mp member).elim
        (fun first => List.subset_append_of_subset_left _ (functions_inside thenBranch first))
        fun second => List.subset_append_of_subset_right _
          (functionsOption_inside elseBranch second)
  | .whileLoop _ _ body, _, member | .doWhile _ body _, _, member
  | .forEach _ _ _ body, _, member => functions_inside body member
  | .forLoop _ init _ _ body, _, member =>
      (List.mem_append.mp member).elim
        (fun first => List.subset_append_of_subset_left _ (functionsOption_inside init first))
        fun second => List.subset_append_of_subset_right _ (functions_inside body second)
  | .block _ stmts, _, member => functionsAll_inside stmts member
  | .function node _ _ _ body, _, member => by
      rcases List.mem_cons.mp member with rfl | later
      · exact List.subset_cons_self _ _
      · exact List.subset_cons_of_subset _ (functionsAll_inside body later)

theorem functionsOption_inside : ∀ (s : Option (Stmt α)) {function : Nat × List (Stmt α)},
    function ∈ functionsOption s → functionsAll function.2 ⊆ functionsOption s
  | none, _, member => nomatch member
  | some s, _, member => functions_inside s member

theorem functionsAll_inside : ∀ (stmts : List (Stmt α)) {function : Nat × List (Stmt α)},
    function ∈ functionsAll stmts → functionsAll function.2 ⊆ functionsAll stmts
  | [], _, member => nomatch member
  | s :: rest, _, member =>
      (List.mem_append.mp member).elim
        (fun first => List.subset_append_of_subset_left _ (functions_inside s first))
        fun second => List.subset_append_of_subset_right _ (functionsAll_inside rest second)

end

end Stmt

end Formulae
