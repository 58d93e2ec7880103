import Formulae.Proofs.Parser.ExprSound
import Formulae.Proofs.Parser.StmtLaws
import Formulae.Tree.Basic

/-!
# Statements and programs read from source

As for expressions: whatever is read is a tree that source can give.  On the way
every function gets a number of its own, because the numbers of a statement lie
between the numbers of statements complete before and after it.
-/

namespace Formulae.Parser

variable {floats : Float → Prop} {s s₁ s' : State}

/-! ## Numbers -/

/-- What reading statements leaves behind, when `ids` are the numbers of the
functions among them. -/
structure Grows (floats : Float → Prop) (s : State) (ids : List Nat) (s' : State) : Prop where
  lexed : s'.Lexed floats
  mono : s.stmts ≤ s'.stmts
  nodup : ids.Nodup
  range : ∀ id ∈ ids, s.stmts ≤ id ∧ id < s'.stmts

theorem Leaves.grows (leaves : Leaves floats s s') : Grows floats s [] s' :=
  ⟨leaves.lexed, Nat.le_of_eq leaves.stmts.symm, .nil, by simp⟩

namespace Grows

variable {ids more : List Nat}

theorem trans (first : Grows floats s ids s₁) (second : Grows floats s₁ more s') :
    Grows floats s (ids ++ more) s' := by
  refine ⟨second.lexed, Nat.le_trans first.mono second.mono, ?_, ?_⟩
  · refine List.nodup_append.mpr ⟨first.nodup, second.nodup, fun a before b after same => ?_⟩
    have := (first.range a before).2
    have := (second.range b after).1
    omega
  · intro id member
    have := first.mono
    have := second.mono
    rcases List.mem_append.mp member with before | after
    · have := first.range id before
      omega
    · have := second.range id after
      omega

theorem thenLeaves (first : Grows floats s ids s₁) (second : Leaves floats s₁ s') :
    Grows floats s ids s' := by
  simpa using first.trans second.grows

theorem afterLeaves (first : Leaves floats s s₁) (second : Grows floats s₁ ids s') :
    Grows floats s ids s' := by
  simpa using first.grows.trans second

theorem addStmt (grows : Grows floats s ids s') : Grows floats s ids s'.addStmt :=
  ⟨grows.lexed, Nat.le_succ_of_le grows.mono, grows.nodup, fun id member =>
    ⟨(grows.range id member).1, Nat.lt_succ_of_lt (grows.range id member).2⟩⟩

/-- A function takes the number after those of the statements in its body. -/
theorem addFunction (grows : Grows floats s ids s') :
    Grows floats s (s'.stmts :: ids) s'.addStmt := by
  refine ⟨grows.lexed, Nat.le_succ_of_le grows.mono, ?_, ?_⟩
  · refine List.nodup_cons.mpr ⟨fun member => ?_, grows.nodup⟩
    exact Nat.lt_irrefl _ (grows.range _ member).2
  · intro id member
    rcases List.mem_cons.mp member with rfl | inner
    · exact ⟨grows.mono, Nat.lt_succ_self _⟩
    · exact grows.addStmt.range id inner

end Grows

/-- The numbers of the functions in a statement. -/
def functionIds (stmt : Stmt Unit) : List Nat :=
  stmt.functions.map Prod.fst

/-- The numbers of the functions in several statements. -/
def functionIdsAll (stmts : List (Stmt Unit)) : List Nat :=
  (Stmt.functionsAll stmts).map Prod.fst

/-! ## Declarations -/

theorem givesBinder_sound {mutable : Bool} {bound : Binder} (lexed : s.Lexed floats)
    (gives : GivesBinder mutable s bound s') : bound.Readable ∧ Leaves floats s s' := by
  rcases gives with ⟨-, name, rfl, ident, rfl⟩ | ⟨-, type, s₁, read, name, rfl, ident, rfl⟩
  · have isName := lexed.advance.isName ident
    exact ⟨⟨by simp, isName⟩, (Leaves.advance lexed).andAdvance⟩
  · have type' := typeExpr_sound s lexed read
    exact ⟨⟨by simpa using type'.readable, type'.leaves.lexed.isName ident⟩,
      type'.leaves.andAdvance⟩

theorem binder_sound {bound : Binder} (lexed : s.Lexed floats)
    (gives : Gives (binder s) bound s') : bound.Readable ∧ Leaves floats s s' := by
  by_cases isMut : s.kind = .keyword .mutWord
  · rcases givesBinder_sound lexed.advance ((gives_binder_of_mut isMut).mp gives) with
      ⟨readable, leaves⟩
    exact ⟨readable, (Leaves.advance lexed).trans leaves⟩
  · exact givesBinder_sound lexed ((gives_binder_of_ne isMut).mp gives)

theorem givesParam_sound {start : Span} {mutable : Bool} {bound : Param}
    (lexed : s.Lexed floats) (gives : GivesParam start mutable s bound s') :
    bound.Readable ∧ Leaves floats s s' := by
  rcases gives with ⟨type, s₁, read, name, rfl, ident, rfl⟩
  have type' := typeExpr_sound s lexed read
  exact ⟨⟨type'.readable, type'.leaves.lexed.isName ident⟩, type'.leaves.andAdvance⟩

theorem param_sound {bound : Param} (lexed : s.Lexed floats)
    (gives : Gives (param s) bound s') : bound.Readable ∧ Leaves floats s s' := by
  by_cases isMut : s.kind = .keyword .mutWord
  · rcases givesParam_sound lexed.advance ((gives_param_of_mut isMut).mp gives) with
      ⟨readable, leaves⟩
    exact ⟨readable, (Leaves.advance lexed).trans leaves⟩
  · exact givesParam_sound lexed ((gives_param_of_ne isMut).mp gives)

theorem paramsFrom_sound (s : State) {s' : State} {list : List Param} (lexed : s.Lexed floats)
    (gives : Gives (paramsFrom s) list s') :
    (∀ param ∈ list, param.Readable) ∧ Leaves floats s s' := by
  rcases gives_paramsFrom.mp gives with
    ⟨first, s₁, head, ⟨comma, rest, rfl, tail⟩ | ⟨rfl, -, rfl⟩⟩
  · have shorter := head.remaining_lt
    have shorter' := State.remaining_advance_lt_of_mark comma
    rcases param_sound lexed head with ⟨first', leaves⟩
    rcases paramsFrom_sound s₁.advance leaves.lexed.advance tail with ⟨rest', leaves'⟩
    exact ⟨List.forall_mem_cons.mpr ⟨first', rest'⟩, leaves.andAdvance.trans leaves'⟩
  · rcases param_sound lexed head with ⟨first', leaves⟩
    exact ⟨by simpa using first', leaves.andAdvance⟩
termination_by s.remaining

theorem params_sound {list : List Param} (lexed : s.Lexed floats)
    (gives : Gives (params s) list s') :
    (∀ param ∈ list, param.Readable) ∧ Leaves floats s s' := by
  by_cases close : s.kind = .mark .rightParen
  · rcases (gives_params_nil close).mp gives with ⟨rfl, rfl⟩
    exact ⟨by simp, .advance lexed⟩
  · rw [params_of_ne close] at gives
    exact paramsFrom_sound s lexed gives

/-! ## Parts of statements -/

theorem condition_sound {cond : Expr Unit} (lexed : s.Lexed floats)
    (gives : Gives (condition s) cond s') : ExprRead floats s cond s' := by
  rcases gives_condition.mp gives with ⟨-, s₁, -, read, rfl⟩
  have cond' := expression_sound lexed.advance read
  exact ⟨cond'.readable, ((Leaves.advance lexed).trans cond'.leaves).andAdvance⟩

theorem optionalBefore_sound {mark : Mark} {e : Option (Expr Unit)} (lexed : s.Lexed floats)
    (gives : Gives (optionalBefore mark s) e s') :
    (∀ value ∈ e, value.Readable floats) ∧ Leaves floats s s' := by
  by_cases close : s.kind = .mark mark
  · rcases (gives_optionalBefore_none close).mp gives with ⟨rfl, rfl⟩
    exact ⟨by simp, .advance lexed⟩
  · rcases (gives_optionalBefore_some close).mp gives with ⟨value, rfl, s₁, -, read, rfl⟩
    have value' := expression_sound lexed read
    exact ⟨by simpa using value'.readable, value'.leaves.andAdvance⟩

/-! ## Statements -/

/-- A readable statement that leaves no `else` to be taken, with the tokens and
numbers as they should be after it. -/
structure StmtRead (floats : Float → Prop) (s : State) (stmt : Stmt Unit) (s' : State) : Prop where
  readable : stmt.Readable floats
  noElse : stmt.opensElse → s'.kind ≠ .keyword .elseWord
  grows : Grows floats s (functionIds stmt) s'

/-- Readable statements with the tokens and numbers as they should be after them. -/
structure StmtsRead (floats : Float → Prop) (s : State) (stmts : List (Stmt Unit))
    (s' : State) : Prop where
  readable : Stmt.ReadableAll floats stmts
  grows : Grows floats s (functionIdsAll stmts) s'

theorem varDecl_sound {stmt : Stmt Unit} (lexed : s.Lexed floats)
    (gives : Gives (varDecl s) stmt s') : StmtRead floats s stmt s' ∧ stmt.isHeader := by
  rcases gives_varDecl.mp gives with ⟨bound, s₁, declared, -, init, s₂, read, -, rfl, rfl⟩
  rcases binder_sound lexed declared with ⟨bound', leaves⟩
  have init' := expression_sound leaves.lexed.advance read
  exact ⟨⟨⟨bound', init'.readable⟩, nofun,
    (leaves.andAdvance.trans init'.leaves).andAdvance.grows.addStmt⟩, rfl⟩

theorem exprStmt_sound {stmt : Stmt Unit} (lexed : s.Lexed floats)
    (gives : Gives (exprStmt s) stmt s') : StmtRead floats s stmt s' ∧ stmt.isHeader := by
  rcases gives_exprStmt.mp gives with ⟨e, s₁, read, -, rfl, rfl⟩
  have e' := expression_sound lexed read
  exact ⟨⟨e'.readable, nofun, e'.leaves.andAdvance.grows.addStmt⟩, rfl⟩

theorem returnStmt_sound {stmt : Stmt Unit} (lexed : s.Lexed floats)
    (gives : Gives (returnStmt s) stmt s') : StmtRead floats s stmt s' := by
  rcases gives_returnStmt.mp gives with ⟨-, value, s₁, read, rfl, rfl⟩
  rcases optionalBefore_sound lexed.advance read with ⟨value', leaves⟩
  exact ⟨value', nofun, ((Leaves.advance lexed).trans leaves).grows.addStmt⟩

theorem breakStmt_sound {stmt : Stmt Unit} (lexed : s.Lexed floats)
    (gives : Gives (breakStmt s) stmt s') : StmtRead floats s stmt s' := by
  rcases gives_breakStmt.mp gives with ⟨-, -, rfl, rfl⟩
  exact ⟨trivial, nofun, (Leaves.advance lexed).andAdvance.grows.addStmt⟩

theorem continueStmt_sound {stmt : Stmt Unit} (lexed : s.Lexed floats)
    (gives : Gives (continueStmt s) stmt s') : StmtRead floats s stmt s' := by
  rcases gives_continueStmt.mp gives with ⟨-, -, rfl, rfl⟩
  exact ⟨trivial, nofun, (Leaves.advance lexed).andAdvance.grows.addStmt⟩

theorem forInit_sound {init : Option (Stmt Unit)} (lexed : s.Lexed floats)
    (gives : Gives (forInit s) init s') :
    Stmt.ReadableOption floats init ∧ (∀ stmt ∈ init, stmt.isHeader) ∧
      Grows floats s ((Stmt.functionsOption init).map Prod.fst) s' := by
  by_cases close : s.kind = .mark .semicolon
  · rcases (gives_forInit_none close).mp gives with ⟨rfl, rfl⟩
    exact ⟨trivial, by simp, (Leaves.advance lexed).grows⟩
  · rcases (gives_forInit_some close).mp gives with ⟨stmt, rfl, declared | ⟨-, read⟩⟩
    · rcases varDecl_sound lexed declared with ⟨stmt', header⟩
      exact ⟨stmt'.readable, by simpa using header, stmt'.grows⟩
    · rcases exprStmt_sound lexed read with ⟨stmt', header⟩
      exact ⟨stmt'.readable, by simpa using header, stmt'.grows⟩

mutual

theorem statement_sound (s : State) {s' : State} {stmt : Stmt Unit} (lexed : s.Lexed floats)
    (gives : Gives (statement s) stmt s') : StmtRead floats s stmt s' := by
  rcases gives_statement.mp gives with h | ⟨-, h | ⟨-, h | ⟨-, h | ⟨-, h | ⟨-, h | ⟨-, h | ⟨-,
    h | ⟨-, h | ⟨-, h | ⟨-, h | ⟨-, h⟩⟩⟩⟩⟩⟩⟩⟩⟩⟩⟩
  · exact block_sound s lexed h
  · exact functionDecl_sound s lexed h
  · exact (varDecl_sound lexed h).1
  · exact returnStmt_sound lexed h
  · exact whileStmt_sound s lexed h
  · exact ifStmt_sound s lexed h
  · exact breakStmt_sound lexed h
  · exact continueStmt_sound lexed h
  · exact doWhileStmt_sound s lexed h
  · exact forEachStmt_sound s lexed h
  · exact forStmt_sound s lexed h
  · exact (exprStmt_sound lexed h).1
termination_by (s.remaining, 1)

theorem blockBody_sound (s : State) {s' : State} {stmts : List (Stmt Unit)}
    (lexed : s.Lexed floats) (gives : Gives (blockBody s) stmts s') :
    StmtsRead floats s stmts s' := by
  by_cases close : s.kind = .mark .rightBrace
  · rcases (gives_blockBody_nil close).mp gives with ⟨rfl, rfl⟩
    exact ⟨trivial, (Leaves.advance lexed).grows⟩
  · rcases (gives_blockBody_cons close).mp gives with ⟨-, first, s₁, head, rest, rfl, tail⟩
    have shorter := head.remaining_lt
    have first' := statement_sound s lexed head
    have rest' := blockBody_sound s₁ first'.grows.lexed tail
    refine ⟨⟨first'.readable, rest'.readable⟩, ?_⟩
    have grows := first'.grows.trans rest'.grows
    simpa [functionIdsAll, functionIds, Stmt.functionsAll] using grows
termination_by (s.remaining, 2)

theorem block_sound (s : State) {s' : State} {stmt : Stmt Unit} (lexed : s.Lexed floats)
    (gives : Gives (block s) stmt s') : StmtRead floats s stmt s' := by
  rcases gives_block.mp gives with ⟨brace, stmts, s₁, body, rfl, rfl⟩
  have shorter := State.remaining_advance_lt_of_mark brace
  have body' := blockBody_sound s.advance lexed.advance body
  exact ⟨body'.readable, nofun, (body'.grows.afterLeaves (.advance lexed)).addStmt⟩
termination_by (s.remaining, 0)

theorem functionDecl_sound (s : State) {s' : State} {stmt : Stmt Unit} (lexed : s.Lexed floats)
    (gives : Gives (functionDecl s) stmt s') : StmtRead floats s stmt s' := by
  rcases gives_functionDecl.mp gives with
    ⟨ret, s₁, readRet, name, ident, paren, bound, s₂, readParams, brace, body, s₃, read, rfl, rfl⟩
  have shorter := readRet.remaining_lt
  have shorter₁ := State.remaining_advance_lt_of_ident ident
  have shorter₂ := State.remaining_advance_lt_of_mark paren
  have shorter₃ := readParams.remaining_lt
  have shorter₄ := State.remaining_advance_lt_of_mark brace
  have ret' := typeExpr_sound s lexed readRet
  rcases params_sound ret'.leaves.andAdvance.andAdvance.lexed readParams with ⟨params', leaves⟩
  have body' := blockBody_sound s₂.advance leaves.lexed.advance read
  refine ⟨⟨ret'.readable, ret'.leaves.lexed.isName ident, params', body'.readable⟩, nofun, ?_⟩
  have before : Leaves floats s s₂.advance :=
    (ret'.leaves.andAdvance.andAdvance.trans leaves).andAdvance
  exact (body'.grows.afterLeaves before).addFunction
termination_by (s.remaining, 0)

theorem whileStmt_sound (s : State) {s' : State} {stmt : Stmt Unit} (lexed : s.Lexed floats)
    (gives : Gives (whileStmt s) stmt s') : StmtRead floats s stmt s' := by
  rcases gives_whileStmt.mp gives with ⟨keyword, cond, s₁, test, body, s₂, read, rfl, rfl⟩
  have shorter := State.remaining_advance_lt_of_keyword keyword
  have shorter₁ := test.remaining_lt
  have cond' := condition_sound lexed.advance test
  have body' := statement_sound s₁ cond'.leaves.lexed read
  exact ⟨⟨cond'.readable, body'.readable⟩, body'.noElse,
    (body'.grows.afterLeaves ((Leaves.advance lexed).trans cond'.leaves)).addStmt⟩
termination_by (s.remaining, 0)

theorem ifStmt_sound (s : State) {s' : State} {stmt : Stmt Unit} (lexed : s.Lexed floats)
    (gives : Gives (ifStmt s) stmt s') : StmtRead floats s stmt s' := by
  rcases gives_ifStmt.mp gives with ⟨keyword, cond, s₁, test, thenBranch, s₂, readThen, rest⟩
  have shorter := State.remaining_advance_lt_of_keyword keyword
  have shorter₁ := test.remaining_lt
  have shorter₂ := readThen.remaining_lt
  have cond' := condition_sound lexed.advance test
  have then' := statement_sound s₁ cond'.leaves.lexed readThen
  have before : Leaves floats s s₁ := (Leaves.advance lexed).trans cond'.leaves
  rcases rest with ⟨isElse, elseBranch, s₃, readElse, rfl, rfl⟩ | ⟨noElse, rfl, rfl⟩
  · have shorter₃ := State.remaining_advance_lt_of_keyword isElse
    have else' := statement_sound s₂.advance then'.grows.lexed.advance readElse
    refine ⟨⟨cond'.readable, then'.readable, else'.readable, fun _ => ?_⟩, else'.noElse, ?_⟩
    · cases opens : thenBranch.opensElse with
      | false => rfl
      | true => exact absurd isElse (then'.noElse opens)
    · have grows := (then'.grows.afterLeaves before).trans
        (else'.grows.afterLeaves (.advance then'.grows.lexed))
      simpa [functionIds, Stmt.functions, Stmt.functionsOption] using grows.addStmt
  · refine ⟨⟨cond'.readable, then'.readable, trivial, nofun⟩, fun _ => noElse, ?_⟩
    have grows := then'.grows.afterLeaves before
    simpa [functionIds, Stmt.functions, Stmt.functionsOption] using grows.addStmt
termination_by (s.remaining, 0)

theorem doWhileStmt_sound (s : State) {s' : State} {stmt : Stmt Unit} (lexed : s.Lexed floats)
    (gives : Gives (doWhileStmt s) stmt s') : StmtRead floats s stmt s' := by
  rcases gives_doWhileStmt.mp gives with
    ⟨keyword, body, s₁, read, isWhile, cond, s₂, test, semicolon, rfl, rfl⟩
  have shorter := State.remaining_advance_lt_of_keyword keyword
  have body' := statement_sound s.advance lexed.advance read
  have cond' := condition_sound body'.grows.lexed.advance test
  have after : Leaves floats s₁ s₂.advance :=
    ((Leaves.advance body'.grows.lexed).trans cond'.leaves).andAdvance
  exact ⟨⟨body'.readable, cond'.readable⟩, nofun,
    ((body'.grows.afterLeaves (.advance lexed)).thenLeaves after).addStmt⟩
termination_by (s.remaining, 0)

theorem forEachStmt_sound (s : State) {s' : State} {stmt : Stmt Unit} (lexed : s.Lexed floats)
    (gives : Gives (forEachStmt s) stmt s') : StmtRead floats s stmt s' := by
  rcases gives_forEachStmt.mp gives with ⟨keyword, paren, bound, s₁, declared, colon, iterable, s₂,
    readIterable, close, body, s₃, read, rfl, rfl⟩
  have shorter := State.remaining_advance_lt_of_keyword keyword
  have shorter₁ := State.remaining_advance_lt_of_mark paren
  have shorter₂ := declared.remaining_lt
  have shorter₃ := State.remaining_advance_lt_of_mark colon
  have shorter₄ := readIterable.remaining_lt
  have shorter₅ := State.remaining_advance_lt_of_mark close
  rcases binder_sound lexed.advance.advance declared with ⟨bound', leaves⟩
  have iterable' := expression_sound leaves.lexed.advance readIterable
  have before : Leaves floats s s₂.advance :=
    ((((Leaves.advance lexed).andAdvance.trans leaves).andAdvance).trans
      iterable'.leaves).andAdvance
  have body' := statement_sound s₂.advance before.lexed read
  exact ⟨⟨bound', iterable'.readable, body'.readable⟩, body'.noElse,
    (body'.grows.afterLeaves before).addStmt⟩
termination_by (s.remaining, 0)

theorem forStmt_sound (s : State) {s' : State} {stmt : Stmt Unit} (lexed : s.Lexed floats)
    (gives : Gives (forStmt s) stmt s') : StmtRead floats s stmt s' := by
  rcases gives_forStmt.mp gives with ⟨keyword, paren, init, s₁, readInit, cond, s₂, readCond, step,
    s₃, readStep, body, s₄, read, rfl, rfl⟩
  have shorter := State.remaining_advance_lt_of_keyword keyword
  have shorter₁ := State.remaining_advance_lt_of_mark paren
  have shorter₂ := readInit.remaining_lt
  have shorter₃ := readCond.remaining_lt
  have shorter₄ := readStep.remaining_lt
  rcases forInit_sound lexed.advance.advance readInit with ⟨init', header, grows⟩
  rcases optionalBefore_sound grows.lexed readCond with ⟨cond', leaves⟩
  rcases optionalBefore_sound leaves.lexed readStep with ⟨step', leaves'⟩
  have body' := statement_sound s₃ leaves'.lexed read
  refine ⟨⟨init', header, cond', step', body'.readable⟩, body'.noElse, ?_⟩
  have whole := ((grows.afterLeaves (Leaves.advance lexed).andAdvance).thenLeaves
    (leaves.trans leaves')).trans body'.grows
  simpa [functionIds, Stmt.functions] using whole.addStmt
termination_by (s.remaining, 0)

end

/-! ## Programs -/

theorem wholeExpression_sound {e : Expr Unit} (lexed : s.Lexed floats)
    (read : wholeExpression s = .ok (e, s')) : e.Readable floats := by
  unfold wholeExpression at read
  cases first : expression s with
  | error error => rw [first] at read; cases read
  | ok parsed =>
      rw [first] at read
      obtain ⟨value, s₁, shorter⟩ := parsed
      simp only [bind, Except.bind] at read
      split at read
      · cases read
        exact (expression_sound lexed ⟨shorter, first⟩).readable
      · cases read

theorem programBody_sound (s : State) {s' : State} {body : List (Stmt Unit)}
    {tail : Option (Expr Unit)} (lexed : s.Lexed floats)
    (read : programBody s = .ok (body, tail, s')) :
    Stmt.ReadableAll floats body ∧ (∀ e ∈ tail, e.Readable floats) ∧
      (functionIdsAll body).Nodup ∧ ∀ id ∈ functionIdsAll body, s.stmts ≤ id := by
  rw [programBody] at read
  split at read
  · cases read
    exact ⟨trivial, by simp, .nil, by simp [functionIdsAll, Stmt.functionsAll]⟩
  · split at read
    · next first s₁ shorter given =>
        have first' := statement_sound s lexed ⟨shorter, given⟩
        cases rest : programBody s₁ with
        | error error => rw [rest] at read; cases read
        | ok found =>
            obtain ⟨rest', tail', last⟩ := found
            rw [rest] at read
            cases read
            rcases programBody_sound s₁ first'.grows.lexed rest with
              ⟨readable, tailReadable, nodup, range⟩
            refine ⟨⟨first'.readable, readable⟩, tailReadable, ?_, ?_⟩
            · rw [functionIdsAll, Stmt.functionsAll, List.map_append]
              refine List.nodup_append.mpr
                ⟨first'.grows.nodup, nodup, fun a before b after same => ?_⟩
              have := (first'.grows.range a before).2
              have := range b after
              omega
            · intro id member
              rw [functionIdsAll, Stmt.functionsAll, List.map_append] at member
              rcases List.mem_append.mp member with before | after
              · exact (first'.grows.range id before).1
              · exact Nat.le_trans first'.grows.mono (range id after)
    · next error given =>
        cases whole : wholeExpression s with
        | error other => rw [whole] at read; cases read
        | ok found =>
            obtain ⟨e, last⟩ := found
            rw [whole] at read
            cases read
            exact ⟨trivial, by simpa using wholeExpression_sound lexed whole, .nil,
              by simp [functionIdsAll, Stmt.functionsAll]⟩
termination_by s.remaining

/-- A parsed program is one that source can give, and no two of its functions have
the same number. -/
structure ProgramRead (floats : Float → Prop) (p : Program Unit) : Prop where
  readable : p.Readable floats
  functions : (p.functions.map Prod.fst).Nodup

theorem lexed_ofTokens {tokens : TokenList}
    (lexed : ∀ token ∈ tokens.items, token.kind.Lexed floats) :
    (State.ofTokens tokens).Lexed floats :=
  lexed

theorem parse_sound {tokens : TokenList} {output : Output}
    (lexed : ∀ token ∈ tokens.items, token.kind.Lexed floats)
    (parsed : parse tokens = .ok output) : ProgramRead floats output.program := by
  unfold parse at parsed
  dsimp only at parsed
  cases read : programBody (State.ofTokens tokens) with
  | error error => rw [read] at parsed; cases parsed
  | ok found =>
      obtain ⟨body, tail, last⟩ := found
      rw [read] at parsed
      cases parsed
      rcases programBody_sound _ (lexed_ofTokens lexed) read with ⟨body', tail', nodup, -⟩
      exact ⟨⟨body', tail'⟩, nodup⟩

theorem parseExpression_sound {tokens : TokenList} {output : Output}
    (lexed : ∀ token ∈ tokens.items, token.kind.Lexed floats)
    (parsed : parseExpression tokens = .ok output) : ProgramRead floats output.program := by
  unfold parseExpression at parsed
  dsimp only at parsed
  cases read : wholeExpression (State.ofTokens tokens) with
  | error error => rw [read] at parsed; cases parsed
  | ok found =>
      obtain ⟨e, last⟩ := found
      rw [read] at parsed
      cases parsed
      exact ⟨⟨trivial, by simpa using wholeExpression_sound (lexed_ofTokens lexed) read⟩, .nil⟩

end Formulae.Parser
