import Formulae.Proofs.Arena.StmtFollows
import Formulae.Proofs.RoundTrip

/-!
# Reading into storage gives the storage of the tree

Reading tokens into storage fails with the error that reading a tree reports, and else it leaves
exactly the storage of that tree (`Mode.store_eq`): whatever was tried and given up on the way
has left no trace.
-/

namespace Formulae

open Formulae.Parser (State Parsed orFurther)

namespace Build

variable {p : Place} {s : State}

theorem follows_wholeExpression (here : p.state = s) :
    Follows id (Puts Expr.store p.arena) p (Parser.wholeExpression s) wholeExpression := by
  rw [Parser.wholeExpression, wholeExpression]
  refine (follows_expression here).andThen fun e s₁ h₁ id p₁ here₁ _ puts => ?_
  refine .kind here₁ ?_
  by_cases ends : s₁.kind = .endOfInput
  · simp only [if_pos ends]
    exact .ok rfl rfl here₁ (Arena.le_refl _) puts
  · simp only [if_neg ends]
    exact .error rfl (here₁ ▸ rfl) (Arena.le_refl _)

theorem bind_orFurther {ρ σ : Type} (error : ParseError) (outcome : Except ParseError ρ)
    (f : ρ → σ) : (orFurther (.error error) (fun _ => outcome) >>= fun result => pure (f result)) =
      orFurther (.error error) fun _ => outcome >>= fun result => pure (f result) := by
  cases outcome <;> rfl

/-- The storage of the statements of a program and of its last expression. -/
def storeBody (body : List (Stmt Unit) × Option (Expr Unit)) :
    StateM Arena (List Nat × Option Nat) := do
  let ids ← Stmt.storeAll body.1
  let tail ← Expr.storeOption body.2
  return (ids, tail)

theorem storeBody_cons {a a₁ a₂ : Arena} {first : Stmt Unit} {rest : List (Stmt Unit)}
    {tail : Option (Expr Unit)} {id : Nat} {ids : List Nat} {e : Option Nat}
    (head : first.store a = (id, a₁)) (others : storeBody (rest, tail) a₁ = ((ids, e), a₂)) :
    storeBody (first :: rest, tail) a = ((id :: ids, e), a₂) := by
  have run : storeBody (first :: rest, tail) a =
      (((first.store a).1 :: (storeBody (rest, tail) (first.store a).2).1.1,
        (storeBody (rest, tail) (first.store a).2).1.2),
          (storeBody (rest, tail) (first.store a).2).2) :=
    rfl
  rw [run, head, others]

theorem storeBody_tail {a a' : Arena} {e : Expr Unit} {id : Nat} (puts : e.store a = (id, a')) :
    storeBody ([], some e) a = (([], some id), a') := by
  have run : storeBody ([], some e) a = (([], some (e.store a).1), (e.store a).2) := rfl
  rw [run, puts]

/-- The result of reading the statements of a program and its last expression. -/
def bodyResult (result : List (Stmt Unit) × Option (Expr Unit) × State) :
    (List (Stmt Unit) × Option (Expr Unit)) × State :=
  ((result.1, result.2.1), result.2.2)

theorem follows_programBody (n : Nat) {p : Place} {s : State} (here : p.state = s)
    (enough : s.remaining + 1 ≤ n) :
    Follows bodyResult (Puts storeBody p.arena) p (Parser.programBody s) (programBody n) := by
  induction n generalizing p s with
  | zero => omega
  | succ n inductionHypothesis =>
      rw [Parser.programBody, programBody]
      refine .kind here ?_
      by_cases ends : s.kind = .endOfInput
      · rw [if_pos ends, if_pos ends]
        exact .ok rfl rfl here (Arena.le_refl _) rfl
      · rw [if_neg ends, if_neg ends]
        cases tries_fullStatement here with
        | @ok parsed id p₁ gives ran here₁ grown first' =>
            obtain ⟨first, s₁, h₁⟩ := parsed
            change p₁.state = s₁ at here₁
            rw [gives]
            refine .orAttempt_ok ran grown ?_
            apply (inductionHypothesis here₁ (by omega)).bind
            rintro ⟨rest, tail, last⟩ ⟨ids, e⟩ p₂ here₂ - rest'
            exact .ok rfl rfl here₂ (Arena.le_refl _) (storeBody_cons first' rest')
        | @error error _ fails ran same =>
            rw [same] at ran
            have tail : Follows bodyResult (Puts storeBody p.arena) p
                (Parser.wholeExpression s >>= fun found => pure ([], some found.1, found.2))
                (wholeExpression >>= fun e => pure ([], some e)) := by
              apply (follows_wholeExpression here).bind
              rintro ⟨e, last⟩ id p₁ here₁ - puts
              exact .ok rfl rfl here₁ (Arena.le_refl _) (storeBody_tail puts)
            rw [fails]
            change Follows _ _ p (orFurther (.error error) (fun _ => Parser.wholeExpression s) >>=
              fun found => pure ([], some found.1, found.2)) _
            rw [bind_orFurther]
            exact .orAttempt_error ran tail

/-! ## All tokens -/

/-- Both ways of reading succeed with the same formula and the same number of nodes, or both fail
with the same error. -/
inductive Same (read : Except ParseError Parser.Output) (stored : Except ParseError Stored) : Prop
  | ok {output : Parser.Output} (reads : read = .ok output)
      (stores : stored = .ok output.program.stored)
      (exprs : output.program.stored.arena.exprs.length = output.exprs)
      (stmts : output.program.stored.arena.stmts.length = output.stmts)
  | error {error : ParseError} (reads : read = .error error) (stores : stored = .error error)

theorem stored_eq (body : List (Stmt Unit)) (tail : Option (Expr Unit)) (span : Span)
    {ids : List Nat} {e : Option Nat} {a : Arena}
    (puts : storeBody (body, tail) .empty = ((ids, e), a)) :
    (Program.mk body tail span).stored =
      ⟨(Arena.addStmtList ids a).2, (Arena.addStmtList ids a).1, e, span⟩ := by
  have run : (Program.mk body tail span).stored =
      ⟨(Arena.addStmtList (storeBody (body, tail) .empty).1.1
          (storeBody (body, tail) .empty).2).2,
        (Arena.addStmtList (storeBody (body, tail) .empty).1.1
          (storeBody (body, tail) .empty).2).1,
        (storeBody (body, tail) .empty).1.2, span⟩ :=
    rfl
  rw [run, puts]

theorem same_program (tokens : TokenList) : Same (Parser.parse tokens) (store program tokens) := by
  have here : (Place.ofTokens tokens).state = State.ofTokens tokens := rfl
  have bound : (Place.ofTokens tokens).cursor.remaining = (State.ofTokens tokens).remaining := rfl
  have follows := follows_programBody ((Place.ofTokens tokens).cursor.remaining + 1) here
    (Nat.le_refl _)
  cases follows with
  | @ok result value p' gives ran state grown puts =>
      obtain ⟨body, tail, last⟩ := result
      obtain ⟨ids, e⟩ := value
      change p'.state = last at state
      subst state
      have reads : Parser.parse tokens = .ok ⟨⟨body, tail,
          p'.state.spanFrom (State.ofTokens tokens).span⟩, p'.state.exprs, p'.state.stmts⟩ := by
        unfold Parser.parse
        dsimp only
        rw [gives]
        rfl
      have run : program (Place.ofTokens tokens) =
          .ok ⟨(Arena.addStmtList ids p'.arena).1, e,
              p'.state.spanFrom (State.ofTokens tokens).span⟩
            ⟨p'.cursor, (Arena.addStmtList ids p'.arena).2⟩ :=
        (bind_of_ok rfl).trans (bind_of_ok ran)
      have stored := stored_eq body tail (p'.state.spanFrom (State.ofTokens tokens).span) puts
      refine .ok reads ?_ ?_ ?_
      · rw [stored, store, run]
      · rw [stored]
        rfl
      · rw [stored]
        rfl
  | @error error p' fails ran grown =>
      have reads : Parser.parse tokens = .error error := by
        unfold Parser.parse
        dsimp only
        rw [fails]
        rfl
      have run : program (Place.ofTokens tokens) = .error error p' :=
        (bind_of_ok rfl).trans (bind_of_error ran)
      refine .error reads ?_
      rw [store, run]

theorem same_loneExpression (tokens : TokenList) :
    Same (Parser.parseExpression tokens) (store loneExpression tokens) := by
  have here : (Place.ofTokens tokens).state = State.ofTokens tokens := rfl
  cases follows_wholeExpression here with
  | @ok result id p' gives ran state grown puts =>
      obtain ⟨tail, last⟩ := result
      change p'.state = last at state
      subst state
      have reads : Parser.parseExpression tokens = .ok ⟨⟨[], some tail,
          p'.state.spanFrom (State.ofTokens tokens).span⟩, p'.state.exprs, p'.state.stmts⟩ := by
        unfold Parser.parseExpression
        dsimp only
        rw [gives]
        rfl
      have run : loneExpression (Place.ofTokens tokens) =
          .ok ⟨⟨0, 0⟩, some id, p'.state.spanFrom (State.ofTokens tokens).span⟩ p' :=
        (bind_of_ok rfl).trans (bind_of_ok ran)
      change tail.store .empty = (id, p'.arena) at puts
      have noLists : p'.arena.stmtLists = [] := by
        have same := tail.keepsStmtLists_store .empty
        rw [puts] at same
        exact same
      have stored : (Program.mk [] (some tail)
          (p'.state.spanFrom (State.ofTokens tokens).span)).stored =
            ⟨p'.arena, ⟨0, 0⟩, some id, p'.state.spanFrom (State.ofTokens tokens).span⟩ := by
        rw [stored_eq _ _ _ (storeBody_tail puts)]
        simp only [Arena.addStmtList, noLists, List.length_nil, List.append_nil]
        rw [← noLists]
      refine .ok reads ?_ ?_ ?_
      · rw [stored, store, run]
      · rw [stored]
        rfl
      · rw [stored]
        rfl
  | @error error p' fails ran grown =>
      have reads : Parser.parseExpression tokens = .error error := by
        unfold Parser.parseExpression
        dsimp only
        rw [fails]
        rfl
      have run : loneExpression (Place.ofTokens tokens) = .error error p' :=
        (bind_of_ok rfl).trans (bind_of_error ran)
      refine .error reads ?_
      rw [store, run]

end Build

namespace Mode

/-- Read all tokens into storage. -/
def store : Mode → TokenList → Except ParseError Stored
  | .program => Build.store Build.program
  | .expression => Build.store Build.loneExpression

theorem same (mode : Mode) (tokens : TokenList) :
    Build.Same (mode.parse tokens) (mode.store tokens) := by
  cases mode with
  | program => exact Build.same_program tokens
  | expression => exact Build.same_loneExpression tokens

/-- Reading tokens into storage gives what storing the tree gives. -/
theorem store_eq (mode : Mode) (tokens : TokenList) :
    mode.store tokens = (mode.parse tokens).map fun output => output.program.stored := by
  cases mode.same tokens with
  | ok reads stores => rw [reads, stores]; rfl
  | error reads stores => rw [reads, stores]; rfl

/-- Before the sum is found to be the last expression, it is read as a statement. -/
example : (Lexer.tokenize "a + b").toOption.bind (fun tokens =>
    (Mode.program.store tokens).toOption.map fun stored =>
      (stored.arena.exprs.length, stored.arena.stmts.length)) = some (3, 0) := by
  simp only [store_eq]
  cbv

end Mode

end Formulae
