import Formulae.Proofs.Parser.ExprReads
import Formulae.Proofs.Parser.StmtLaws

/-!
# Which form a statement takes

The forms of statements are tried in a fixed order, and the ones before the form that
was written fail: most forms start with a word of their own, and a declaration needs
a type with a name after it, which no expression starts with.
-/

namespace Formulae.Parser

variable {s s' : State}

theorem Gives.unique {α : Type} {outcome : Outcome α s} {value value' : α} {state state' : State}
    (first : Gives outcome value state) (second : Gives outcome value' state') :
    value = value' ∧ state = state' := by
  rcases first with ⟨_, first⟩
  rcases second with ⟨_, second⟩
  cases first.symm.trans second
  exact ⟨rfl, rfl⟩

/-! ## What is no declaration -/

/-- No type can be read with a name after it. -/
def NamesNothing (s : State) : Prop :=
  ∀ type s₁, Gives (typeExpr s) type s₁ → ∀ name, s₁.kind ≠ .ident name

theorem namesNothing_of_kind (word : s.kind.isTypeWord = false)
    (name : ∀ name, s.kind ≠ .ident name) : NamesNothing s :=
  fun _ _ gives => absurd gives (fails_typeExpr word name _ _)

theorem namesNothing_of_keyword {word : Keyword} (h : s.kind = .keyword word)
    (plain : word ≠ .functionWord) : NamesNothing s := by
  refine namesNothing_of_kind ?_ (by rw [h]; nofun)
  rw [h]
  cases word <;> first | rfl | contradiction

/-- An expression starts with no declaration. -/
theorem namesNothing_of_opens {braced : Bool} (opens : Opens s.kinds braced) : NamesNothing s := by
  have first := opens.first
  rw [← State.kind_eq_firstKind] at first
  by_cases isName : ∃ name, s.kind = .ident name
  · rcases isName with ⟨name, isName⟩
    obtain ⟨rest, kinds⟩ : ∃ rest, s.kinds = .ident name :: rest := by
      rw [State.kind_eq_firstKind] at isName
      cases spelled : s.kinds with
      | nil => simp [spelled] at isName
      | cons kind rest => exact ⟨rest, by simpa [spelled] using isName⟩
    have ahead := State.kinds_advance kinds
    -- The name is the whole type: no brackets follow it.
    have stop : s.advance.kind = .mark .leftBracket →
        s.advance.advance.kind ≠ .mark .rightBracket := by
      intro opening closing
      rcases opens.name name rest kinds with rfl | ⟨mark, more, rfl, inside⟩
      · exact absurd ((State.kind_of_kinds ahead).symm.trans opening) nofun
      · have bracket := (State.kind_of_kinds ahead).symm.trans opening
        have opened := inside (Token.Kind.mark.inj bracket)
        rw [← State.kind_of_kinds (State.kinds_advance ahead), closing] at opened
        exact absurd opened nofun
    intro type s₁ gives other isOther
    rw [gives_typeExpr_named isName, arraySuffix_of_stop _ stop] at gives
    rcases gives with ⟨-, rfl⟩
    change s.advance.kind = .ident other at isOther
    rw [State.kind_of_kinds ahead] at isOther
    rcases opens.name name rest kinds with rfl | ⟨mark, more, rfl, -⟩ <;>
      exact absurd isOther nofun
  · exact namesNothing_of_kind (Token.Kind.isTypeWord_of_opensExpr first)
      fun name isIdent => isName ⟨name, isIdent⟩

theorem fails_functionDecl (nothing : NamesNothing s) : Fails (functionDecl s) := by
  intro stmt s' gives
  rcases gives_functionDecl.mp gives with ⟨_, _, type, _, isName, _⟩
  exact nothing _ _ type _ isName

theorem fails_binder (nothing : NamesNothing s) (notMut : s.kind ≠ .keyword .mutWord)
    (notVar : s.kind ≠ .keyword .varWord) : Fails (binder s) := by
  intro bound s' gives
  rcases (gives_binder_of_ne notMut).mp gives with ⟨isVar, _⟩ | ⟨_, _, _, type, _, _, isName, _⟩
  · exact notVar isVar
  · exact nothing _ _ type _ isName

theorem fails_varDecl (noBinder : Fails (binder s)) : Fails (varDecl s) := by
  intro stmt s' gives
  rcases gives_varDecl.mp gives with ⟨_, _, bound, _⟩
  exact noBinder _ _ bound

theorem fails_block (h : s.kind ≠ .mark .leftBrace) : Fails (block s) :=
  fun _ _ gives => h (gives_block.mp gives).1

theorem fails_binder_of_opens {braced : Bool} (opens : Opens s.kinds braced) :
    Fails (binder s) := by
  have first := opens.first
  rw [← State.kind_eq_firstKind] at first
  refine fails_binder (namesNothing_of_opens opens) ?_ ?_ <;>
    · intro keyword
      rw [keyword] at first
      exact absurd first nofun

/-! ## Statements with a word of their own -/

theorem fails_returnStmt (h : s.kind ≠ .keyword .returnWord) : Fails (returnStmt s) :=
  fun _ _ gives => h (gives_returnStmt.mp gives).1

theorem fails_whileStmt (h : s.kind ≠ .keyword .whileWord) : Fails (whileStmt s) :=
  fun _ _ gives => h (gives_whileStmt.mp gives).1

theorem fails_ifStmt (h : s.kind ≠ .keyword .ifWord) : Fails (ifStmt s) :=
  fun _ _ gives => h (gives_ifStmt.mp gives).1

theorem fails_breakStmt (h : s.kind ≠ .keyword .breakWord) : Fails (breakStmt s) :=
  fun _ _ gives => h (gives_breakStmt.mp gives).1

theorem fails_continueStmt (h : s.kind ≠ .keyword .continueWord) : Fails (continueStmt s) :=
  fun _ _ gives => h (gives_continueStmt.mp gives).1

theorem fails_doWhileStmt (h : s.kind ≠ .keyword .doWord) : Fails (doWhileStmt s) :=
  fun _ _ gives => h (gives_doWhileStmt.mp gives).1

theorem fails_forEachStmt (h : s.kind ≠ .keyword .forWord) : Fails (forEachStmt s) :=
  fun _ _ gives => h (gives_forEachStmt.mp gives).1

theorem fails_forStmt (h : s.kind ≠ .keyword .forWord) : Fails (forStmt s) :=
  fun _ _ gives => h (gives_forStmt.mp gives).1

/-- The words that statements start with and declarations do not. -/
def leadsStmt : Keyword → Bool
  | .returnWord | .whileWord | .ifWord | .breakWord | .continueWord | .doWord | .forWord => true
  | _ => false

/-- No declaration starts with one of these words. -/
theorem fails_declarations_of_keyword {word : Keyword} (h : s.kind = .keyword word)
    (leads : leadsStmt word) :
    Fails (block s) ∧ Fails (functionDecl s) ∧ Fails (varDecl s) := by
  have plain : word ≠ .functionWord ∧ word ≠ .mutWord ∧ word ≠ .varWord := by
    refine ⟨?_, ?_, ?_⟩ <;>
      · rintro rfl
        exact absurd leads nofun
  have nothing := namesNothing_of_keyword h plain.1
  refine ⟨fails_block (by rw [h]; nofun), fails_functionDecl nothing, fails_varDecl ?_⟩
  exact fails_binder nothing (by simpa [h] using plain.2.1) (by simpa [h] using plain.2.2)

/-- The forms with a word of their own, without the order in which they are tried. -/
theorem gives_statement_of_word {stmt : Stmt Unit}
    (gives : Gives (returnStmt s) stmt s' ∨ Gives (whileStmt s) stmt s' ∨
      Gives (ifStmt s) stmt s' ∨ Gives (breakStmt s) stmt s' ∨ Gives (continueStmt s) stmt s' ∨
      Gives (doWhileStmt s) stmt s' ∨ Gives (forEachStmt s) stmt s' ∨
      Fails (forEachStmt s) ∧ Gives (forStmt s) stmt s') :
    Gives (statement s) stmt s' := by
  have chosen {word : Keyword} (h : s.kind = .keyword word) (leads : leadsStmt word)
      (later : Gives (returnStmt s) stmt s' ∨ Fails (returnStmt s) ∧ (
        Gives (whileStmt s) stmt s' ∨ Fails (whileStmt s) ∧ (
        Gives (ifStmt s) stmt s' ∨ Fails (ifStmt s) ∧ (
        Gives (breakStmt s) stmt s' ∨ Fails (breakStmt s) ∧ (
        Gives (continueStmt s) stmt s' ∨ Fails (continueStmt s) ∧ (
        Gives (doWhileStmt s) stmt s' ∨ Fails (doWhileStmt s) ∧ (
        Gives (forEachStmt s) stmt s' ∨ Fails (forEachStmt s) ∧ (
        Gives (forStmt s) stmt s' ∨ Fails (forStmt s) ∧
          Gives (exprStmt s) stmt s')))))))) :
      Gives (statement s) stmt s' := by
    rcases fails_declarations_of_keyword h leads with ⟨noBlock, noFunction, noVar⟩
    exact gives_statement.mpr (.inr ⟨noBlock, .inr ⟨noFunction, .inr ⟨noVar, later⟩⟩⟩)
  rcases gives with given | given | given | given | given | given | given | ⟨noEach, given⟩
  · exact chosen (gives_returnStmt.mp given).1 rfl (.inl given)
  · have kind := (gives_whileStmt.mp given).1
    exact chosen kind rfl (by simp [fails_returnStmt, kind, given])
  · have kind := (gives_ifStmt.mp given).1
    exact chosen kind rfl (by simp [fails_returnStmt, fails_whileStmt, kind, given])
  · have kind := (gives_breakStmt.mp given).1
    exact chosen kind rfl (by simp [fails_returnStmt, fails_whileStmt, fails_ifStmt, kind, given])
  · have kind := (gives_continueStmt.mp given).1
    exact chosen kind rfl (by
      simp [fails_returnStmt, fails_whileStmt, fails_ifStmt, fails_breakStmt, kind, given])
  · have kind := (gives_doWhileStmt.mp given).1
    exact chosen kind rfl (by
      simp [fails_returnStmt, fails_whileStmt, fails_ifStmt, fails_breakStmt, fails_continueStmt,
        kind, given])
  · have kind := (gives_forEachStmt.mp given).1
    exact chosen kind rfl (by
      simp [fails_returnStmt, fails_whileStmt, fails_ifStmt, fails_breakStmt, fails_continueStmt,
        fails_doWhileStmt, kind, given])
  · have kind := (gives_forStmt.mp given).1
    exact chosen kind rfl (by
      simp [fails_returnStmt, fails_whileStmt, fails_ifStmt, fails_breakStmt, fails_continueStmt,
        fails_doWhileStmt, noEach, kind, given])

/-- Where an expression starts, with no brace and no name behind a type, every form but the last
fails. -/
theorem gives_statement_of_first (first : s.kind.opensExpr) (noBrace : s.kind ≠ .mark .leftBrace)
    (nothing : NamesNothing s) {stmt : Stmt Unit} :
    Gives (statement s) stmt s' ↔ Gives (exprStmt s) stmt s' := by
  have noWord {word : Keyword} (leads : leadsStmt word) : s.kind ≠ .keyword word := by
    intro isWord
    rw [isWord] at first
    cases word <;> first | (cases first; done) | cases leads
  have noBinder : Fails (binder s) := by
    refine fails_binder nothing ?_ ?_ <;>
      · intro keyword
        rw [keyword] at first
        exact absurd first nofun
  have failing {outcome : Outcome (Stmt Unit) s} (fails : Fails outcome) {rest : Prop} :
      Gives outcome stmt s' ∨ Fails outcome ∧ rest ↔ rest := by
    simp [fails, fails stmt s']
  rw [gives_statement, failing (fails_block noBrace), failing (fails_functionDecl nothing),
    failing (fails_varDecl noBinder), failing (fails_returnStmt (noWord rfl)),
    failing (fails_whileStmt (noWord rfl)), failing (fails_ifStmt (noWord rfl)),
    failing (fails_breakStmt (noWord rfl)), failing (fails_continueStmt (noWord rfl)),
    failing (fails_doWhileStmt (noWord rfl)), failing (fails_forEachStmt (noWord rfl)),
    failing (fails_forStmt (noWord rfl))]

/-- Before an expression every form but the last fails. -/
theorem gives_statement_of_opens (opens : Opens s.kinds false) {stmt : Stmt Unit} :
    Gives (statement s) stmt s' ↔ Gives (exprStmt s) stmt s' := by
  have first := opens.first
  rw [← State.kind_eq_firstKind] at first
  have noBrace : s.kind ≠ .mark .leftBrace := fun brace =>
    absurd (opens.brace (State.kind_eq_firstKind s ▸ brace)) nofun
  exact gives_statement_of_first first noBrace (namesNothing_of_opens opens)

/-! ## What an expression starts with -/

theorem opensExpr_of_gives_primary {e : Expr Unit} (gives : Gives (primary s) e s') :
    s.kind.opensExpr := by
  rcases primary_cases gives with ⟨value, found, -⟩ | ⟨name, found, -⟩ | ⟨found, -⟩ | ⟨found, -⟩
  · cases kind : s.kind with
    | keyword word =>
        rw [kind] at found
        cases word <;> first | rfl | cases found
    | int | float | string => rfl
    | _ => rw [kind] at found; cases found
  · rw [found]; rfl
  · rw [found]; rfl
  · rw [found]; rfl

theorem opensExpr_of_gives {minimum : Nat} {e : Expr Unit} (gives : Gives (binary minimum s) e s') :
    s.kind.opensExpr := by
  rcases gives_binary.mp gives with ⟨left, s₁, operand, -⟩
  cases found : s.kind.prefixOperator? with
  | some op =>
      cases kind : s.kind with
      | mark mark =>
          rw [kind] at found
          cases mark <;> first | rfl | cases found
      | _ => rw [kind] at found; cases found
  | none =>
      by_cases cast : OpensCast s
      · rw [cast.1]
        rfl
      · rw [unary_of_postfixed found cast] at operand
        rcases gives_postfixed.mp operand with ⟨head, s₂, read, -⟩
        exact opensExpr_of_gives_primary read

/-- An expression that starts with a name goes on with suffixes and operators. -/
theorem gives_binary_of_ident {minimum : Nat} {e : Expr Unit} {name : String}
    (isName : s.kind = .ident name) : Gives (binary minimum s) e s' ↔ ∃ head s₁,
      Reaches (suffixes (.ident (s.exprNode s.span) name) s.advance.addExpr) head s₁ ∧
        Reaches (climb minimum head s₁) e s' := by
  have noPrefix : s.kind.prefixOperator? = none := by rw [isName]; rfl
  have noCast : ¬OpensCast s := fun cast => by cases isName.symm.trans cast.1
  simp only [gives_binary, unary_of_postfixed noPrefix noCast, gives_postfixed,
    gives_primary_of_ident isName]
  constructor
  · rintro ⟨head, s₁, ⟨_, _, ⟨rfl, rfl⟩, suffixed⟩, climbs⟩
    exact ⟨head, s₁, suffixed, climbs⟩
  · rintro ⟨head, s₁, suffixed, climbs⟩
    exact ⟨head, s₁, ⟨_, _, ⟨rfl, rfl⟩, suffixed⟩, climbs⟩

/-- Where both an expression and a type can be read, both start with a name, and the type is that
name and nothing else: brackets with nothing inside are no index. -/
theorem name_of_expression_and_type {minimum : Nat} {e : Expr Unit} {type : TypeExpr} {s₁ : State}
    (read : Gives (binary minimum s) e s') (type' : Gives (typeExpr s) type s₁) :
    (∃ first, s.kind = .ident first) ∧ s₁ = s.advance := by
  have opens := opensExpr_of_gives read
  obtain ⟨first, isName⟩ : ∃ first, s.kind = .ident first := by
    by_contra noName
    exact fails_typeExpr (Token.Kind.isTypeWord_of_opensExpr opens)
      (fun first isName => noName ⟨first, isName⟩) _ _ type'
  rcases (gives_binary_of_ident isName).mp read with ⟨head, s₂, suffixed, -⟩
  have stop : s.advance.kind = .mark .leftBracket →
      s.advance.advance.kind ≠ .mark .rightBracket := by
    intro opening closing
    rcases (reaches_suffixes_of_bracket (s := s.advance.addExpr) opening).mp suffixed with
      ⟨_, _, _, subscript, -⟩
    have opens := opensExpr_of_gives subscript
    change s.advance.advance.kind.opensExpr at opens
    rw [closing] at opens
    cases opens
  rw [gives_typeExpr_named isName, arraySuffix_of_stop _ stop] at type'
  obtain ⟨-, rfl⟩ := type'
  exact ⟨⟨first, isName⟩, rfl⟩

/-- No declaration starts where an expression can be read that no name follows: before a name, a
name is all there is of an expression. -/
theorem namesNothing_of_gives {minimum : Nat} {e : Expr Unit}
    (read : Gives (binary minimum s) e s') (other : ∀ name, s'.kind ≠ .ident name) :
    NamesNothing s := by
  intro type s₁ type' name named
  obtain ⟨⟨first, isName⟩, rfl⟩ := name_of_expression_and_type read type'
  rcases (gives_binary_of_ident isName).mp read with ⟨head, s₂, suffixed, climbs⟩
  have same : s.advance.addExpr.kind = .ident name := named
  obtain ⟨rfl, rfl⟩ := (reaches_suffixes_of_ne (by simp [same]) (by simp [same])).mp suffixed
  have ends : EndsOperand minimum s.advance.addExpr.kind := by
    rw [same]
    exact ⟨nofun, nofun⟩
  obtain ⟨rfl, rfl⟩ := (reaches_climb_of_ends ends).mp climbs
  exact other name same

end Formulae.Parser
