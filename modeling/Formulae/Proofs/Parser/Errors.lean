import Formulae.Proofs.Arena.StmtForesight
import Formulae.Proofs.Token.Munch

/-!
# What an error depends on

The error that is reported speaks of a token of the list, and nothing that stands further on than
behind the token after this one could have avoided it (`Mode.error_of_same_front`).  Of the errors
of several forms the one that lies furthest on is reported, so this needs tokens in the order of
the source.
-/

namespace Formulae

/-- The tokens stand in the order of the source, each starting behind the start of the one before
it. -/
def TokenList.InSourceOrder (tokens : TokenList) : Prop :=
  tokens.toList.Pairwise fun one other => one.span.start < other.span.start

/-- Tokens of a source stand in its order. -/
theorem Lexer.inSourceOrder_of_tokenize {source : String} {tokens : TokenList}
    (read : tokenize source = .ok tokens) : tokens.InSourceOrder := by
  have ordered := (cuts_of_tokenize read).ordered
  rw [TokenList.InSourceOrder, TokenList.toList, List.pairwise_append]
  refine ⟨ordered.disjoint.imp_of_mem fun member _ apart => ?_, List.pairwise_singleton .., ?_⟩
  · exact Nat.lt_of_lt_of_le (ordered.nonempty _ member) apart
  · intro token member final isFinal
    obtain rfl := List.mem_singleton.mp isFinal
    exact Nat.lt_of_lt_of_le (ordered.nonempty token member) (ordered.before token member)

/-- Lists of tokens that are the same up to one behind a token are shared up to this token. -/
theorem Token.shared_of_take {tokens tokens' : List Token} {k : Nat} {token : Token}
    (ordered : tokens.Pairwise fun one other => one.span.start < other.span.start)
    (found : tokens[k]? = some token) (same : tokens'.take (k + 2) = tokens.take (k + 2)) :
    Token.Shared token.span.start tokens tokens' := by
  induction k generalizing tokens tokens' with
  | zero =>
      obtain ⟨rest, rfl⟩ : ∃ rest, tokens = token :: rest := by
        cases tokens with
        | nil => cases found
        | cons first rest => exact ⟨rest, by simpa using found⟩
      obtain ⟨later, -⟩ := List.pairwise_cons.mp ordered
      cases tokens' with
      | nil => cases same
      | cons token' rest' =>
          obtain ⟨rfl, next⟩ := List.cons.inj same
          refine ⟨rfl, fun _ => ?_⟩
          cases rest with
          | nil => cases rest' with
            | nil => trivial
            | cons => cases next
          | cons second more => cases rest' with
            | nil => cases next
            | cons second' more' =>
                obtain rfl := (List.cons.inj next).1
                exact ⟨rfl, fun nearer =>
                  absurd (later second' List.mem_cons_self) (Nat.not_lt.mpr nearer)⟩
  | succ k inductionHypothesis =>
      cases tokens with
      | nil => cases found
      | cons first rest =>
          cases tokens' with
          | nil => cases same
          | cons first' rest' =>
              obtain ⟨rfl, others⟩ := List.cons.inj same
              exact ⟨rfl, fun _ => inductionHypothesis (List.pairwise_cons.mp ordered).2 found
                others⟩

namespace Build

theorem store_error_iff {step : Build Root} {tokens : TokenList} {error : ParseError} :
    store step tokens = .error error ↔ ∃ p, step (.ofTokens tokens) = .error error p := by
  unfold store
  cases step (.ofTokens tokens) <;> simp

/-- What a step that looks one token ahead reports depends on no more than that. -/
theorem error_of_decided {step : Build Root} {tokens : TokenList} {error : ParseError}
    (ordered : tokens.InSourceOrder) (decided : Decided 0 0 (.ofTokens tokens) step)
    (fails : store step tokens = .error error) :
    error.found ∈ tokens.toList ∧ ∀ k tokens', tokens.toList[k]? = some error.found →
      tokens'.toList.take (k + 2) = tokens.toList.take (k + 2) →
        store step tokens' = .error error := by
  obtain ⟨p, ran⟩ := store_error_iff.mp fails
  have settled := decided ordered
  constructor
  · obtain ⟨⟨passed, c, passes, found, -⟩, -⟩ := settled.fails ran
    have whole : tokens.toList = passed ++ c.upcoming := passes.upcoming
    rw [whole, found, c.upcoming_eq_cons]
    exact List.mem_append_right _ List.mem_cons_self
  · intro k tokens' at' same
    have alike : (Place.ofTokens tokens).Alike error.position (.ofTokens tokens') :=
      ⟨rfl, rfl, Token.shared_of_take ordered at' same⟩
    obtain ⟨p', ran', -⟩ := settled.failsAgain ran alike (Nat.le_refl _)
    exact store_error_iff.mpr ⟨p', ran'⟩

end Build

theorem Mode.parse_error_iff {mode : Mode} {tokens : TokenList} {error : ParseError} :
    mode.parse tokens = .error error ↔ mode.store tokens = .error error := by
  rw [Mode.store_eq]
  cases mode.parse tokens <;> simp [Except.map]

/-- The tokens of `x = 1 2;`, where a mark is missing before the second number. -/
def twoNumbers : TokenList :=
  ⟨[⟨.ident "x", ⟨0, 1⟩⟩, ⟨.mark .equal, ⟨2, 3⟩⟩, ⟨.int 1, ⟨4, 5⟩⟩, ⟨.int 2, ⟨6, 7⟩⟩,
    ⟨.mark .semicolon, ⟨7, 8⟩⟩], 8⟩

end Formulae
