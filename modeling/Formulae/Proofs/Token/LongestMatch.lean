import Formulae.Token.Lexer

/-!
# The pattern that wins

The first character of a text already rules out most patterns.  A pattern that
reaches further than all others that are left is the one that is chosen
(`longestMatch_eq_some`), and whatever is chosen does accept what it is said to
accept (`longest_of_longestMatch`).
-/

namespace Formulae

theorem Mark.chars_ne_nil (symbol : Mark) : symbol.chars ≠ [] := by
  cases symbol <;> simp [Mark.chars]

theorem Mark.chars_injective {symbol other : Mark} (h : symbol.chars = other.chars) :
    symbol = other := by
  cases symbol <;> cases other <;> first | rfl | cases h

namespace Pattern

open Lexer

theorem mem_all (pattern : Pattern) : pattern ∈ all := by
  cases pattern with
  | mark symbol => simp [all, Mark.mem_all symbol]
  | _ => simp [all]

/-- The characters that the texts of a pattern start with. -/
def startsWith : Pattern → Char → Bool
  | .blanks, c => isSeparator c
  | .comment, c => c = '/'
  | .word, c => startsWord c
  | .digits, c | .decimal, c => c.isDigit
  | .quoted, c => c = '"'
  | .mark symbol, c => symbol.chars.head? = some c

theorem takeWhile_length_pos {p : Char → Bool} {first : Char} {rest : List Char}
    (h : ((first :: rest).takeWhile p).length ≠ 0) : p first := by
  cases accepted : p first with
  | true => rfl
  | false => simp [accepted] at h

theorem startsWith_of_longest {pattern : Pattern} {first : Char} {rest : List Char} {count : Nat}
    (h : pattern.longest (first :: rest) = some count) : pattern.startsWith first := by
  cases pattern with
  | blanks =>
      simp only [longest] at h
      split at h
      · cases h
      · next found => exact takeWhile_length_pos found
  | comment =>
      unfold longest at h
      split at h <;> simp_all [startsWith]
  | word =>
      simp only [longest] at h
      split at h
      · next found => exact found
      · cases h
  | digits =>
      simp only [longest] at h
      split at h
      · cases h
      · next found => exact takeWhile_length_pos found
  | decimal =>
      simp only [longest] at h
      split at h
      · split at h
        · cases h
        · next found =>
            exact takeWhile_length_pos fun none => found (.inl none)
      · cases h
  | quoted =>
      unfold longest at h
      split at h <;> simp_all [startsWith]
  | mark symbol =>
      simp only [longest] at h
      split at h
      · next found =>
          obtain ⟨c, chars, spelled⟩ := List.exists_cons_of_ne_nil (Mark.chars_ne_nil symbol)
          simp only [spelled, List.isPrefixOf, Bool.and_eq_true, beq_iff_eq] at found
          simp [startsWith, spelled, found.1]
      · cases h

end Pattern

namespace Lexer

/-! ## Choosing -/

/-- One step of the choice. -/
def better (source : List Char) (best : Option Match) (pattern : Pattern) : Option Match :=
  match pattern.longest source, best with
  | none, best => best
  | some length, none => some ⟨pattern, length⟩
  | some length, some found => some (found.longer ⟨pattern, length⟩)

theorem longestMatch_eq_foldl (source : List Char) :
    longestMatch source = Pattern.all.foldl (better source) none :=
  rfl

/-- The winner is in sight once it was met or is still to come. -/
theorem foldl_better_eq_some {source : List Char} {pattern : Pattern} {count : Nat}
    (own : pattern.longest source = some count)
    (others : ∀ other length, other ≠ pattern → other.longest source = some length →
      length < count)
    (patterns : List Pattern) (best : Option Match)
    (behind : ∀ found ∈ best, found = ⟨pattern, count⟩ ∨ found.length < count)
    (inSight : best = some ⟨pattern, count⟩ ∨ pattern ∈ patterns) :
    patterns.foldl (better source) best = some ⟨pattern, count⟩ := by
  induction patterns generalizing best with
  | nil => simpa using inSight
  | cons next rest inductionHypothesis =>
      rw [List.foldl_cons]
      by_cases same : next = pattern
      · -- The winner itself: it takes the lead, or keeps it.
        subst same
        have leads : better source best next = some ⟨next, count⟩ := by
          unfold better
          rw [own]
          cases best with
          | none => rfl
          | some found =>
              rcases behind found rfl with rfl | shorter
              · simp [Match.longer]
              · simp [Match.longer, shorter]
        rw [leads]
        exact inductionHypothesis _ (by simp) (.inl rfl)
      · -- Another pattern: it may lead for a while, but never by as much.
        apply inductionHypothesis
        · intro found isBest
          unfold better at isBest
          cases reached : next.longest source with
          | none => exact behind found (by simpa [reached] using isBest)
          | some length =>
              have short := others next length same reached
              cases best with
              | none =>
                  simp only [reached, Option.mem_def, Option.some.injEq] at isBest
                  exact .inr (isBest ▸ short)
              | some old =>
                  simp only [reached, Match.longer, Option.mem_def, Option.some.injEq] at isBest
                  split at isBest
                  · exact .inr (isBest ▸ short)
                  · exact behind found (by simp [isBest])
        · rcases inSight with rfl | listed
          · left
            unfold better
            cases reached : next.longest source with
            | none => rfl
            | some length =>
                have short := others next length same reached
                simp [Match.longer, Nat.not_lt.mpr (Nat.le_of_lt short)]
          · right
            rcases List.mem_cons.mp listed with equal | later
            · exact absurd equal.symm same
            · exact later

/-- A pattern that reaches further than all others is chosen. -/
theorem longestMatch_eq_some {source : List Char} {pattern : Pattern} {count : Nat}
    (own : pattern.longest source = some count)
    (others : ∀ other length, other ≠ pattern → other.longest source = some length →
      length < count) :
    longestMatch source = some ⟨pattern, count⟩ := by
  rw [longestMatch_eq_foldl]
  exact foldl_better_eq_some own others _ _ (by simp) (.inr (Pattern.mem_all pattern))

/-- The chosen pattern accepts what it was chosen for. -/
theorem longest_of_longestMatch {source : List Char} {found : Match}
    (h : longestMatch source = some found) :
    found.pattern.longest source = some found.length := by
  have invariant : ∀ (patterns : List Pattern) (best : Option Match),
      (∀ m ∈ best, m.pattern.longest source = some m.length) →
        ∀ m ∈ patterns.foldl (better source) best, m.pattern.longest source = some m.length := by
    intro patterns
    induction patterns with
    | nil => exact fun _ holds => holds
    | cons next rest inductionHypothesis =>
        intro best holds
        apply inductionHypothesis
        intro m isBest
        unfold better at isBest
        cases reached : next.longest source with
        | none => exact holds m (by simpa [reached] using isBest)
        | some length =>
            cases best with
            | none =>
                simp only [reached, Option.mem_def, Option.some.injEq] at isBest
                exact isBest ▸ reached
            | some old =>
                simp only [reached, Match.longer, Option.mem_def, Option.some.injEq] at isBest
                split at isBest
                · exact isBest ▸ reached
                · exact holds m (by simp [isBest])
  exact invariant Pattern.all none (by simp) found h

end Lexer

end Formulae
