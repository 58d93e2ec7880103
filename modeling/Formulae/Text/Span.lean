/-!
# Stretches of source text

A span names a stretch of the source by the offsets of its first byte and of
the first byte after it.  Tokens, tree nodes and errors carry one.
-/

namespace Formulae

/-- The bytes from `start` up to, and without, `stop`. -/
structure Span where
  start : Nat
  stop : Nat
deriving DecidableEq, Repr, Inhabited

namespace Span

/-- The empty span at `offset`. -/
def point (offset : Nat) : Span :=
  ⟨offset, offset⟩

/-- The smallest span that covers both. -/
def merge (left right : Span) : Span :=
  ⟨min left.start right.start, max left.stop right.stop⟩

/-- `inner` lies inside `outer`. -/
def Within (inner outer : Span) : Prop :=
  outer.start ≤ inner.start ∧ inner.stop ≤ outer.stop

theorem within_merge_left (left right : Span) : Within left (left.merge right) := by
  simp only [Within, merge]
  omega

theorem within_merge_right (left right : Span) : Within right (left.merge right) := by
  simp only [Within, merge]
  omega

theorem merge_comm (left right : Span) : left.merge right = right.merge left := by
  simp only [merge, Nat.min_comm, Nat.max_comm]

end Span

end Formulae
