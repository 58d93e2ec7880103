/-!
# Numbered texts

An interner numbers texts in the order in which they are first met.  The
empty text has number zero from the start.  It keeps a row of the texts and a
table of their numbers, and the two always say the same.  The two main facts are
that a number once given keeps its text (`lookup_intern_of_lt`) and that a text is
found exactly under the number it was given (`lookup_intern`).
-/

namespace Formulae

/-- The number of an interned text. -/
@[ext]
structure Name where
  index : Nat
deriving DecidableEq, Repr, Inhabited

namespace Name

/-- A name is shown by its number. -/
def debug (name : Name) : String :=
  "Name#" ++ toString name.index

end Name

/-- The texts met so far, in the order of their numbers, and the number of each of
them, those given last first. -/
structure Interner where
  texts : Array String
  numbers : List (String × Name)
  linked : ∀ text name, numbers.lookup text = some name ↔ texts[name.index]? = some text
  empty_first : texts[0]? = some ""

/-- No number is left for another text. -/
inductive InternError
  | overflow (count : Nat)
deriving DecidableEq, Repr

namespace Interner

/-- The largest number of texts: numbers have 32 bits. -/
def capacity : Nat :=
  0xffffffff

theorem lookup_numbers_cons (numbers : List (String × Name)) (text other : String) (name : Name) :
    ((text, name) :: numbers).lookup other
      = if other = text then some name else numbers.lookup other := by
  rw [List.lookup_cons]
  by_cases same : other = text
  · simp [same]
  · rw [if_neg same, beq_eq_false_iff_ne.mpr same]

/-- Only the empty text has a number. -/
def empty : Interner where
  texts := #[""]
  numbers := [("", ⟨0⟩)]
  linked text name := by
    rw [lookup_numbers_cons]
    obtain ⟨index⟩ := name
    cases index <;> simp [eq_comm]
  empty_first := rfl

instance : Inhabited Interner :=
  ⟨empty⟩

/-- How many texts have a number. -/
def size (names : Interner) : Nat :=
  names.texts.size

/-- The number of a text, if it has one. -/
def get? (names : Interner) (text : String) : Option Name :=
  names.numbers.lookup text

/-- The text with this number; a number that was never given has the empty text. -/
def lookup (names : Interner) (name : Name) : String :=
  names.texts[name.index]?.getD ""

/-- The number of a text; a text without one has the number of the empty text. -/
def number (names : Interner) (text : String) : Name :=
  (names.get? text).getD ⟨0⟩

theorem get?_eq_some_iff {names : Interner} {text : String} {name : Name} :
    names.get? text = some name ↔ names.texts[name.index]? = some text :=
  names.linked text name

theorem size_pos (names : Interner) : 0 < names.size :=
  (Array.getElem?_eq_some_iff.mp names.empty_first).1

/-- A text that had no number and the next number say the same in both tables. -/
theorem linked_push {names : Interner} {text : String} (unknown : names.get? text = none)
    (other : String) (name : Name) :
    ((text, ⟨names.size⟩) :: names.numbers).lookup other = some name
      ↔ (names.texts.push text)[name.index]? = some other := by
  rw [lookup_numbers_cons, Array.getElem?_push]
  by_cases same : other = text
  · -- The text stood nowhere in the row, so only its new place is left.
    have notBefore : names.texts[name.index]? ≠ some text := fun found => by
      rw [get?_eq_some_iff.mpr found] at unknown
      cases unknown
    rw [if_pos same, Option.some.injEq, same]
    by_cases isLast : name.index = names.texts.size
    · simp [isLast, size, Name.ext_iff]
    · simp [isLast, notBefore, size, Name.ext_iff, Ne.symm isLast]
  · rw [if_neg same]
    by_cases isLast : name.index = names.texts.size
    · -- The new number was given to no text before.
      have notBefore : names.numbers.lookup other ≠ some name := fun found => by
        have inside := Array.getElem?_eq_some_iff.mp ((names.linked other name).mp found)
        exact Nat.ne_of_lt inside.1 isLast
      simp [isLast, notBefore, Ne.symm same]
    · rw [if_neg isLast]
      exact names.linked other name

theorem getElem?_push_of_lt {names : Interner} (text : String) {index : Nat}
    (old : index < names.size) : (names.texts.push text)[index]? = names.texts[index]? := by
  have before : index ≠ names.texts.size := Nat.ne_of_lt old
  rw [Array.getElem?_push, if_neg before]

/-- A text without a number gets the next one. -/
def add (names : Interner) (text : String) (unknown : names.get? text = none) : Interner where
  texts := names.texts.push text
  numbers := (text, ⟨names.size⟩) :: names.numbers
  linked := linked_push unknown
  empty_first := by rw [getElem?_push_of_lt text names.size_pos, names.empty_first]

/-- The number of a text, given now if the text had none. -/
def intern (names : Interner) (text : String) : Name × Interner :=
  match known : names.get? text with
  | some name => (name, names)
  | none => (⟨names.size⟩, names.add text known)

/-- As `intern`, but refuses a new text once all numbers are given. -/
def tryIntern (names : Interner) (text : String) : Except InternError (Name × Interner) :=
  if (names.get? text).isSome ∨ names.size ≤ capacity then
    .ok (names.intern text)
  else
    .error (.overflow names.size)

/-- Number several texts in turn. -/
def internAll (names : Interner) (texts : List String) : Interner :=
  texts.foldl (fun table text => (table.intern text).2) names

/-- A short account of the table. -/
def debug (names : Interner) : String :=
  "StringInterner \x7b len: " ++ toString names.size ++ " \x7d"

/-! ## What interning keeps -/

theorem intern_of_get? {names : Interner} {text : String} {name : Name}
    (known : names.get? text = some name) : names.intern text = (name, names) := by
  unfold intern
  split
  · next found => rw [Option.some.inj (found.symm.trans known)]
  · next unknown => rw [known] at unknown; cases unknown

theorem intern_of_unknown {names : Interner} {text : String}
    (unknown : names.get? text = none) :
    names.intern text = (⟨names.size⟩, names.add text unknown) := by
  unfold intern
  split
  · next known => rw [unknown] at known; cases known
  · rfl

theorem lookup_of_get? {names : Interner} {text : String} {name : Name}
    (known : names.get? text = some name) : names.lookup name = text := by
  rw [lookup, get?_eq_some_iff.mp known, Option.getD_some]

theorem lookup_intern (names : Interner) (text : String) :
    (names.intern text).2.lookup (names.intern text).1 = text := by
  cases known : names.get? text with
  | some name =>
      rw [intern_of_get? known]
      exact lookup_of_get? known
  | none =>
      rw [intern_of_unknown known]
      simp [lookup, add, size]

theorem lookup_intern_of_lt (names : Interner) (text : String) {name : Name}
    (h : name.index < names.size) :
    (names.intern text).2.lookup name = names.lookup name := by
  cases known : names.get? text with
  | some name => rw [intern_of_get? known]
  | none =>
      rw [intern_of_unknown known]
      simp only [lookup, add]
      rw [getElem?_push_of_lt text h]

end Interner

namespace InternError

/-- The text shown to the user. -/
def message : InternError → String
  | .overflow count =>
      "string interner exceeded capacity: " ++ toString count ++ " strings, max is "
        ++ toString Interner.capacity

end InternError

end Formulae
