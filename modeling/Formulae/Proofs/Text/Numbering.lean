import Formulae.Text.Interner
import Mathlib.Data.List.Nodup

/-!
# Calls on an interner

After any calls on a new interner its row holds the empty text and then every other text that was
interned, in the order of first interning (`run_of_order`).  So the numbers that the calls give
and the texts stand for one another, and what was given stays (`numbers_run`).
-/

namespace Formulae.Interner

/-! ## Calls -/

/-- A call on an interner: number a text, or only ask for its number. -/
inductive Call
  | intern (text : String)
  | get (text : String)

namespace Call

/-- The text that the call is about. -/
def text : Call → String
  | .intern text | .get text => text

/-- The text that the call numbers, if it numbers one. -/
def interned? : Call → Option String
  | .intern text => some text
  | .get _ => none

end Call

/-- The texts that calls number, in turn. -/
def interned (calls : List Call) : List String :=
  calls.filterMap Call.interned?

theorem interned_cons (call : Call) (rest : List Call) :
    interned (call :: rest) = call.interned?.toList ++ interned rest := by
  rw [interned, List.filterMap_cons]
  cases call.interned? <;> rfl

theorem interned_append (calls later : List Call) :
    interned (calls ++ later) = interned calls ++ interned later :=
  List.filterMap_append

/-- The answer to one call, and the interner after it. -/
def step (names : Interner) : Call → Except InternError (Option Name × Interner)
  | .intern text => (names.tryIntern text).map fun (name, names) => (some name, names)
  | .get text => .ok (names.get? text, names)

/-- The answers to calls, and the interner after them. -/
def run (names : Interner) : List Call → Except InternError (List (Option Name) × Interner)
  | [] => .ok ([], names)
  | call :: rest => do
      let (answer, names) ← names.step call
      let (answers, names) ← names.run rest
      return (answer :: answers, names)

section

variable {names names' : Interner} {calls later : List Call} {answers answers' : List (Option Name)}

theorem run_cons_eq_ok_iff {call : Call} :
    names.run (call :: calls) = .ok (answers, names') ↔
      ∃ answer names₁ others, names.step call = .ok (answer, names₁) ∧
        names₁.run calls = .ok (others, names') ∧ answers = answer :: others := by
  rw [run]
  cases first : names.step call with
  | error error => simp [bind, Except.bind]
  | ok found =>
      obtain ⟨answer, names₁⟩ := found
      cases second : names₁.run calls with
      | error error => simp [bind, Except.bind, second]
      | ok found =>
          obtain ⟨others, names₂⟩ := found
          simp [bind, Except.bind, pure, Except.pure, second, and_comm, eq_comm]

/-- Calls that come later are answered by the interner that the first ones leave. -/
theorem run_append {names₁ : Interner} (first : names.run calls = .ok (answers, names₁))
    (others : names₁.run later = .ok (answers', names')) :
    names.run (calls ++ later) = .ok (answers ++ answers', names') := by
  induction calls generalizing names answers with
  | nil =>
      cases first
      exact others
  | cons call rest inductionHypothesis =>
      rcases run_cons_eq_ok_iff.mp first with ⟨answer, names₂, answers₂, step, run, rfl⟩
      exact run_cons_eq_ok_iff.mpr ⟨answer, names₂, _, step, inductionHypothesis run, rfl⟩

end

variable {names : Interner} {past texts more : List String} {text : String}

/-! ## The order of first interning -/

/-- The empty text, and then the other texts in the order in which each of them comes first. -/
def order (texts : List String) : List String :=
  ("" :: texts).eraseDups

theorem mem_order : text ∈ order texts ↔ text = "" ∨ text ∈ texts := by
  rw [order, List.mem_eraseDups, List.mem_cons]

theorem order_append (texts more : List String) :
    order (texts ++ more) = order texts ++ (more.removeAll ("" :: texts)).eraseDups := by
  rw [order, ← List.cons_append, List.eraseDups_append]
  rfl

theorem order_concat (texts : List String) (text : String) :
    order (texts ++ [text])
      = if text ∈ order texts then order texts else order texts ++ [text] := by
  rw [order_append, List.cons_removeAll]
  by_cases known : text ∈ order texts
  · have member : text ∈ "" :: texts := List.mem_cons.mpr (mem_order.mp known)
    simp [known, member]
  · have notMember : text ∉ "" :: texts := fun member =>
      known (mem_order.mpr (List.mem_cons.mp member))
    simp [known, notMember, List.eraseDups_cons]

theorem order_isPrefixOf_append (texts more : List String) :
    order texts <+: order (texts ++ more) :=
  ⟨_, (order_append texts more).symm⟩

/-- Behind the empty text stand the others. -/
theorem order_eq_cons (texts : List String) :
    order texts = "" :: (texts.filter (· != "")).eraseDups := by
  rw [order, List.eraseDups_cons]
  rfl

theorem nodup_eraseDups : (texts : List String) → texts.eraseDups.Nodup
  | [] => by simp
  | first :: rest => by
      rw [List.eraseDups_cons, List.nodup_cons]
      exact ⟨by simp, nodup_eraseDups (rest.filter fun other => !other == first)⟩
termination_by texts => texts.length
decreasing_by exact Nat.lt_succ_of_le (List.length_filter_le ..)

theorem length_order (texts : List String) :
    (order texts).length = texts.eraseDups.length + if "" ∈ texts then 0 else 1 := by
  by_cases hasEmpty : "" ∈ texts
  · have same : (order texts).Perm texts.eraseDups := by
      refine (List.perm_ext_iff_of_nodup (nodup_eraseDups _) (nodup_eraseDups _)).mpr fun text => ?_
      change text ∈ order texts ↔ text ∈ texts.eraseDups
      rw [mem_order, List.mem_eraseDups]
      exact or_iff_right_of_imp fun isEmpty => isEmpty ▸ hasEmpty
    simp [hasEmpty, same.length_eq]
  · have unfiltered : texts.filter (· != "") = texts :=
      List.filter_eq_self.mpr fun text member => by
        simpa using fun isEmpty : text = "" => hasEmpty (isEmpty ▸ member)
    simp [order_eq_cons, unfiltered, hasEmpty]

/-- The number of a text once these texts were interned. -/
def numberIn (texts : List String) (text : String) : Name :=
  ⟨(order texts).idxOf text⟩

/-- A text that has a number keeps it when more texts are interned. -/
theorem numberIn_append (member : text ∈ order texts) (more : List String) :
    numberIn (texts ++ more) text = numberIn texts text := by
  rw [numberIn, order_append, List.idxOf_append_of_mem member, numberIn]

/-! ## Interners that hold the texts in order -/

theorem getElem?_texts_numberIn (holds : names.texts.toList = order past)
    (member : text ∈ order past) : names.texts[(numberIn past text).index]? = some text := by
  rw [← Array.getElem?_toList, holds]
  exact List.getElem?_idxOf member

theorem get?_of_order (holds : names.texts.toList = order past) (text : String) :
    names.get? text = if text = "" ∨ text ∈ past then some (numberIn past text) else none := by
  by_cases known : text ∈ order past
  · rw [if_pos (mem_order.mp known)]
    exact get?_eq_some_iff.mpr (getElem?_texts_numberIn holds known)
  · rw [if_neg fun member => known (mem_order.mpr member)]
    refine Option.eq_none_iff_forall_ne_some.mpr fun name found => known ?_
    rw [get?_eq_some_iff, ← Array.getElem?_toList, holds] at found
    exact List.mem_of_getElem? found

theorem size_of_order (holds : names.texts.toList = order past) :
    names.size = (order past).length := by
  rw [size, ← Array.length_toList, holds]

/-- While there is room a text is numbered by its place in the order of first interning. -/
theorem tryIntern_of_order (holds : names.texts.toList = order past) (text : String)
    (room : (order (past ++ [text])).length ≤ 0x100000000) :
    ∃ names', names.tryIntern text = .ok (numberIn (past ++ [text]) text, names') ∧
      names'.texts.toList = order (past ++ [text]) := by
  have found := get?_of_order holds text
  rw [order_concat] at room
  by_cases known : text ∈ order past
  · rw [if_pos (mem_order.mp known)] at found
    refine ⟨names, ?_, by rw [order_concat, if_pos known, holds]⟩
    rw [tryIntern, if_pos (.inl (by rw [found]; rfl)), intern_of_get? found,
      numberIn_append known]
  · rw [if_neg fun member => known (mem_order.mpr member)] at found
    rw [if_neg known, List.length_append, List.length_singleton, ← size_of_order holds] at room
    have small : names.size ≤ capacity := Nat.le_of_lt_succ room
    refine ⟨names.add text found, ?_, by rw [order_concat, if_neg known, ← holds]; simp [add]⟩
    rw [tryIntern, if_pos (.inr small), intern_of_unknown found, numberIn, order_concat,
      if_neg known, List.idxOf_append_of_notMem known, List.idxOf_cons_self, size_of_order holds]
    rfl

/-! ## Runs -/

/-- The answer to a call after `past` was interned, of the texts of a whole run. -/
def Call.answer (past texts : List String) : Call → Option Name
  | .intern text => some (numberIn texts text)
  | .get text => if text = "" ∨ text ∈ past then some (numberIn texts text) else none

/-- The answers to calls after `past` was interned, of the texts of a whole run. -/
def answersTo (past texts : List String) : List Call → List (Option Name)
  | [] => []
  | call :: rest => call.answer past texts :: answersTo (past ++ call.interned?.toList) texts rest

theorem length_answersTo (past texts : List String) (calls : List Call) :
    (answersTo past texts calls).length = calls.length := by
  induction calls generalizing past with
  | nil => rfl
  | cons call rest inductionHypothesis =>
      rw [answersTo, List.length_cons, inductionHypothesis, List.length_cons]

theorem getElem?_answersTo (past texts : List String) (calls : List Call) (i : Nat) :
    (answersTo past texts calls)[i]?
      = calls[i]?.map (Call.answer (past ++ interned (calls.take i)) texts) := by
  induction calls generalizing past i with
  | nil => rfl
  | cons call rest inductionHypothesis =>
      cases i with
      | zero => simp [answersTo, interned]
      | succ i =>
          rw [answersTo, List.getElem?_cons_succ, inductionHypothesis, List.getElem?_cons_succ,
            List.take_succ_cons, interned_cons, List.append_assoc]

/-- One call gives its answer and keeps the order. -/
theorem step_of_order (holds : names.texts.toList = order past) (call : Call) (more : List String)
    (room : (order (past ++ (call.interned?.toList ++ more))).length ≤ 0x100000000) :
    ∃ names', names.step call
        = .ok (call.answer past (past ++ (call.interned?.toList ++ more)), names') ∧
      names'.texts.toList = order (past ++ call.interned?.toList) := by
  cases call with
  | intern text =>
      rw [Call.interned?, Option.toList_some, ← List.append_assoc] at room ⊢
      have grown := (order_isPrefixOf_append (past ++ [text]) more).length_le
      rcases tryIntern_of_order holds text (Nat.le_trans grown room) with ⟨names', interns, holds'⟩
      have member : text ∈ order (past ++ [text]) := mem_order.mpr (.inr (by simp))
      refine ⟨names', ?_, holds'⟩
      rw [step, interns, Call.answer, numberIn_append member]
      rfl
  | get text =>
      rw [Call.interned?, Option.toList_none, List.nil_append, List.append_nil]
      refine ⟨names, ?_, holds⟩
      rw [step, get?_of_order holds, Call.answer]
      by_cases known : text = "" ∨ text ∈ past
      · rw [if_pos known, if_pos known, numberIn_append (mem_order.mpr known)]
      · rw [if_neg known, if_neg known]

/-- While there is room a run gives the answers and keeps the order.  The induction is on the
calls that are still ahead; `past` are the texts interned before them. -/
theorem run_of_order (holds : names.texts.toList = order past) (calls : List Call)
    (room : (order (past ++ interned calls)).length ≤ 0x100000000) :
    ∃ names', names.run calls = .ok (answersTo past (past ++ interned calls) calls, names') ∧
      names'.texts.toList = order (past ++ interned calls) := by
  induction calls generalizing names past with
  | nil => exact ⟨names, rfl, by rw [holds, interned, List.filterMap_nil, List.append_nil]⟩
  | cons call rest inductionHypothesis =>
      rw [interned_cons] at room ⊢
      rcases step_of_order holds call (interned rest) room with ⟨names₁, first, holds₁⟩
      rw [← List.append_assoc] at room first ⊢
      rcases inductionHypothesis holds₁ room with ⟨names₂, others, holds₂⟩
      exact ⟨names₂, run_cons_eq_ok_iff.mpr ⟨_, names₁, _, first, others, rfl⟩, holds₂⟩

/-! ## What the numbers say -/

/-- Some call about the text was answered by the number. -/
def Gave (calls : List Call) (answers : List (Option Name)) (text : String) (name : Name) : Prop :=
  ∃ (i : Nat) (call : Call),
    calls[i]? = some call ∧ call.text = text ∧ answers[i]? = some (some name)

/-- What is known of the answers to calls on a new interner and of the interner that they leave. -/
structure Numbers (calls : List Call) (answers : List (Option Name)) (names : Interner) : Prop where
  answered : answers.length = calls.length
  /-- Interning always gives a number. -/
  gives : ∀ (i : Nat) text, calls[i]? = some (.intern text) → ∃ name, answers[i]? = some (some name)
  /-- Asking finds the empty text and those interned before. -/
  finds : ∀ (i : Nat) text, calls[i]? = some (.get text) →
    ((∃ name, answers[i]? = some (some name)) ↔ text = "" ∨ text ∈ interned (calls.take i))
  /-- A number that was given has the text it was given for. -/
  keeps : ∀ text name, Gave calls answers text name → names.lookup name = text
  /-- Two texts have one number just when they are the same. -/
  apart : ∀ text text' name name', Gave calls answers text name → Gave calls answers text' name' →
    (name = name' ↔ text = text')
  /-- Number zero belongs to the empty text. -/
  zero : names.lookup ⟨0⟩ = "" ∧ ∀ name, Gave calls answers "" name → name = ⟨0⟩
  /-- The other texts have the numbers from one on, in the order of first interning. -/
  inOrder : ∀ (k : Nat) text name, ((interned calls).filter (· != "")).eraseDups[k]? = some text →
    Gave calls answers text name → name = ⟨k + 1⟩
  /-- Every text counts once, the empty one also if it was never interned. -/
  size : names.size = (interned calls).eraseDups.length + if "" ∈ interned calls then 0 else 1
  /-- Finding a number and looking up a text are inverse to one another. -/
  inverse : ∀ text name,
    names.get? text = some name ↔ name.index < names.size ∧ names.lookup name = text

theorem get?_eq_some_iff_lookup {name : Name} :
    names.get? text = some name ↔ name.index < names.size ∧ names.lookup name = text := by
  rw [get?_eq_some_iff, Array.getElem?_eq_some_iff, lookup]
  constructor
  · rintro ⟨inside, found⟩
    exact ⟨inside, by rw [Array.getElem?_eq_getElem inside, Option.getD_some, found]⟩
  · rintro ⟨inside, found⟩
    rw [Array.getElem?_eq_getElem inside, Option.getD_some] at found
    exact ⟨inside, found⟩

/-- A number that was given is the place of its text in the order of first interning. -/
theorem eq_numberIn_of_gave {calls : List Call} {name : Name}
    (gave : Gave calls (answersTo [] (interned calls) calls) text name) :
    text ∈ order (interned calls) ∧ name = numberIn (interned calls) text := by
  rcases gave with ⟨i, call, isCall, rfl, answer⟩
  rw [getElem?_answersTo, isCall, Option.map_some, List.nil_append, Option.some.injEq] at answer
  have earlier : ∀ other ∈ interned (calls.take i), other ∈ interned calls := fun other member =>
    ((List.take_sublist i calls).filterMap _).subset member
  cases call with
  | intern text =>
      cases answer
      refine ⟨mem_order.mpr (.inr ?_), rfl⟩
      exact List.mem_filterMap.mpr ⟨.intern text, List.mem_of_getElem? isCall, rfl⟩
  | get text =>
      rw [Call.answer] at answer
      split at answer
      · next known =>
          cases answer
          exact ⟨mem_order.mpr (known.imp_right (earlier text)), rfl⟩
      · cases answer

theorem numbers_of_order {calls : List Call} (holds : names.texts.toList = order (interned calls)) :
    Numbers calls (answersTo [] (interned calls) calls) names where
  answered := length_answersTo _ _ _
  gives i text isCall := ⟨_, by rw [getElem?_answersTo, isCall]; rfl⟩
  finds i text isCall := by
    rw [getElem?_answersTo, isCall, Option.map_some, List.nil_append, Call.answer]
    by_cases known : text = "" ∨ text ∈ interned (calls.take i)
    · simp [known]
    · simp [known]
  keeps text name gave := by
    rcases eq_numberIn_of_gave gave with ⟨member, rfl⟩
    rw [lookup, getElem?_texts_numberIn holds member, Option.getD_some]
  apart text text' name name' gave gave' := by
    rcases eq_numberIn_of_gave gave with ⟨member, rfl⟩
    rcases eq_numberIn_of_gave gave' with ⟨member', rfl⟩
    refine ⟨fun same => ?_, fun same => same ▸ rfl⟩
    have found := getElem?_texts_numberIn holds member
    rw [same, getElem?_texts_numberIn holds member'] at found
    exact (Option.some.inj found).symm
  zero := by
    refine ⟨by rw [lookup, names.empty_first, Option.getD_some], fun name gave => ?_⟩
    rw [(eq_numberIn_of_gave gave).2, numberIn, order_eq_cons, List.idxOf_cons_self]
  inOrder k text name isNext gave := by
    rw [(eq_numberIn_of_gave gave).2, numberIn, Name.mk.injEq]
    have inRow : (order (interned calls))[k + 1]? = some text := by
      rw [order_eq_cons, List.getElem?_cons_succ, isNext]
    rcases List.getElem?_eq_some_iff.mp inRow with ⟨inside, rfl⟩
    exact (nodup_eraseDups _).idxOf_getElem _ inside
  size := by rw [size_of_order holds, length_order]
  inverse _ _ := get?_eq_some_iff_lookup

/-- After any calls on a new interner, with fewer than 2^32 different texts, every text stands for
one number and every number for one text, given in the order of first interning; whatever calls
come later, the numbers that were given keep their texts. -/
theorem numbers_run (calls later : List Call)
    (few : (interned (calls ++ later)).eraseDups.length < 0x100000000) :
    ∃ answers names answers' names',
      empty.run calls = .ok (answers, names) ∧ Numbers calls answers names ∧
      names.run later = .ok (answers', names') ∧
      Numbers (calls ++ later) (answers ++ answers') names' ∧
      ∀ name, name.index < names.size → names'.lookup name = names.lookup name := by
  have grown := (order_isPrefixOf_append (interned calls) (interned later)).length_le
  rw [interned_append] at few
  have room : (order (interned calls ++ interned later)).length ≤ 0x100000000 := by
    rw [length_order]
    split <;> omega
  have new : empty.texts.toList = order [] := rfl
  rcases run_of_order new calls (Nat.le_trans grown room) with ⟨names, first, holds⟩
  rcases run_of_order holds later room with ⟨names', second, holds'⟩
  have whole := run_append first second
  rcases run_of_order new (calls ++ later) (by rwa [interned_append]) with ⟨names₂, run, -⟩
  have answers := (Prod.mk.inj (Except.ok.inj (run.symm.trans whole))).1
  refine ⟨_, names, _, names', first, numbers_of_order holds, second, ?_, fun name old => ?_⟩
  · rw [← answers]
    exact numbers_of_order (by rw [interned_append]; exact holds')
  · rw [lookup, lookup, ← Array.getElem?_toList, ← Array.getElem?_toList, holds, holds']
    rw [size_of_order holds] at old
    rw [order_append, List.getElem?_append_left old]

/-- Two texts, one of which is asked for too early, and then both of them and the empty text. -/
theorem numbers_run_asking : ∃ names names',
    empty.run [.intern "alpha", .get "beta", .intern "beta"]
        = .ok ([some ⟨1⟩, none, some ⟨2⟩], names) ∧
      Numbers [.intern "alpha", .get "beta", .intern "beta"] [some ⟨1⟩, none, some ⟨2⟩] names ∧
      names.run [.intern "alpha", .get "beta", .get ""]
        = .ok ([some ⟨1⟩, some ⟨2⟩, some ⟨0⟩], names') ∧
      ∀ name, name.index < names.size → names'.lookup name = names.lookup name := by
  rcases numbers_run [.intern "alpha", .get "beta", .intern "beta"]
    [.intern "alpha", .get "beta", .get ""] (by decide) with
    ⟨answers, names, answers', names', first, numbers, second, -, kept⟩
  have both : ((empty.run [.intern "alpha", .get "beta", .intern "beta"]).toOption.bind
      fun (answers, names) => (names.run [.intern "alpha", .get "beta", .get ""]).toOption.map
        fun (answers', _) => (answers, answers'))
      = some ([some ⟨1⟩, none, some ⟨2⟩], [some ⟨1⟩, some ⟨2⟩, some ⟨0⟩]) := by decide +kernel
  rw [first] at both
  simp only [Except.toOption, Option.bind_some, second, Option.map_some, Option.some.injEq,
    Prod.mk.injEq] at both
  rcases both with ⟨rfl, rfl⟩
  exact ⟨names, names', first, numbers, second, kept⟩

end Formulae.Interner
