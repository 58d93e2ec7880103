import Formulae.Proofs.Value.Ends

/-!
# Paths of indices

A path of indices leads from a value to one inside it (`Value.Leads`), or stumbles over the first
index that cannot be applied (`Value.Stumbles`).  Writing below a value follows a path to its end:
it replaces what is there and nothing else (`Value.replaced_of_leads`), and fails where the path
stumbles (`Value.update_of_stumbles`).
-/

namespace Formulae.Value

/-! ## Following a path -/

/-- The path leads from the first value to the second one: each index is an integer within the
bounds of the array reached so far. -/
inductive Leads : List Step → Value → Value → Prop
  | here (v : Value) : Leads [] v v
  | element {n : Int64} {span : Span} {rest : List Step} {items : List Value} {item inner : Value}
      (natural : 0 ≤ n.toInt) (found : items[n.toInt.toNat]? = some item)
      (further : Leads rest item inner) : Leads (⟨.int n, span⟩ :: rest) (.array items) inner

/-- The index cannot be applied to the value: there is no array, or no integer, or the array has no
such element. -/
inductive Rejects : Value → Value → EvalFault → Prop
  | noArray {receiver subscript : Value} (isNone : receiver.asArray? = none) :
      Rejects receiver subscript (.binaryMismatch .index receiver.kind subscript.kind)
  | noInteger {items : List Value} {subscript : Value} (isNone : subscript.asInt? = none) :
      Rejects (.array items) subscript (.invalidIndex subscript)
  | outside {items : List Value} {n : Int64} (outside : n.toInt < 0 ∨ items.length ≤ n.toInt) :
      Rejects (.array items) (.int n) (.outOfRange n items.length)

/-- The path leads to a value to which its next index cannot be applied. -/
inductive Stumbles (v : Value) : List Step → EvalError → Prop
  | next {before after : List Step} {step : Step} {reached : Value} {fault : EvalFault}
      (leads : Leads before v reached) (rejects : Rejects reached step.subscript fault) :
      Stumbles v (before ++ step :: after) ⟨fault, step.span⟩

/-- The value that indices, applied one after the other, lead to. -/
def read (v : Value) (path : List Value) : Except EvalFault Value :=
  path.foldlM element v

/-- The indices of a path. -/
def subscripts (path : List Step) : List Value :=
  path.map Step.subscript

section

variable {v inner item : Value} {items : List Value} {path rest : List Step} {step : Step}
  {n : Int64}

@[simp]
theorem read_nil (v : Value) : v.read [] = .ok v :=
  rfl

theorem read_cons (v subscript : Value) (path : List Value) :
    v.read (subscript :: path) = (v.element subscript).bind fun item => item.read path := by
  rw [read, List.foldlM_cons]
  rfl

theorem position_int (natural : 0 ≤ n.toInt) (inside : n.toInt.toNat < items.length) :
    (Value.int n).position items.length = .ok n.toInt.toNat :=
  if_pos ⟨natural, by omega⟩

theorem position_int_of_outside (outside : n.toInt < 0 ∨ items.length ≤ n.toInt) :
    (Value.int n).position items.length = .error (.outOfRange n items.length) :=
  if_neg (by omega)

theorem element_int (natural : 0 ≤ n.toInt) (found : items[n.toInt.toNat]? = some item) :
    (array items).element (.int n) = .ok item := by
  have inside : n.toInt.toNat < items.length := (List.getElem?_eq_some_iff.mp found).1
  rw [element, position_int natural inside]
  exact congrArg Except.ok (by rw [found, Option.getD_some])

/-- An index either gives an element, or it cannot be applied and the fault says why. -/
theorem element_cases (v subscript : Value) :
    (∃ items n item, v = .array items ∧ subscript = .int n ∧ 0 ≤ n.toInt ∧
      items[n.toInt.toNat]? = some item) ∨
      ∃ fault, Rejects v subscript fault := by
  cases v with
  | array items =>
      cases subscript with
      | int n =>
          by_cases inside : 0 ≤ n.toInt ∧ n.toInt < items.length
          · have bound : n.toInt.toNat < items.length := by omega
            exact .inl ⟨items, n, items[n.toInt.toNat], rfl, rfl, inside.1,
              List.getElem?_eq_getElem bound⟩
          · exact .inr ⟨_, .outside (by omega)⟩
      | _ => exact .inr ⟨_, .noInteger rfl⟩
  | _ => exact .inr ⟨_, .noArray rfl⟩

theorem element_of_rejects {receiver subscript : Value} {fault : EvalFault}
    (rejects : Rejects receiver subscript fault) : receiver.element subscript = .error fault := by
  cases rejects with
  | noArray isNone =>
      cases receiver with
      | array items => cases isNone
      | _ => rfl
  | noInteger isNone =>
      cases subscript with
      | int n => cases isNone
      | _ => rfl
  | @outside items n outside =>
      rw [element, position_int_of_outside outside]
      rfl

/-- A path leads to what is read along it. -/
theorem leads_iff_read : Leads path v inner ↔ v.read (subscripts path) = .ok inner := by
  constructor
  · intro leads
    induction leads with
    | here v => rfl
    | element natural found _ inductionHypothesis =>
        rw [subscripts, List.map_cons, read_cons, element_int natural found]
        exact inductionHypothesis
  · intro reads
    induction path generalizing v with
    | nil =>
        cases reads
        exact .here _
    | cons step rest inductionHypothesis =>
        obtain ⟨subscript, span⟩ := step
        rw [subscripts, List.map_cons, read_cons] at reads
        rcases element_cases v subscript with
          ⟨items, n, item, rfl, rfl, natural, found⟩ | ⟨fault, rejects⟩
        · rw [element_int natural found] at reads
          exact .element natural found (inductionHypothesis reads)
        · rw [element_of_rejects rejects] at reads
          cases reads

/-- A path leads to a value, or it stumbles. -/
theorem leads_or_stumbles : ∀ (path : List Step) (v : Value),
    (∃ inner, Leads path v inner) ∨ ∃ e, Stumbles v path e
  | [], v => .inl ⟨v, .here v⟩
  | ⟨subscript, span⟩ :: rest, v => by
      rcases element_cases v subscript with
        ⟨items, n, item, rfl, rfl, natural, found⟩ | ⟨fault, rejects⟩
      · rcases leads_or_stumbles rest item with ⟨inner, further⟩ | ⟨e, further⟩
        · exact .inl ⟨inner, .element natural found further⟩
        · cases further with
          | next leads rejects => exact .inr ⟨_, .next (.element natural found leads) rejects⟩
      · have stumbles : Stumbles v ([] ++ ⟨subscript, span⟩ :: rest) ⟨fault, span⟩ :=
          .next (.here v) rejects
        exact .inr ⟨_, stumbles⟩

end

/-! ## Writing -/

/-- The second value is the first one with `new` at the end of the path: everything beside the
path is as it was, and so are the lengths of the arrays on it. -/
structure Replaced (path : List Step) (new v changed : Value) : Prop where
  there : changed.read (subscripts path) = .ok new
  beside : ∀ other : List Value, ¬ other <+: subscripts path → ¬ subscripts path <+: other →
    changed.read other = v.read other
  lengths : ∀ (before after : List Step) (step : Step), path = before ++ step :: after →
    ∃ items items', v.read (subscripts before) = .ok (.array items) ∧
      changed.read (subscripts before) = .ok (.array items') ∧ items'.length = items.length

section

variable {v inner item item' new : Value} {items : List Value} {path rest : List Step}
  {n : Int64} {span : Span} {store : Value → Except EvalError Value} {e : EvalError}

theorem replaced_here (v new : Value) : Replaced [] new v new where
  there := rfl
  beside _ _ apart := absurd List.nil_prefix apart
  lengths _ _ _ split := by simp at split

/-- Other indices give the elements they gave before. -/
theorem element_set_of_ne (natural : 0 ≤ n.toInt) {subscript : Value}
    (different : subscript ≠ .int n) :
    (array (items.set n.toInt.toNat item)).element subscript = (array items).element subscript := by
  cases subscript with
  | int k =>
      have apart : n.toInt ≠ k.toInt := fun same =>
        different (congrArg Value.int (Int64.toInt_inj.mp same.symm))
      simp only [element, position, List.length_set]
      split
      · have places : n.toInt.toNat ≠ k.toInt.toNat := by omega
        change Except.ok _ = Except.ok _
        rw [List.getElem?_set_ne places]
      · rfl
  | _ => rfl

theorem Replaced.element (natural : 0 ≤ n.toInt) (found : items[n.toInt.toNat]? = some item)
    (replaced : Replaced rest new item item') :
    Replaced (⟨.int n, span⟩ :: rest) new (.array items)
      (.array (items.set n.toInt.toNat item')) := by
  have inside : n.toInt.toNat < items.length := (List.getElem?_eq_some_iff.mp found).1
  have before := element_int natural found
  have after : (array (items.set n.toInt.toNat item')).element (.int n) = .ok item' :=
    element_int natural (by rw [List.getElem?_set_self inside])
  refine ⟨?_, fun other notWithin notPast => ?_, fun first last step split => ?_⟩
  · rw [subscripts, List.map_cons, read_cons, after]
    exact replaced.there
  · cases other with
    | nil => exact absurd List.nil_prefix notWithin
    | cons subscript others =>
        rw [read_cons, read_cons]
        by_cases same : subscript = .int n
        · subst same
          rw [before, after]
          rw [subscripts, List.map_cons, List.cons_prefix_cons] at notWithin notPast
          exact replaced.beside others (fun within => notWithin ⟨rfl, within⟩)
            fun past => notPast ⟨rfl, past⟩
        · rw [element_set_of_ne natural same]
  · cases first with
    | nil => exact ⟨items, _, rfl, rfl, List.length_set⟩
    | cons head others =>
        rw [List.cons_append, List.cons.injEq] at split
        obtain ⟨rfl, split⟩ := split
        rcases replaced.lengths others last step split with ⟨old, old', isOld, isOld', same⟩
        refine ⟨old, old', ?_, ?_, same⟩
        · rw [subscripts, List.map_cons, read_cons, before]
          exact isOld
        · rw [subscripts, List.map_cons, read_cons, after]
          exact isOld'

theorem update_element (natural : 0 ≤ n.toInt) (found : items[n.toInt.toNat]? = some item)
    (store : Value → Except EvalError Value) (span : Span) (rest : List Step) :
    (array items).update store (⟨.int n, span⟩ :: rest) =
      (item.update store rest).bind fun (item', new) =>
        .ok (.array (items.set n.toInt.toNat item'), new) := by
  have inside : n.toInt.toNat < items.length := (List.getElem?_eq_some_iff.mp found).1
  have isItem : items[n.toInt.toNat]?.getD null = item := by rw [found, Option.getD_some]
  rw [update, position_int natural inside, ← isItem]
  rfl

/-- Writing along a path that leads to a value puts what is stored for it in its place. -/
theorem replaced_of_leads {old : Value} (leads : Leads path v old) (stored : store old = .ok new) :
    ∃ changed, v.update store path = .ok (changed, new) ∧ Replaced path new v changed := by
  induction leads with
  | here old =>
      refine ⟨new, ?_, replaced_here old new⟩
      rw [update, stored]
      rfl
  | @element n span rest items item old natural found _ inductionHypothesis =>
      rcases inductionHypothesis stored with ⟨item', updated, replaced⟩
      refine ⟨_, ?_, replaced.element natural found⟩
      rw [update_element natural found, updated]
      rfl

/-- Writing fails as it does in the value that a part of the path leads to. -/
theorem update_append_of_error {reached : Value} (leads : Leads path v reached)
    (fails : reached.update store rest = .error e) : v.update store (path ++ rest) = .error e := by
  induction leads with
  | here reached => exact fails
  | element natural found _ inductionHypothesis =>
      rw [List.cons_append, update_element natural found, inductionHypothesis fails]
      rfl

/-- If nothing can be stored at the end of the path, the reason is the outcome. -/
theorem update_of_error {old : Value} (leads : Leads path v old) (refused : store old = .error e) :
    v.update store path = .error e := by
  have fails : old.update store [] = .error e := by
    rw [update, refused]
    rfl
  rw [← List.append_nil path]
  exact update_append_of_error leads fails

/-- Writing fails at the first index that cannot be applied. -/
theorem update_of_stumbles (stumbles : Stumbles v path e) : v.update store path = .error e := by
  cases stumbles with
  | @next before after step reached fault leads rejects =>
      apply update_append_of_error leads
      obtain ⟨subscript, span⟩ := step
      cases rejects with
      | noArray isNone =>
          cases reached with
          | array items => cases isNone
          | _ => rfl
      | noInteger isNone =>
          cases subscript with
          | int n => cases isNone
          | _ => rfl
      | @outside items n outside =>
          rw [update, position_int_of_outside outside]
          rfl

end

end Formulae.Value
