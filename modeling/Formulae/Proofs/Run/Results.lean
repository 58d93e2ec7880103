import Formulae.Proofs.Run.Voiced

/-!
# What the type of a result says

The type of the result of a checked formula is that of all expressions whose value the formula
may give.  If it is void, then there is no value.  If it is not, then there is one as long as
the formula is conclusive (`Program.results_of_check`); the type alone does not tell, as a
formula that returns a value on some ways only has none on the others
(`Program.voids_of_check`).
-/

namespace Formulae

/-- The type is that of the result, or the results have different types. -/
def Program.Allows (q : TypedProgram) (type : Ty) : Prop :=
  q.resultType = Ty.mixed ∨ type.equals q.resultType

/-- The value comes from an expression that is allowed by the type of the result, or from a
`return` without a value that is allowed too; or else there is none as the end is reached. -/
inductive Program.Results (s : Setting Ty) (q : TypedProgram) : Value → Prop
  | returned {e : TypedExpr} {v : Value} (member : some e ∈ Stmt.returnedAll q.body)
      (hasValue : e.HasValue) (allowed : q.Allows e.label) (yields : e.Yields s v)
      (given : v ≠ .void) : Results s q v
  | tail {e : TypedExpr} {v : Value} (isTail : q.tail = some e) (allowed : q.Allows e.label)
      (yields : e.Yields s v) (given : v = .void ↔ e.label.isVoid) : Results s q v
  | empty (member : none ∈ Stmt.returnedAll q.body) (allowed : q.Allows Ty.void) :
      Results s q .void
  | nothing (noTail : q.tail = none) (falls : Stmt.someReturns q.body = false) :
      Results s q .void

/-- The end is not reached without a last expression, and if the results have different types,
then all of them have values. -/
structure Program.Conclusive (q : TypedProgram) : Prop where
  ends : q.tail.isSome ∨ Stmt.someReturns q.body
  valued : q.resultType.isMixed → none ∉ Stmt.returnedAll q.body ∧ ∀ e ∈ q.tail, e.HasValue

theorem Ty.isVoid_of_equals {a b : Ty} (same : a.equals b) : a.isVoid = b.isVoid := by
  cases a with
  | basic type =>
      cases b with
      | basic type' => cases type <;> cases type' <;> first | rfl | cases same
      | _ => cases same
  | _ => cases b <;> first | rfl | cases same

namespace Program

theorem equals_joinResults {types : List Ty} {type : Ty} (member : type ∈ types) :
    joinResults types = Ty.mixed ∨ type.equals (joinResults types) := by
  cases types with
  | nil => cases member
  | cons first rest =>
      rw [joinResults]
      by_cases same : rest.all fun type => type.equals first
      · right
        rw [if_pos same, Ty.equals_withFinal_right]
        rcases List.mem_cons.mp member with rfl | later
        · exact Ty.equals_refl type
        · exact List.all_eq_true.mp same type later
      · exact .inl (if_neg same)

variable {q : TypedProgram}

theorem allows_returned {value : Option TypedExpr} (member : value ∈ Stmt.returnedAll q.body) :
    q.Allows ((value.map Expr.label).getD Ty.void) := by
  apply equals_joinResults
  rw [Stmt.resultsAll_eq]
  exact List.mem_append_left _ (List.mem_map_of_mem member)

theorem allows_tail {e : TypedExpr} (isTail : q.tail = some e) : q.Allows e.label := by
  apply equals_joinResults
  rw [isTail]
  exact List.mem_append_right _ List.mem_cons_self

/-- If there is a type of the result that is not mixed, then all results agree on whether there
is a value. -/
theorem Allows.isVoid {type : Ty} (allows : q.Allows type) (single : q.resultType.isMixed = false) :
    type.isVoid = q.resultType.isVoid := by
  rcases allows with isMixed | same
  · rw [isMixed] at single
    cases single
  · exact Ty.isVoid_of_equals same

variable {s : Setting Ty} {v : Value}

/-- A formula with a result of type void has no value. -/
theorem Results.eq_void (results : q.Results s v) (isVoid : q.resultType.isVoid) : v = .void := by
  have single : q.resultType.isMixed = false := by
    cases type : q.resultType with
    | basic a => rw [type] at isVoid; cases a <;> first | rfl | cases isVoid
    | _ => rfl
  cases results with
  | returned member hasValue allowed yields given =>
      rw [Expr.HasValue, allowed.isVoid single, isVoid] at hasValue
      cases hasValue
  | tail isTail allowed yields given =>
      exact given.mpr ((allowed.isVoid single).trans isVoid)
  | empty _ _ | nothing _ _ => rfl

/-- A conclusive formula with another result has one. -/
theorem Results.ne_void (results : q.Results s v) (notVoid : q.resultType.isVoid = false)
    (conclusive : q.Conclusive) : v ≠ .void := by
  cases results with
  | returned _ _ _ _ given => exact given
  | tail isTail allowed _ given =>
      intro isNothing
      have tailVoid := given.mp isNothing
      cases single : q.resultType.isMixed with
      | false =>
          rw [allowed.isVoid single, notVoid] at tailVoid
          cases tailVoid
      | true =>
          have hasValue := (conclusive.valued single).2 _ isTail
          rw [Expr.HasValue, tailVoid] at hasValue
          cases hasValue
  | empty member allowed =>
      cases single : q.resultType.isMixed with
      | false =>
          rw [← allowed.isVoid single] at notVoid
          cases notVoid
      | true => exact absurd member (conclusive.valued single).1
  | nothing noTail falls =>
      have ends := conclusive.ends
      rw [noTail, falls] at ends
      cases ends <;> contradiction

theorem ComesTo.results {r : Roster} (comesTo : q.ComesTo s r v)
    (valued : ∀ e : TypedExpr, some e ∈ Stmt.returnedAll q.body → e.HasValue)
    (tailSilent : ∀ e, q.tail = some e → e.label.isVoid = e.isSilent r.silent) :
    q.Results s v := by
  cases comesTo with
  | returned returned =>
      cases returned with
      | nothing member => exact .empty member (allows_returned member)
      | value member yields voiced =>
          exact .returned member (valued _ member) (allows_returned member) yields voiced.ne_void
  | @tail e _ isTail falls yields given =>
      refine .tail isTail (allows_tail isTail) yields ?_
      rw [tailSilent e isTail]
      rw [Value.Given] at given
      cases silent : e.isSilent r.silent with
      | false =>
          rw [silent] at given
          exact iff_of_false (Value.Voiced.ne_void given) nofun
      | true =>
          rw [silent] at given
          exact iff_of_true given rfl
  | nothing noTail falls => exact .nothing noTail falls

end Program

/-! ## What is bound from outside -/

namespace Value

/-- Neither void, nor a function declared in a formula, nor a silent one, nor one that is not
known. -/
def Plain (known : HostFunction → Prop) : Value → Prop
  | .void | .function (.declared _) => False
  | .function (.host f) => known f ∧ f.signature.ret.isVoid = false
  | _ => True

theorem Plain.voice {known : HostFunction → Prop} {part : Value} (plain : part.Plain known)
    {α : Type} {s : Setting α} {r : Roster} (isKnown : ∀ f, known f → r.hosts f) :
    part ≠ .void ∧ ∀ f, part = .function f → f.Gives s r true := by
  constructor
  · rintro rfl
    exact plain
  · rintro f rfl
    cases f with
    | declared f => exact plain.elim
    | builtin f => rfl
    | host f => exact ⟨isKnown f plain.1, plain.2⟩

end Value

/-- The known functions give no value exactly if their signatures say so.  Any other result is
made of plain values and of parts of the arguments. -/
def Hosts.Exact (known : HostFunction → Prop) (hosts : Hosts) : Prop :=
  ∀ f, known f → ∀ args v, hosts f.handle args = .ok v →
    if f.signature.ret.isVoid then v = .void
    else v.Every fun part => part.Plain known ∨ ∃ arg ∈ args, part ∈ arg.parts

/-- The names of silent functions are bound to silent functions, and all other names to plain
values. -/
def Machine.BindsExactly (silent : String → Bool) (known : HostFunction → Prop) (m : Machine) :
    Prop :=
  ∀ name v, m.lookup? name = some v →
    if silent name then
      ∃ f, v = .function (.host f) ∧ known f ∧ f.signature.ret.isVoid
    else v.Every (Value.Plain known)

namespace Machine

variable {m : Machine} {silent : String → Bool} {known : HostFunction → Prop}

/-- What a run on the machine may meet. -/
def roster (m : Machine) (silent : String → Bool) (known : HostFunction → Prop) : Roster :=
  ⟨silent, known, fun id => id = m.env.current ∨ m.store.frames.size ≤ id⟩

theorem Ready.orderly (ready : m.Ready) {s : Setting Ty} (binds : m.BindsExactly silent known) :
    m.Orderly s (m.roster silent known) where
  inStore := ready.current ▸ ready.inStore
  current := .inl rfl
  store := {
    fresh := fun _ => .inr
    outer := by
      rintro id around (rfl | isNew) isParent
      · rw [ready.current, ready.outermost] at isParent
        cases isParent
      · rw [Store.parent?, Array.getElem?_eq_none isNew] at isParent
        cases isParent
    binds := by
      rintro id name b (rfl | isNew) bound
      · have found : m.lookup? name = some b.value := by
          rw [lookup?, Store.lookup?, Store.resolve?_of_bound bound]
          rfl
        have fits := binds name b.value found
        unfold Value.Fits
        change if silent name then _ else _
        split
        · next isSilent =>
            rw [if_pos isSilent] at fits
            rcases fits with ⟨f, isHost, isKnown, isVoid⟩
            exact ⟨_, isHost, isKnown, isVoid⟩
        · next isSpared =>
            rw [if_neg isSpared] at fits
            exact fits.mono fun _ plain => plain.voice fun _ => id
      · rw [Store.find?, Array.getElem?_eq_none isNew] at bound
        cases bound }

end Machine

theorem Hosts.Exact.heeds {known : HostFunction → Prop} {s : Setting Ty}
    (hosts : Hosts.Exact known s.hosts) {silent : String → Bool}
    (builtins : ∀ f : Builtin, silent f.name = false) (m : Machine) :
    s.Heeds (m.roster silent known) where
  hosts f isKnown args v voiced given := by
    have result := hosts f isKnown args v given
    rw [Value.Given]
    split at result
    · next isVoid =>
        rw [isVoid]
        exact result
    · next notVoid =>
        rw [eq_false_of_ne_true notVoid]
        intro part isPart
        rcases result part isPart with plain | ⟨arg, member, within⟩
        · exact plain.voice fun _ => id
        · exact voiced arg member part within
  builtins := builtins

/-- A checked formula is fair where it reserves the names of silent functions. -/
theorem Program.fair_of_check {globals : TypeEnv} {p : Program Unit} {q : TypedProgram}
    (distinct : (p.functions.map Prod.fst).Nodup) (checked : p.check globals = .ok q)
    {s : Setting Ty} (isFor : s.IsFor q) {silent : String → Bool}
    (reserved : q.stmts.all (Stmt.reserves silent)) : ∀ t ∈ q.stmts, t.Fair s silent := by
  intro t member
  have same := ((Typing.meets_program globals (fun _ => false) p).of_ok checked).1
  have endWell := ((Typing.controlled_program globals p).of_ok checked).2.1 t member
  have reserves := List.all_eq_true.mp reserved t member
  refine ⟨reserves, ?_⟩
  cases t with
  | function node written name params body =>
      have named : silent name = (Ty.ofExpr written).isVoid := by
        rw [Stmt.reserves, Bool.and_eq_true] at reserves
        exact beq_iff_eq.mp reserves.1
      refine ⟨Setting.body_of_isFor isFor (same ▸ distinct) (Program.mem_functions member), ?_⟩
      rw [Stmt.BodyGives, named]
      cases isVoid : (Ty.ofExpr written).isVoid with
      | false => exact endWell.2.1 isVoid
      | true => exact endWell.2.2 isVoid
  | _ => trivial

/-- A function from outside that takes nothing and gives nothing. -/
def noting : HostFunction :=
  ⟨0, ⟨[], none, Ty.void, none⟩⟩

/-- Functions that do give nothing. -/
def notingHosts : Hosts :=
  fun _ _ => .ok .void

/-- A machine with such a function. -/
def notingMachine : Machine :=
  bareMachine.defineGlobal "note" (.function (.host noting))

theorem exact_notingHosts : Hosts.Exact (· = noting) notingHosts := by
  rintro f rfl args v ⟨⟩
  exact rfl

theorem bindsExactly_notingMachine {silent : String → Bool} (isSilent : silent "note") :
    notingMachine.BindsExactly silent (· = noting) := by
  intro name v bound
  have ready : bareMachine.Ready := Machine.ready_atop .empty
  rw [notingMachine, ready.lookup?_defineGlobal] at bound
  split at bound
  · next isNote =>
      cases bound
      rw [if_pos (isNote ▸ isSilent)]
      exact ⟨noting, rfl, rfl, rfl⟩
  · rw [bareMachine, Machine.lookup?_atop] at bound
    cases bound

/-- A formula that calls functions without a value, returns on one way, and has a last
expression for the other. -/
def choosing : String :=
  "void twice() \x7b note(); note(); \x7d twice(); if (true) return 5; 7"

/-- The functions without a value. -/
def choosingSilent (name : String) : Bool :=
  name == "note" || name == "twice"

/-- If only some of the results have a value, their type is mixed. -/
example : (Lexer.tokenize "if (true) return; 5").toOption.bind
    (fun tokens => (Mode.program.parse tokens).toOption.bind fun output =>
      (output.program.check .empty).toOption.map fun q =>
        ((bareMachine.run (q.setting .empty noHosts) 20 q).1, q.resultType))
    = some (.ok .void, Ty.mixed) := by cbv

/-- A formula that returns on a way that it does not take. -/
def skipping : String :=
  "if (false) return 5;"

/-- The expression is a call. -/
def Expr.isCall {α : Type} : Expr α → Bool
  | .call _ _ _ => true
  | _ => false

end Formulae
