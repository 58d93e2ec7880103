import Formulae.Proofs.Run.Control
import Formulae.Proofs.Run.Unseen
import Formulae.Proofs.Tree.Reserved

/-!
# Which expressions have values

A function is silent if it gives no value.  In a run of statements that reserve the names of
silent functions, these names are bound to silent functions only, and no value that any other
name is bound to has a silent function in it, or void.  So whatever is evaluated has such a
value too, unless it is a call of a silent function, and this gives none (`Run.voicedAll`).
-/

namespace Formulae

/-- What a run may meet: the names of silent functions, the functions supplied from outside,
and the frames in which names are looked up. -/
structure Roster where
  silent : String → Bool
  hosts : HostFunction → Prop
  live : Nat → Prop

section

variable {α : Type} (s : Setting α) (r : Roster)

/-- A body ends with a value whenever it ends, or never does. -/
def Stmt.BodyGives (gives : Bool) (body : List (Stmt α)) : Prop :=
  if gives then someReturns body ∧ none ∉ returnedAll body
  else ∀ e, some e ∉ returnedAll body

/-- The statement reserves the names of silent functions.  A function that it declares has its
body in the setting, which gives a value or not as the name says. -/
def Stmt.Fair (silent : String → Bool) (stmt : Stmt α) : Prop :=
  stmt.reserves silent ∧
    match stmt with
    | .function node _ name _ body => s.body node.id = body ∧ BodyGives (!silent name) body
    | _ => True

/-- The function gives a value or not, and its body is fair. -/
structure Closure.Gives (gives : Bool) (f : Closure) : Prop where
  live : r.live f.frame
  params : ∀ param ∈ f.params, r.silent param.name = false
  fair : ∀ t ∈ Stmt.stmtsAll (s.body f.declaration), t.Fair s r.silent
  body : Stmt.BodyGives gives (s.body f.declaration)

/-- The function is one that may be met, and gives a value or not. -/
def Callable.Gives (gives : Bool) : Callable → Prop
  | .declared f => f.Gives s r gives
  | .builtin _ => gives
  | .host f => r.hosts f ∧ f.signature.ret.isVoid = !gives

namespace Value

/-- No part of the value is void or a silent function. -/
def Voiced : Value → Prop :=
  Every fun part => part ≠ .void ∧ ∀ f, part = .function f → f.Gives s r true

/-- The value is the result of a function that gives a value or not. -/
def Given (gives : Bool) (v : Value) : Prop :=
  if gives then v.Voiced s r else v = .void

/-- The value may be bound to the name. -/
def Fits (name : String) (v : Value) : Prop :=
  if r.silent name then ∃ f, v = .function f ∧ f.Gives s r false else v.Voiced s r

/-- One of these `return`s gives the value, or returns without one. -/
inductive ReturnedBy (returned : List (Option (Expr α))) : Value → Prop
  | nothing (member : none ∈ returned) : ReturnedBy returned .void
  | value {e : Expr α} {v : Value} (member : some e ∈ returned) (yields : e.Yields s v)
      (voiced : v.Voiced s r) : ReturnedBy returned v

end Value

/-- If the statement ended with a `return`, it is one of these. -/
def Flow.ReturnedBy (returned : List (Option (Expr α))) (flow : Flow) : Prop :=
  ∀ v, flow = .ret v → v.ReturnedBy s r returned

/-- Functions from outside give values as their signatures say, and no built-in function has
the name of a silent one. -/
structure Setting.Heeds : Prop where
  hosts : ∀ f, r.hosts f → ∀ args v, (∀ arg ∈ args, Value.Voiced s r arg) →
    s.hosts f.handle args = .ok v → v.Given s r !f.signature.ret.isVoid
  builtins : ∀ f : Builtin, r.silent f.name = false

/-- In the frames in which names are looked up, they are bound to what fits them. -/
structure Store.Orderly (store : Store) : Prop where
  fresh : ∀ id, store.frames.size ≤ id → r.live id
  outer : ∀ id around, r.live id → store.parent? id = some around → r.live around
  binds : ∀ id name b, r.live id → store.find? id name = some b → b.value.Fits s r name

/-- The innermost scope is one in which names are looked up. -/
structure Machine.Orderly (m : Machine) : Prop where
  inStore : m.env.current < m.store.frames.size
  current : r.live m.env.current
  store : m.store.Orderly s r

/-- A step that ends brings a good result, and keeps order. -/
def Run.Brings {β : Type} (x : Run β) (good : β → Prop) : Prop :=
  ∀ m value m', m.Orderly s r → x m = .ok value m' →
    good value ∧ m'.Orderly s r ∧ m.Becomes m'

end

/-! ## Values -/

namespace Value

variable {α : Type} {s : Setting α} {r : Roster} {v : Value}

theorem voice_of_isData (part : Value) (data : part.isData) :
    part ≠ .void ∧ ∀ f, part = .function f → f.Gives s r true := by
  constructor
  · rintro rfl
    cases data
  · rintro f rfl
    cases data

theorem voiced_of_isData (data : v.isData) : v.Voiced s r :=
  every_data data voice_of_isData

theorem voiced_function {f : Callable} : (function f).Voiced s r ↔ f.Gives s r true := by
  constructor
  · exact fun voiced => (voiced _ (List.mem_singleton_self _)).2 f rfl
  · intro gives
    refine @every_of_part _ (.function f) rfl ⟨nofun, ?_⟩
    rintro _ ⟨⟩
    exact gives

theorem Voiced.ne_void (voiced : v.Voiced s r) : v ≠ .void := by
  rintro rfl
  exact (voiced _ (List.mem_singleton_self _)).1 rfl

theorem fits_of_spared {name : String} (spared : r.silent name = false) :
    v.Fits s r name ↔ v.Voiced s r := by
  rw [Fits, spared]
  exact Iff.rfl

theorem fits_of_silent {name : String} (silent : r.silent name) :
    v.Fits s r name ↔ ∃ f, v = .function f ∧ f.Gives s r false := by
  rw [Fits, silent]
  exact Iff.rfl

end Value

theorem Flow.ReturnedBy.mono {α : Type} {s : Setting α} {r : Roster}
    {returned returned' : List (Option (Expr α))} {flow : Flow}
    (h : flow.ReturnedBy s r returned) (sub : returned ⊆ returned') :
    flow.ReturnedBy s r returned' := by
  intro v isReturn
  cases h v isReturn with
  | nothing member => exact .nothing (sub member)
  | value member yields voiced => exact .value (sub member) yields voiced

/-! ## Order -/

section

variable {α : Type} {s : Setting α} {r : Roster}

namespace Store

variable {store : Store}

/-- Looking a name up from a live frame comes to what fits the name. -/
theorem Orderly.fits_of_resolve? (orderly : store.Orderly s r) {id frame : Nat} {name : String}
    {b : Binding} (live : r.live id) (resolved : store.resolve? id name = some (frame, b)) :
    b.value.Fits s r name := by
  induction id using Nat.strongRecOn with
  | ind id inductionHypothesis =>
      rw [resolve?_eq] at resolved
      split at resolved
      · next bound =>
          cases resolved
          exact orderly.binds _ _ _ live bound
      · rcases Option.bind_eq_some_iff.mp resolved with ⟨around, isParent, further⟩
        exact inductionHypothesis around (parent?_lt isParent)
          (orderly.outer _ _ live isParent) further

theorem Orderly.push (orderly : store.Orderly s r) {parent : Nat} (live : r.live parent) :
    (store.push (some parent)).2.Orderly s r where
  fresh id isNew := by
    rw [size_push] at isNew
    exact orderly.fresh id (Nat.le_of_succ_le isNew)
  outer id around isLive isParent := by
    by_cases isNew : id = store.frames.size
    · simp only [parent?, Store.push, Array.getElem?_push, if_pos isNew, Frame.empty,
        Option.bind_some] at isParent
      cases (Option.filter_eq_some_iff.mp isParent).1
      exact live
    · rw [parent?_push_of_ne _ _ isNew] at isParent
      exact orderly.outer id around isLive isParent
  binds id name b isLive bound := by
    rw [find?_push] at bound
    exact orderly.binds id name b isLive bound

theorem Orderly.write (orderly : store.Orderly s r) (frame : Nat) {name : String} {v : Value}
    (fits : v.Fits s r name) : (store.write frame name v).Orderly s r where
  fresh id isNew := by
    rw [size_write] at isNew
    exact orderly.fresh id isNew
  outer id around isLive isParent := by
    rw [Store.write, parent?_modify] at isParent
    exact orderly.outer id around isLive isParent
  binds id key b isLive bound := by
    rw [find?_write] at bound
    rcases Option.map_eq_some_iff.mp bound with ⟨before, found, rfl⟩
    split
    · next here => exact here.2 ▸ fits
    · exact orderly.binds id key before isLive found

end Store

namespace Machine

variable {m m' : Machine}

theorem Orderly.pushScope {m : Machine} (live : r.live m.env.current)
    (orderly : m.store.Orderly s r) : m.pushScope.Orderly s r where
  inStore := Nat.lt_of_lt_of_eq (Nat.lt_succ_self _) (Store.size_push _ _).symm
  current := orderly.fresh _ (Nat.le_refl _)
  store := orderly.push live

/-- The scope that a step was taken in is there as before. -/
theorem Orderly.returned (orderly : m.Orderly s r) (becomes : m.Becomes m')
    (store : m'.store.Orderly s r) : m'.Orderly s r where
  inStore := by
    rw [becomes.env]
    exact Nat.lt_of_lt_of_le orderly.inStore becomes.store.size
  current := by
    rw [becomes.env]
    exact orderly.current
  store := store

theorem Orderly.defines (orderly : m.Orderly s r) {name : String} {b : Binding}
    (defines : Layout.Defines m m' name b) (fits : b.value.Fits s r name) : m'.store.Orderly s r where
  fresh id isNew := orderly.store.fresh id (defines.size ▸ isNew)
  outer id around isLive isParent :=
    orderly.store.outer id around isLive (defines.parent id ▸ isParent)
  binds id key b' isLive bound := by
    rw [defines.finds orderly.inStore] at bound
    split at bound
    · next here =>
        cases bound
        exact here.2 ▸ fits
    · exact orderly.store.binds id key b' isLive bound

end Machine

end

/-! ## Steps -/

namespace Run

variable {α β γ : Type} {s : Setting α} {r : Roster} {good good' : β → Prop}

theorem brings_pure {value : β} (h : good value) : Brings s r (pure value) good := by
  rintro m _ _ orderly ⟨⟩
  exact ⟨h, orderly, .refl m⟩

theorem brings_throw (stop : Stop) : Brings s r (throw stop : Run β) good := by
  rintro m _ _ - ⟨⟩

theorem brings_fail (fault : EvalFault) (span : Span) :
    Brings s r (fail fault span : Run β) good :=
  brings_throw _

theorem Brings.mono {x : Run β} (brings : Brings s r x good)
    (h : ∀ value, good value → good' value) : Brings s r x good' := by
  intro m value m' orderly ran
  rcases brings m value m' orderly ran with ⟨fine, rest⟩
  exact ⟨h value fine, rest⟩

theorem Brings.bind {x : Run β} {f : β → Run γ} {good' : γ → Prop} (first : Brings s r x good)
    (second : ∀ value, good value → Brings s r (f value) good') :
    Brings s r (x >>= f) good' := by
  intro m value m' orderly ran
  simp only [Bind.bind, EStateM.bind] at ran
  split at ran
  · next between m₁ ran₁ =>
      rcases first m between m₁ orderly ran₁ with ⟨fine, orderly₁, becomes₁⟩
      rcases second between fine m₁ value m' orderly₁ ran with ⟨fine', orderly', becomes'⟩
      exact ⟨fine', orderly', becomes₁.trans becomes'⟩
  · cases ran

/-- What is ensured whatever the machine holds besides. -/
theorem Brings.and {x : Run β} {bad : EvalFault → Prop} (brings : Brings s r x good)
    (ensures : Ensures x good' bad) :
    Brings s r x fun value => good value ∧ good' value := by
  intro m value m' orderly ran
  rcases brings m value m' orderly ran with ⟨fine, rest⟩
  exact ⟨⟨fine, ensures.of_ok ran⟩, rest⟩

/-- A result comes about from some machine. -/
theorem Brings.given {x : Run β} (brings : Brings s r x good) :
    Brings s r x fun value => good value ∧ ∃ m m', x m = .ok value m' := by
  intro m value m' orderly ran
  rcases brings m value m' orderly ran with ⟨fine, rest⟩
  exact ⟨⟨fine, m, m', ran⟩, rest⟩

theorem Brings.map {x : Run β} (f : β → γ) (brings : Brings s r x good) :
    Brings s r (f <$> x) fun _ => True := by
  rw [← bind_pure_comp]
  exact brings.bind fun _ _ => brings_pure trivial

theorem brings_located {result : Except EvalFault β} {bad : EvalFault → Prop} (span : Span)
    (ends : Ends good bad result) : Brings s r (located span result) good := by
  cases result with
  | ok value => exact brings_pure ends
  | error fault => exact brings_fail fault span

theorem brings_checkCancelled (span : Span) :
    Brings s r (checkCancelled s span) fun _ => True := by
  unfold checkCancelled
  split
  · exact brings_fail _ _
  · exact brings_pure trivial

theorem brings_modify {change : Machine → Machine}
    (keeps : ∀ m, m.Orderly s r → (change m).store.Orderly s r ∧ m.Becomes (change m)) :
    Brings s r (modify change) fun _ => True := by
  rintro m _ _ orderly ⟨⟩
  rcases keeps m orderly with ⟨store, becomes⟩
  exact ⟨trivial, orderly.returned becomes store, becomes⟩

theorem brings_define {name : String} {b : Binding} (fits : b.value.Fits s r name) :
    Brings s r (modify (·.define name b)) fun _ => True :=
  brings_modify fun m orderly =>
    ⟨orderly.defines (Layout.defines_define m name b) fits, Machine.becomes_define m name b⟩

theorem Brings.inScope {x : Run β} (brings : Brings s r x good) :
    Brings s r (inScope x) good := by
  intro m value m' orderly ran
  unfold Run.inScope between at ran
  split at ran
  · next given m₁ ran₁ =>
      cases ran
      rcases brings _ _ _ (.pushScope orderly.current orderly.store) ran₁ with
        ⟨fine, orderly₁, becomes⟩
      exact ⟨fine, orderly.returned becomes.popScope orderly₁.store, becomes.popScope⟩
  · cases ran

theorem Brings.inCall {x : Run β} {frame : Nat} (live : r.live frame)
    (brings : Brings s r x good) : Brings s r (inCall frame x) good := by
  intro m value m' orderly ran
  unfold Run.inCall between at ran
  split at ran
  · next given m₁ ran₁ =>
      cases ran
      have entered : (m.enterCall frame).Orderly s r :=
        @Machine.Orderly.pushScope _ _ _
          { m with env := .ofFrame frame, callers := m.env :: m.callers } live orderly.store
      rcases brings _ _ _ entered ran₁ with ⟨fine, orderly₁, becomes⟩
      have left := becomes.leaveCall
      have store : m₁.leaveCall.store = m₁.store := by
        unfold Machine.leaveCall
        split <;> rfl
      exact ⟨fine, orderly.returned left (store ▸ orderly₁.store), left⟩
  · cases ran

theorem brings_fetch (heeds : s.Heeds r) (name : String) (missing : EvalFault) (span : Span) :
    Brings s r (fetch name missing span) (Value.Fits s r name) := by
  intro m value m' orderly ran
  unfold fetch at ran
  split at ran
  · next found =>
      cases ran
      rcases Option.map_eq_some_iff.mp found with ⟨⟨frame, b⟩, resolved, rfl⟩
      exact ⟨orderly.store.fits_of_resolve? orderly.current resolved, orderly, .refl m⟩
  · split at ran
    · next f isBuiltin =>
        cases ran
        unfold Builtin.ofName? at isBuiltin
        have named := List.find?_some isBuiltin
        rw [beq_iff_eq] at named
        have spared : r.silent name = false := named ▸ heeds.builtins f
        exact ⟨(Value.fits_of_spared spared).mpr (Value.voiced_function.mpr rfl), orderly,
          .refl m⟩
    · cases ran

theorem brings_assign {name : String} (spared : r.silent name = false) (path : List Value.Step)
    (base : Option Operator) {value : Value} (voiced : value.Voiced s r) (span : Span) :
    Brings s r (assign name path base value span) (Value.Voiced s r) := by
  intro m new m' orderly ran
  unfold assign Store.place at ran
  cases found : m.store.resolve? m.env.current name with
  | none =>
      rw [found] at ran
      cases ran
  | some place =>
      obtain ⟨frame, b⟩ := place
      rw [found] at ran
      have old : b.value.Voiced s r := (Value.fits_of_spared spared).mp
        (orderly.store.fits_of_resolve? orderly.current found)
      have stores (old : Value) : Value.GivesAt _ (Value.combined base value span old) :=
        Value.gives_combined (Value.voice_of_isData (s := s) (r := r)) old voiced
      have update := Value.ends_update Value.voice_of_isData (fun old _ => stores old) path old
      dsimp only at ran
      split at ran
      · next refused => split at refused <;> cases ran
      · cases ran
      · next place =>
          split at place
          · cases place
            split at ran
            · cases ran
            · next changed new' updated =>
                cases ran
                rcases update.of_ok updated with ⟨changedVoiced, newVoiced⟩
                have becomes : m.Becomes
                    { m with store := m.store.write frame name changed } :=
                  ⟨rfl, rfl, Store.extends_write _ _ _ _⟩
                have store := orderly.store.write frame
                  ((Value.fits_of_spared spared).mpr changedVoiced)
                exact ⟨newVoiced, orderly.returned becomes store, becomes⟩
          · cases place

theorem brings_bindParams {params : List Param} (spared : ∀ param ∈ params, r.silent param.name = false)
    {args : List Value} (voiced : ∀ arg ∈ args, arg.Voiced s r) :
    Brings s r (bindParams params args) fun _ => True := by
  apply brings_modify
  have each : ∀ entry ∈ params.zip args,
      entry.2.Fits s r entry.1.name := fun entry member =>
    (Value.fits_of_spared (spared _ (List.of_mem_zip member).1)).mpr
      (voiced _ (List.of_mem_zip member).2)
  revert each
  induction params.zip args with
  | nil => exact fun _ m orderly => ⟨orderly.store, .refl m⟩
  | cons entry rest inductionHypothesis =>
      intro each m orderly
      rw [List.forall_mem_cons] at each
      have becomes := Machine.becomes_define m entry.1.name ⟨entry.2, entry.1.mutable⟩
      have defined := orderly.returned becomes
        (orderly.defines (Layout.defines_define m entry.1.name ⟨entry.2, entry.1.mutable⟩) each.1)
      rcases inductionHypothesis each.2 _ defined with ⟨store, becomes'⟩
      exact ⟨store, becomes.trans becomes'⟩

theorem brings_cast (target : Ty) {v : Value} (voiced : v.Voiced s r) (span : Span) :
    Brings s r (located span (Value.cast target v)) (Value.Voiced s r) :=
  brings_located span (Value.gives_cast Value.voice_of_isData target voiced)

theorem brings_loopItem (binder : Binder) (span : Span) {item : Value}
    (voiced : item.Voiced s r) : Brings s r (loopItem binder span item) (Value.Voiced s r) := by
  unfold loopItem
  split
  · exact brings_cast _ voiced _
  · exact brings_pure voiced

/-! ## All steps at once -/

/-- Every step within a bound brings a value where there is one. -/
structure VoicedAll (s : Setting α) (r : Roster) (bound : Nat) : Prop where
  eval : ∀ e, e.reserves r.silent →
    Brings s r (Run.eval s bound e) (Value.Given s r !e.isSilent r.silent)
  evalAll : ∀ es, Expr.sparesAll r.silent es →
    Brings s r (Run.evalAll s bound es) fun vs => ∀ v ∈ vs, v.Voiced s r
  evalCast : ∀ node operand target, operand.spares r.silent →
    Brings s r (Run.evalCast s bound node operand target) (Value.Voiced s r)
  evalPath : ∀ target, target.spares r.silent →
    Brings s r (Run.evalPath s bound target) fun place => r.silent place.1 = false
  evalCall : ∀ node callee args, (Expr.call node callee args).reserves r.silent →
    Brings s r (Run.evalCall s bound node callee args)
      (Value.Given s r !(Expr.call node callee args).isSilent r.silent)
  apply : ∀ label f args span gives, Callable.Gives s r gives f →
    (∀ arg ∈ args, Value.Voiced s r arg) →
      Brings s r (Run.apply s bound label (.function f) args span) (Value.Given s r gives)
  enter : ∀ f args span gives, Closure.Gives s r gives f →
    (∀ arg ∈ args, Value.Voiced s r arg) →
      Brings s r (Run.enter s bound f args span) (Value.Given s r gives)
  exec : ∀ stmt, (∀ t ∈ stmt.stmts, t.Fair s r.silent) →
    Brings s r (Run.exec s bound stmt) (Flow.ReturnedBy s r stmt.returned)
  execAll : ∀ stmts, (∀ t ∈ Stmt.stmtsAll stmts, t.Fair s r.silent) →
    Brings s r (Run.execAll s bound stmts) (Flow.ReturnedBy s r (Stmt.returnedAll stmts))
  loop : ∀ tested cond step body, cond.all (Expr.spares r.silent) →
    step.all (Expr.reserves r.silent) → (∀ t ∈ body.stmts, t.Fair s r.silent) →
      Brings s r (Run.loop s bound tested cond step body) (Flow.ReturnedBy s r body.returned)
  loopItems : ∀ node binder body items, r.silent binder.name = false →
    (∀ t ∈ body.stmts, t.Fair s r.silent) → (∀ item ∈ items, Value.Voiced s r item) →
      Brings s r (Run.loopItems s bound node binder body items)
        (Flow.ReturnedBy s r body.returned)

variable {bound : Nat} (all : VoicedAll s r bound)
include all

theorem VoicedAll.value {e : Expr α} (spared : e.spares r.silent) :
    Brings s r (Run.eval s bound e) (Value.Voiced s r) := by
  have given := all.eval e (Expr.reserves_of_spares spared)
  rw [Expr.isSilent_of_spares spared] at given
  exact given

theorem brings_eval (heeds : s.Heeds r) (e : Expr α) (reserved : e.reserves r.silent) :
    Brings s r (Run.eval s (bound + 1) e) (Value.Given s r !e.isSilent r.silent) := by
  rw [Run.eval.eq_def]
  dsimp only
  cases e with
  | ident node name =>
      have spared : r.silent name = false := by
        change (Expr.ident node name).spares r.silent at reserved
        rwa [Expr.spares_ident, Bool.not_eq_true'] at reserved
      exact (brings_fetch heeds _ _ _).mono fun _ => (Value.fits_of_spared spared).mp
  | constant node value =>
      exact brings_located _
        (Value.GivesData.gives Value.voice_of_isData (Value.givesData_constant value))
  | unary node op operand =>
      have spared : operand.spares r.silent := reserved
      exact (all.value spared).bind fun v _ => brings_located _
        (Value.GivesData.gives Value.voice_of_isData (Value.givesData_unary op v))
  | binary node op left right =>
      change (Expr.binary node op left right).spares r.silent at reserved
      rw [Expr.spares_binary, Bool.and_eq_true] at reserved
      have one := all.value reserved.1
      have two := all.value reserved.2
      have plain : Brings s r (do
          let x ← Run.eval s bound left
          let y ← Run.eval s bound right
          located node.span (x.binary op y)) (Value.Voiced s r) :=
        one.bind fun x _ => two.bind fun y _ => brings_located _
          (Value.GivesData.gives Value.voice_of_isData (Value.givesData_binary op x y))
      have assigns : Brings s r (Run.assignment s bound node op.compoundBase left right) (Value.Voiced s r) :=
        (all.evalPath left reserved.1).bind fun _ spared => two.bind fun _ voiced =>
          brings_assign spared _ _ voiced _
      have isTrue (b : Bool) : (Value.bool b).Voiced s r := Value.voiced_of_isData rfl
      have truth : Brings s r (do return Value.bool (← Run.eval s bound right).isTruthy)
          (Value.Voiced s r) :=
        two.bind fun _ _ => brings_pure (isTrue _)
      cases op
      case typeCast => exact all.evalCast node left right reserved.1
      case and =>
        apply one.bind
        intro _ _
        split
        · exact truth
        · exact brings_pure (isTrue _)
      case or =>
        apply one.bind
        intro _ _
        split
        · exact brings_pure (isTrue _)
        · exact truth
      case assign | addAssign | subAssign | mulAssign | divAssign => exact assigns
      all_goals exact plain
  | ternary node cond thenBranch elseBranch =>
      change (Expr.ternary node cond thenBranch elseBranch).spares r.silent at reserved
      rw [Expr.spares_ternary, Bool.and_eq_true, Bool.and_eq_true] at reserved
      apply (all.value reserved.1.1).bind
      intro _ _
      split
      · exact all.value reserved.1.2
      · exact all.value reserved.2
  | call node callee args => exact all.evalCall node callee args reserved
  | array node items =>
      exact (all.evalAll items reserved).bind fun _ voiced =>
        brings_pure (Value.every_array.mpr voiced)
  | index node receiver subscript =>
      change (Expr.index node receiver subscript).spares r.silent at reserved
      rw [Expr.spares_index, Bool.and_eq_true] at reserved
      exact (all.value reserved.1).bind fun x voiced => (all.value reserved.2).bind fun y _ =>
        brings_located _ (Value.gives_element Value.voice_of_isData voiced)
  | typeLiteral node type => exact brings_fail _ _

theorem brings_evalAll (es : List (Expr α)) (spared : Expr.sparesAll r.silent es) :
    Brings s r (Run.evalAll s (bound + 1) es) fun vs => ∀ v ∈ vs, v.Voiced s r := by
  cases es with
  | nil => exact brings_pure (List.forall_mem_nil _)
  | cons e rest =>
      rw [Expr.sparesAll_cons, Bool.and_eq_true] at spared
      exact (all.value spared.1).bind fun _ voiced => (all.evalAll rest spared.2).bind
        fun _ others => brings_pure (List.forall_mem_cons.mpr ⟨voiced, others⟩)

theorem brings_evalCast (node : Node α) (operand target : Expr α)
    (spared : operand.spares r.silent) :
    Brings s r (Run.evalCast s (bound + 1) node operand target) (Value.Voiced s r) := by
  rw [Run.evalCast.eq_def]
  dsimp only
  cases target with
  | typeLiteral _ type =>
      exact (all.value spared).bind fun _ voiced => brings_cast _ voiced _
  | _ => exact brings_fail _ _

theorem brings_evalPath (target : Expr α) (spared : target.spares r.silent) :
    Brings s r (Run.evalPath s (bound + 1) target) fun place => r.silent place.1 = false := by
  rw [Run.evalPath.eq_def]
  dsimp only
  cases target with
  | ident _ name =>
      rw [Expr.spares_ident, Bool.not_eq_true'] at spared
      exact brings_pure spared
  | index node receiver subscript =>
      rw [Expr.spares_index, Bool.and_eq_true] at spared
      exact (all.evalPath receiver spared.1).bind fun _ root =>
        (all.value spared.2).bind fun _ _ => brings_pure root
  | _ => exact brings_fail _ _

/-- A value that is called gives a value. -/
theorem brings_apply_voiced (label : String) {function : Value} (voiced : function.Voiced s r)
    {args : List Value} (argsVoiced : ∀ arg ∈ args, arg.Voiced s r) (span : Span) :
    Brings s r (Run.apply s bound label function args span) (Value.Voiced s r) := by
  cases function with
  | function f =>
      exact all.apply label f args span true (Value.voiced_function.mp voiced) argsVoiced
  | _ =>
      cases bound with
      | zero => exact brings_throw _
      | succ bound => exact brings_fail _ _

theorem brings_evalCall (heeds : s.Heeds r) (node : Node α) (callee : Expr α)
    (args : List (Expr α)) (reserved : (Expr.call node callee args).reserves r.silent) :
    Brings s r (Run.evalCall s (bound + 1) node callee args)
      (Value.Given s r !(Expr.call node callee args).isSilent r.silent) := by
  have computed {callee : Expr α} (spared : callee.spares r.silent)
      (argsSpared : Expr.sparesAll r.silent args) : Brings s r (do
        let function ← Run.eval s bound callee
        let values ← Run.evalAll s bound args
        Run.apply s bound "function" function values node.span) (Value.Voiced s r) :=
    (all.value spared).bind fun _ voiced => (all.evalAll args argsSpared).bind
      fun _ argsVoiced => brings_apply_voiced all _ voiced argsVoiced _
  rw [Run.evalCall.eq_def]
  dsimp only
  cases callee with
  | ident calleeNode name =>
      apply (brings_fetch heeds name _ _).bind
      intro function fits
      apply (all.evalAll args reserved).bind
      intro values voiced
      rw [Expr.isSilent]
      cases silent : r.silent name with
      | false =>
          exact brings_apply_voiced all _ ((Value.fits_of_spared silent).mp fits) voiced _
      | true =>
          rcases (Value.fits_of_silent silent).mp fits with ⟨f, rfl, gives⟩
          exact all.apply _ f values _ false gives voiced
  | _ =>
      have spared := Expr.spares_call.symm.trans reserved
      rw [Bool.and_eq_true] at spared
      exact computed spared.1 spared.2

theorem brings_apply (heeds : s.Heeds r) (label : String) (f : Callable) (args : List Value)
    (span : Span) (gives : Bool) (isGiven : f.Gives s r gives)
    (voiced : ∀ arg ∈ args, arg.Voiced s r) :
    Brings s r (Run.apply s (bound + 1) label (.function f) args span)
      (Value.Given s r gives) := by
  rw [Run.apply.eq_def]
  dsimp only
  cases f with
  | builtin f =>
      rw [Callable.Gives] at isGiven
      rw [isGiven]
      exact brings_located _ (Value.gives_call Value.voice_of_isData f voiced)
  | declared f => exact all.enter f args span gives isGiven voiced
  | host f =>
      dsimp only
      split
      · next v given =>
          have result := heeds.hosts f isGiven.1 args v voiced given
          rw [isGiven.2, Bool.not_not] at result
          exact brings_pure result
      · exact brings_fail _ _

theorem brings_enter (tight : s.Tight) (f : Closure) (args : List Value) (span : Span)
    (gives : Bool) (isGiven : f.Gives s r gives) (voiced : ∀ arg ∈ args, arg.Voiced s r) :
    Brings s r (Run.enter s (bound + 1) f args span) (Value.Given s r gives) := by
  rw [Run.enter_succ]
  split
  · exact brings_fail _ _
  · intro m
    have rest : Brings s r (Run.entered s bound f args span m.callDepth) (Value.Given s r gives) := by
      unfold Run.entered
      split
      · exact brings_fail _ _
      · have ends : Ensures (do
            bindParams f.params args
            Run.execAll s bound (s.body f.declaration)) (Stmt.EndsAll s (s.body f.declaration))
            Plain :=
          (ensures_modify _).bind fun _ _ => (endsAll tight bound).execAll _
        have body : Brings s r (do
            bindParams f.params args
            Run.execAll s bound (s.body f.declaration))
            (Flow.ReturnedBy s r (Stmt.returnedAll (s.body f.declaration))) :=
          (brings_bindParams isGiven.params voiced).bind fun _ _ => all.execAll _ isGiven.fair
        apply ((body.and ends).inCall isGiven.live).bind
        rintro flow ⟨returned, ends⟩
        have bodyGives := isGiven.body
        cases flow with
        | ret v =>
            apply brings_pure
            cases gives with
            | false =>
                cases returned v rfl with
                | nothing _ => rfl
                | value member _ _ => exact absurd member (bodyGives _)
            | true =>
                cases returned v rfl with
                | nothing member => exact absurd member bodyGives.2
                | value _ _ voiced => exact voiced
        | next =>
            apply brings_pure
            cases gives with
            | false => rfl
            | true =>
                cases ends with
                | next falls =>
                    have always : Stmt.someReturns (s.body f.declaration) := bodyGives.1
                    rw [falls] at always
                    cases always
        | brk | cont => exact brings_fail _ _
    exact rest m

omit all in
theorem returnedBy_nothing {returned : List (Option (Expr α))} {flow : Flow}
    (nothing : flow.value? = none) : flow.ReturnedBy s r returned :=
  fun v isReturn => absurd isReturn (flow.ne_ret nothing v)

theorem brings_exec (stmt : Stmt α) (fair : ∀ t ∈ stmt.stmts, t.Fair s r.silent) :
    Brings s r (Run.exec s (bound + 1) stmt) (Flow.ReturnedBy s r stmt.returned) := by
  rw [List.forall_mem_cons] at fair
  rcases fair with ⟨⟨reserved, declares⟩, inner⟩
  rw [Run.exec.eq_def]
  dsimp only
  apply (brings_checkCancelled _).bind
  intro _ _
  cases stmt with
  | expr _ e =>
      exact (all.eval e reserved).bind fun _ _ => brings_pure (returnedBy_nothing rfl)
  | varDecl node binder init =>
      rw [Stmt.reserves, Bool.and_eq_true, Bool.not_eq_true'] at reserved
      apply (all.value reserved.2).bind
      intro value voiced
      have fits : value.Fits s r binder.name := (Value.fits_of_spared reserved.1).mpr voiced
      exact (@brings_define _ _ _ binder.name ⟨value, binder.mutable⟩ fits).bind fun _ _ =>
        brings_pure (returnedBy_nothing rfl)
  | ret _ value =>
      cases value with
      | none =>
          apply brings_pure
          rintro _ ⟨⟩
          exact .nothing List.mem_cons_self
      | some e =>
          apply (all.value reserved).given.bind
          rintro v ⟨voiced, m, m', ran⟩
          apply brings_pure
          rintro _ ⟨⟩
          exact .value List.mem_cons_self ⟨bound, m, m', ran⟩ voiced
  | ifElse node cond thenBranch elseBranch =>
      rcases List.forall_mem_append.mp inner with ⟨thenFair, elseFair⟩
      apply (all.value reserved).bind
      intro _ _
      split
      · exact (all.exec thenBranch thenFair).inScope.mono fun _ returned =>
          returned.mono (List.subset_append_left _ _)
      · cases elseBranch with
        | none => exact brings_pure (returnedBy_nothing rfl)
        | some other =>
            exact (all.exec other elseFair).inScope.mono fun _ returned =>
              returned.mono (List.subset_append_right _ _)
  | whileLoop _ cond body => exact all.loop true (some cond) none body reserved rfl inner
  | doWhile _ body cond => exact all.loop false (some cond) none body reserved rfl inner
  | forLoop node init cond step body =>
      rcases List.forall_mem_append.mp inner with ⟨initFair, bodyFair⟩
      rw [Stmt.reserves, Bool.and_eq_true] at reserved
      have rounds : Brings s r (Run.loop s bound true cond step body)
          (Flow.ReturnedBy s r (Stmt.forLoop node init cond step body).returned) :=
        (all.loop true cond step body reserved.1 reserved.2 bodyFair).mono fun _ returned =>
          returned.mono (List.subset_append_right _ _)
      apply Brings.inScope
      cases init with
      | none => exact rounds
      | some first => exact (all.exec first initFair).bind fun _ _ => rounds
  | forEach node binder iterable body =>
      rw [Stmt.reserves, Bool.and_eq_true, Bool.not_eq_true'] at reserved
      apply (all.value reserved.2).bind
      intro items voiced
      cases items with
      | array items =>
          exact all.loopItems node binder body items reserved.1 inner
            (Value.every_array.mp voiced)
      | _ => exact brings_fail _ _
  | brk _ | cont _ => exact brings_pure (returnedBy_nothing rfl)
  | block _ stmts => exact (all.execAll stmts inner).inScope
  | function node written name params body =>
      rcases declares with ⟨sameBody, gives⟩
      rw [Stmt.reserves, Bool.and_eq_true, List.all_eq_true] at reserved
      have spared (param : Param) (member : param ∈ params) : r.silent param.name = false :=
        Bool.not_eq_true' _ ▸ reserved.2 param member
      have declared : Brings s r
          (modify (·.declare node.id name (s.names.number name) params)) fun _ => True := by
        apply brings_modify
        intro m orderly
        refine ⟨orderly.defines (Layout.defines_declare m _ _ _ _) ?_,
          Machine.becomes_declare m _ _ _ _⟩
        have isGiven : Closure.Gives s r (!r.silent name)
            ⟨m.store.declared, node.id, name, s.names.number name, params, m.env.current⟩ :=
          ⟨orderly.current, spared, sameBody ▸ inner, sameBody ▸ gives⟩
        cases silent : r.silent name with
        | false =>
            rw [silent] at isGiven
            exact (Value.fits_of_spared silent).mpr (Value.voiced_function.mpr isGiven)
        | true =>
            rw [silent] at isGiven
            exact (Value.fits_of_silent silent).mpr ⟨_, rfl, isGiven⟩
      exact declared.bind fun _ _ => brings_pure (returnedBy_nothing rfl)

theorem brings_execAll (stmts : List (Stmt α))
    (fair : ∀ t ∈ Stmt.stmtsAll stmts, t.Fair s r.silent) :
    Brings s r (Run.execAll s (bound + 1) stmts)
      (Flow.ReturnedBy s r (Stmt.returnedAll stmts)) := by
  cases stmts with
  | nil => exact brings_pure (returnedBy_nothing rfl)
  | cons stmt rest =>
      rcases List.forall_mem_append.mp fair with ⟨first, others⟩
      apply (all.exec stmt first).bind
      intro flow returned
      cases flow with
      | next =>
          exact (all.execAll rest others).mono fun _ returned =>
            returned.mono (List.subset_append_right _ _)
      | ret v | brk | cont => exact brings_pure (returned.mono (List.subset_append_left _ _))

theorem brings_loop (tested : Bool) (cond step : Option (Expr α)) (body : Stmt α)
    (condSpared : cond.all (Expr.spares r.silent))
    (stepReserved : step.all (Expr.reserves r.silent))
    (fair : ∀ t ∈ body.stmts, t.Fair s r.silent) :
    Brings s r (Run.loop s (bound + 1) tested cond step body)
      (Flow.ReturnedBy s r body.returned) := by
  rw [Run.loop.eq_def]
  dsimp only
  apply (brings_checkCancelled _).bind
  intro _ _
  have again := all.loop true cond step body condSpared stepReserved fair
  have round (goesOn : Bool) : Brings s r (Run.round s bound cond step body goesOn)
      (Flow.ReturnedBy s r body.returned) := by
    unfold Run.round
    split
    · apply (all.exec body fair).inScope.bind
      intro flow returned
      cases flow with
      | brk => exact brings_pure (returnedBy_nothing rfl)
      | ret v => exact brings_pure returned
      | next | cont =>
          cases step with
          | none => exact again
          | some e => exact (all.eval e stepReserved).bind fun _ _ => again
    · exact brings_pure (returnedBy_nothing rfl)
  cases cond with
  | none => exact round true
  | some e =>
      cases tested with
      | true => exact ((all.value condSpared).map _).bind fun goesOn _ => round goesOn
      | false => exact round true

theorem brings_loopItems (node : StmtNode) (binder : Binder) (body : Stmt α)
    (items : List Value) (spared : r.silent binder.name = false)
    (fair : ∀ t ∈ body.stmts, t.Fair s r.silent) (voiced : ∀ item ∈ items, item.Voiced s r) :
    Brings s r (Run.loopItems s (bound + 1) node binder body items)
      (Flow.ReturnedBy s r body.returned) := by
  cases items with
  | nil => exact brings_pure (returnedBy_nothing rfl)
  | cons item rest =>
      rw [List.forall_mem_cons] at voiced
      rw [Run.loopItems.eq_def]
      dsimp only
      apply (brings_checkCancelled _).bind
      intro _ _
      apply (brings_loopItem _ _ voiced.1).bind
      intro value itemVoiced
      have fits : value.Fits s r binder.name := (Value.fits_of_spared spared).mpr itemVoiced
      have round : Brings s r (do
          modify (·.define binder.name ⟨value, binder.mutable⟩)
          Run.exec s bound body) (Flow.ReturnedBy s r body.returned) :=
        (@brings_define _ _ _ binder.name ⟨value, binder.mutable⟩ fits).bind fun _ _ =>
          all.exec body fair
      apply round.inScope.bind
      intro flow returned
      cases flow with
      | brk => exact brings_pure (returnedBy_nothing rfl)
      | ret v => exact brings_pure returned
      | next | cont => exact all.loopItems node binder body rest spared fair voiced.2

omit all in
theorem voicedAll (heeds : s.Heeds r) (tight : s.Tight) (bound : Nat) :
    VoicedAll s r bound := by
  induction bound with
  | zero =>
      constructor <;> intros <;> exact brings_throw _
  | succ bound all =>
      exact ⟨brings_eval all heeds, brings_evalAll all, brings_evalCast all, brings_evalPath all,
        brings_evalCall all heeds, brings_apply all heeds, brings_enter all tight,
        brings_exec all, brings_execAll all, brings_loop all, brings_loopItems all⟩

end Run

/-! ## Formulas -/

variable {α : Type} {s : Setting α} {r : Roster}

/-- The value of a formula comes from a `return`, or from the last expression; or else the end
is reached, and there is none. -/
inductive Program.ComesTo (s : Setting α) (r : Roster) (p : Program α) : Value → Prop
  | returned {v : Value} (returned : v.ReturnedBy s r (Stmt.returnedAll p.body)) :
      ComesTo s r p v
  | tail {e : Expr α} {v : Value} (isTail : p.tail = some e)
      (falls : Stmt.someReturns p.body = false) (yields : e.Yields s v)
      (given : v.Given s r !e.isSilent r.silent) : ComesTo s r p v
  | nothing (noTail : p.tail = none) (falls : Stmt.someReturns p.body = false) :
      ComesTo s r p .void

/-- In an orderly machine a fair formula comes to a value where it has one. -/
theorem Run.comesTo_of_program (heeds : s.Heeds r) (tight : s.Tight) {p : Program α}
    (fair : ∀ t ∈ p.stmts, t.Fair s r.silent)
    (tailReserved : p.tail.all (Expr.reserves r.silent)) {m m' : Machine}
    (orderly : m.Orderly s r) {bound : Nat} {v : Value}
    (ran : Run.program s bound p m = .ok v m') : p.ComesTo s r v := by
  have all := voicedAll heeds tight bound
  have ends := (endsAll tight bound).execAll p.body
  have inside : Brings s r (Run.inScope (Run.inside s bound p)) (p.ComesTo s r) := by
    apply Brings.inScope
    apply ((all.execAll p.body fair).and ends).bind
    rintro flow ⟨returned, ends⟩
    cases flow with
    | ret v => exact brings_pure (.returned (returned v rfl))
    | brk | cont => exact brings_fail _ _
    | next =>
        cases ends with
        | next falls =>
            cases isTail : p.tail with
            | none => exact brings_pure (.nothing isTail falls)
            | some e =>
                rw [isTail] at tailReserved
                apply (all.eval e tailReserved).given.mono
                rintro v ⟨given, m, m', ran⟩
                exact .tail isTail falls ⟨bound, m, m', ran⟩ given
  unfold Run.program between at ran
  split at ran
  · next ran₁ =>
      cases ran
      exact (inside _ _ _ orderly ran₁).1
  · cases ran

end Formulae
