import Formulae.Proofs.Run.Balanced
import Formulae.Proofs.Run.Unseen
import Formulae.Proofs.Tree.SideBySide

/-!
# Machines with a variable under two names

A machine and another one that binds a name more are twins as long as what a variable from
outside means in the first is what the name means in the second (`Machine.Twins`).  Steps that
use the variable under its old name in the first and under its new name in the second end in
the same way (`Run.Mirrors`).

What carries this out of the scopes that declare the old name again is that a run never
replaces a binding that is final, so it is found again from the scopes around
(`Store.Upholds`).
-/

namespace Formulae

/-- Everything is seen but what is bound to a name. -/
def View.hiding (name : String) : View :=
  ⟨name, fun _ => True, fun _ => True⟩

namespace Store

variable {store store' store'' : Store} {id top : Nat} {name : String}

theorem Alike.resolve?_hiding (alike : Alike (.hiding name) store store') {other : String}
    (different : other ≠ name) : store'.resolve? id other = store.resolve? id other :=
  alike.resolve?_eq (inside_of_live fun _ _ => trivial) fun isName => absurd isName different

/-- Final bindings that are found from the frame are found again. -/
def Finds (id : Nat) (store store' : Store) : Prop :=
  ∀ name frame b, b.mutable = false → store.resolve? id name = some (frame, b) →
    store'.resolve? id name = some (frame, b)

/-- The store has grown, and final bindings that are found from frames older than `top` are
found again. -/
structure Upholds (top : Nat) (store store' : Store) : Prop where
  size : store.frames.size ≤ store'.frames.size
  finds : ∀ id < top, store.Finds id store'

theorem Upholds.refl (top : Nat) (store : Store) : store.Upholds top store :=
  ⟨Nat.le_refl _, fun _ _ _ _ _ _ => id⟩

theorem Upholds.trans (first : store.Upholds top store') (second : store'.Upholds top store'') :
    store.Upholds top store'' where
  size := Nat.le_trans first.size second.size
  finds id older name frame b isFinal resolved :=
    second.finds id older name frame b isFinal (first.finds id older name frame b isFinal resolved)

theorem Upholds.older (upholds : store.Upholds top store') (notNewer : id ≤ top) :
    store.Upholds id store' :=
  ⟨upholds.size, fun _ older => upholds.finds _ (Nat.lt_of_lt_of_le older notNewer)⟩

/-! ## Changes -/

theorem resolve?_push (parent : Option Nat) (inStore : id < store.frames.size) (name : String) :
    (store.push parent).2.resolve? id name = store.resolve? id name :=
  resolve?_congr name fun i notNewer =>
    ⟨find?_push store parent i name,
      parent?_push_of_ne store parent (Nat.ne_of_lt (Nat.lt_of_le_of_lt notNewer inStore))⟩

/-- A new frame is one more to look through. -/
theorem resolve?_push_self {outer : Nat} (inStore : outer < store.frames.size) (name : String) :
    (store.push (some outer)).2.resolve? store.frames.size name = store.resolve? outer name := by
  have unbound : (store.push (some outer)).2.find? store.frames.size name = none := by
    rw [find?_push, find?, Array.getElem?_eq_none (Nat.le_refl _)]
    rfl
  rw [resolve?_of_unbound unbound (parent?_push_self inStore), resolve?_push _ inStore]

/-- Counting a function makes no difference to lookups. -/
theorem resolve?_freshFunction (store : Store) (id : Nat) (name : String) :
    store.freshFunction.2.resolve? id name = store.resolve? id name :=
  resolve?_congr name fun _ _ => ⟨rfl, rfl⟩

theorem upholds_freshFunction (top : Nat) (store : Store) :
    store.Upholds top store.freshFunction.2 where
  size := Nat.le_refl _
  finds id _ name frame b _ resolved := by rw [resolve?_freshFunction, resolved]

theorem upholds_push (parent : Option Nat) (inStore : top ≤ store.frames.size) :
    store.Upholds top (store.push parent).2 where
  size := size_push store parent ▸ Nat.le_succ _
  finds id older name frame b _ resolved := by
    rw [resolve?_push parent (Nat.lt_of_lt_of_le older inStore), resolved]

/-- Another name, or one bound in a newer frame, makes no difference. -/
theorem resolve?_define (inStore : top < store.frames.size) {other : String} (b : Binding)
    (notNewer : id ≤ top) (elsewhere : id = top → other ≠ name) :
    (store.define top name b).resolve? id other = store.resolve? id other := by
  apply resolve?_congr
  intro i older
  refine ⟨?_, parent?_modify _ _ _ _ _⟩
  rw [find?_define inStore, if_neg]
  rintro ⟨rfl, isName⟩
  exact elsewhere (Nat.le_antisymm notNewer older) isName

theorem upholds_define {frame : Nat} (inStore : frame < store.frames.size) (notOlder : top ≤ frame)
    (name : String) (b : Binding) : store.Upholds top (store.define frame name b) where
  size := Nat.le_of_eq (size_define _ _ _ _).symm
  finds id older other found b' _ resolved := by
    have older : id < frame := Nat.lt_of_lt_of_le older notOlder
    rw [resolve?_define inStore b (Nat.le_of_lt older) fun same => absurd same (Nat.ne_of_lt older),
      resolved]

/-- Only a binding that is not final is replaced. -/
theorem upholds_write {frame : Nat} {b : Binding} (bound : store.find? frame name = some b)
    (replaceable : b.mutable = true) (top : Nat) (value : Value) :
    store.Upholds top (store.write frame name value) where
  size := Nat.le_of_eq (size_write _ _ _ _).symm
  finds id _ other found b' isFinal resolved := by
    rw [resolve?_write, resolved, Option.map_some]
    dsimp only
    rw [if_neg]
    rintro ⟨rfl, rfl⟩
    have same := (bound_of_resolve? resolved).1
    rw [bound] at same
    cases same
    rw [replaceable] at isFinal
    cases isFinal

end Store

namespace Machine

/-- The machine is in the same scopes and calls as before, and final bindings that are found
from around the innermost scope are found again. -/
structure Upholds (m n : Machine) : Prop where
  env : n.env = m.env
  callers : n.callers = m.callers
  store : m.store.Upholds m.env.current n.store

/-- The machine is in the same scopes and calls as before, and all final bindings that are found
from there are found again. -/
structure Regains (m n : Machine) : Prop where
  env : n.env = m.env
  callers : n.callers = m.callers
  store : m.store.Upholds m.store.frames.size n.store

/-- The machines are the same but for what is bound to the new name.  Unless the old name is
declared, it means a variable bound from outside in the first machine, and the new name means
the same in the second. -/
structure Twins (r : Renaming) (global : Nat) (v : Value) (declared : List String)
    (m m' : Machine) : Prop where
  alike : m.Alike (.hiding r.new) m'
  inStore : m.env.current < m.store.frames.size
  renamed : r.old ∉ declared →
    m.store.resolve? m.env.current r.old = some (global, ⟨v, false⟩) ∧
      m'.store.resolve? m'.env.current r.new = some (global, ⟨v, false⟩)

variable {r : Renaming} {global : Nat} {v : Value} {declared declared' : List String}
  {m m' n n' : Machine}

theorem Upholds.refl (m : Machine) : m.Upholds m :=
  ⟨rfl, rfl, .refl _ _⟩

theorem Upholds.trans {o : Machine} (first : m.Upholds n) (second : n.Upholds o) :
    m.Upholds o where
  env := second.env.trans first.env
  callers := second.callers.trans first.callers
  store := first.store.trans (first.env ▸ second.store)

theorem Regains.upholds (regains : m.Regains n) (inStore : m.env.current < m.store.frames.size) :
    m.Upholds n :=
  ⟨regains.env, regains.callers, regains.store.older (Nat.le_of_lt inStore)⟩

theorem Twins.of_mem (twins : m.Twins r global v declared m')
    (h : r.old ∈ declared → r.old ∈ declared') : m.Twins r global v declared' m' :=
  { twins with renamed := fun undeclared => twins.renamed fun member => undeclared (h member) }

theorem Twins.inStore' (twins : m.Twins r global v declared m') :
    m'.env.current < m'.store.frames.size := by
  rw [twins.alike.env, twins.alike.store.size]
  exact twins.inStore

/-- A name that is not the new one is found in both in the same way. -/
theorem Twins.resolve?_eq (twins : m.Twins r global v declared m') {name : String}
    (different : name ≠ r.new) :
    m'.store.resolve? m'.env.current name = m.store.resolve? m.env.current name := by
  rw [twins.alike.env]
  exact twins.alike.store.resolve?_hiding different

/-- Machines that regain what was final are twins again. -/
theorem Twins.regains (twins : m.Twins r global v declared m') (alike : n.Alike (.hiding r.new) n')
    (regains : m.Regains n) (regains' : m'.Regains n') : n.Twins r global v declared n' where
  alike := alike
  inStore := by
    rw [regains.env]
    exact Nat.lt_of_lt_of_le twins.inStore regains.store.size
  renamed undeclared := by
    rcases twins.renamed undeclared with ⟨isOld, isNew⟩
    rw [regains.env, regains'.env]
    exact ⟨regains.store.finds _ twins.inStore _ _ _ rfl isOld,
      regains'.store.finds _ twins.inStore' _ _ _ rfl isNew⟩

/-! ## Scopes and calls -/

theorem Twins.pushScope (twins : m.Twins r global v declared m') :
    m.pushScope.Twins r global v declared m'.pushScope where
  alike := twins.alike.pushScope
  inStore := Nat.lt_of_lt_of_eq (Nat.lt_succ_self _) (Store.size_push _ _).symm
  renamed undeclared := by
    rcases twins.renamed undeclared with ⟨isOld, isNew⟩
    exact ⟨(Store.resolve?_push_self twins.inStore r.old).trans isOld,
      (Store.resolve?_push_self twins.inStore' r.new).trans isNew⟩

theorem regains_popScope (upholds : m.pushScope.Upholds n) : m.Regains n.popScope where
  env := congrArg Environment.pop upholds.env
  callers := upholds.callers
  store := (Store.upholds_push _ (Nat.le_refl _)).trans upholds.store

theorem regains_leaveCall {frame : Nat} (upholds : (m.enterCall frame).Upholds n) :
    m.Regains n.leaveCall := by
  have callers : n.callers = m.env :: m.callers := upholds.callers
  have store : m.store.Upholds m.store.frames.size n.store :=
    (Store.upholds_push _ (Nat.le_refl _)).trans upholds.store
  unfold Machine.leaveCall
  rw [callers]
  exact ⟨rfl, rfl, store⟩

/-! ## Bindings -/

variable {name : String} {b : Binding}

theorem upholds_define (inStore : m.env.current < m.store.frames.size) (name : String)
    (b : Binding) : m.Upholds (m.define name b) :=
  ⟨rfl, rfl, Store.upholds_define inStore (Nat.le_refl _) name b⟩

theorem Twins.define (twins : m.Twins r global v declared m') (different : name ≠ r.new)
    (b : Binding) : (m.define name b).Twins r global v (name :: declared) (m'.define name b) where
  alike := twins.alike.define twins.inStore name b
  inStore := Nat.lt_of_lt_of_eq twins.inStore (Store.size_define _ _ _ _).symm
  renamed undeclared := by
    rw [List.mem_cons, not_or] at undeclared
    rcases twins.renamed undeclared.2 with ⟨isOld, isNew⟩
    exact ⟨(Store.resolve?_define twins.inStore b (Nat.le_refl _) fun _ => undeclared.1).trans
        isOld,
      (Store.resolve?_define twins.inStore' b (Nat.le_refl _) fun _ => different.symm).trans
        isNew⟩

theorem regains_write {frame : Nat} (bound : m.store.find? frame name = some b)
    (replaceable : b.mutable = true) (value : Value) :
    m.Regains { m with store := m.store.write frame name value } :=
  ⟨rfl, rfl, Store.upholds_write bound replaceable _ value⟩

section

variable (declaration : Nat) (label : Name) (params : List Param)

theorem resolve?_declare (inStore : m.env.current < m.store.frames.size) {other : String}
    (different : other ≠ name) :
    (m.declare declaration name label params).store.resolve? m.env.current other =
      m.store.resolve? m.env.current other := by
  have counted : m.env.current < m.store.freshFunction.2.frames.size := inStore
  exact (Store.resolve?_define counted _ (Nat.le_refl _) fun _ => different).trans
    (Store.resolve?_freshFunction _ _ _)

theorem upholds_declare (inStore : m.env.current < m.store.frames.size) (name : String) :
    m.Upholds (m.declare declaration name label params) := by
  have counted : m.env.current < m.store.freshFunction.2.frames.size := inStore
  exact ⟨rfl, rfl, (Store.upholds_freshFunction _ m.store).trans
    (Store.upholds_define counted (Nat.le_refl _) name _)⟩

theorem Twins.declare (twins : m.Twins r global v declared m') (different : name ≠ r.new) :
    (m.declare declaration name label params).Twins r global v (name :: declared)
      (m'.declare declaration name label params) where
  alike := twins.alike.declare twins.inStore declaration name label params
  inStore := Nat.lt_of_lt_of_eq twins.inStore (Store.size_define m.store.freshFunction.2 _ _ _).symm
  renamed undeclared := by
    rw [List.mem_cons, not_or] at undeclared
    rcases twins.renamed undeclared.2 with ⟨isOld, isNew⟩
    exact ⟨(resolve?_declare _ _ _ twins.inStore undeclared.1).trans isOld,
      (resolve?_declare _ _ _ twins.inStore' different.symm).trans isNew⟩

end

end Machine

/-! ## Steps -/

/-- The reasons are the same, or they report an assignment to the same final variable under its
old and its new name. -/
inductive Stop.Renamed (r : Renaming) : Stop → Stop → Prop
  | same (stop : Stop) : Renamed r stop stop
  | final (span : Span) : Renamed r (.failed ⟨.bug (.finalAssigned r.old), span⟩)
      (.failed ⟨.bug (.finalAssigned r.new), span⟩)

namespace Run

/-- Steps on two machines stopped for the same reason but for the renaming, or they gave results
that are related and left twins behind. -/
inductive Mirrored {β γ : Type} (r : Renaming) (global : Nat) (v : Value)
    (declared : List String) (m m' : Machine) (good : β → γ → Prop) :
    EStateM.Result Stop Machine β → EStateM.Result Stop Machine γ → Prop
  | ok {x : β} {y : γ} {n n' : Machine} (twins : n.Twins r global v declared n')
      (upholds : m.Upholds n) (upholds' : m'.Upholds n') (h : good x y) :
      Mirrored r global v declared m m' good (.ok x n) (.ok y n')
  | error {stop stop' : Stop} {n n' : Machine} (renamed : stop.Renamed r stop') :
      Mirrored r global v declared m m' good (.error stop n) (.error stop' n')

variable {β γ δ ε : Type} {r : Renaming} {global : Nat} {v : Value}
  {declared declared' after after' : List String} {good : β → γ → Prop} {good' : δ → ε → Prop}

/-- The steps end in the same way on twins where these names are declared, and after them those
of `after` are. -/
def Mirrors (r : Renaming) (global : Nat) (v : Value) (declared after : List String)
    (good : β → γ → Prop) (x : Run β) (y : Run γ) : Prop :=
  ∀ m m' : Machine, m.Twins r global v declared m' →
    Mirrored r global v after m m' good (x m) (y m')

theorem mirrors_pure {x : β} {y : γ} (h : good x y) :
    Mirrors r global v declared declared good (pure x) (pure y) :=
  fun m m' twins => .ok twins (.refl m) (.refl m') h

theorem mirrors_throw {stop stop' : Stop} (renamed : stop.Renamed r stop') :
    Mirrors r global v declared after good (throw stop) (throw stop') :=
  fun _ _ _ => .error renamed

theorem mirrors_fail (fault : EvalFault) (span : Span) :
    Mirrors r global v declared after good (fail fault span) (fail fault span) :=
  mirrors_throw (.same _)

theorem Mirrors.bind {x : Run β} {y : Run γ} {f : β → Run δ} {g : γ → Run ε}
    (first : Mirrors r global v declared after good x y)
    (second : ∀ b c, good b c → Mirrors r global v after after' good' (f b) (g c)) :
    Mirrors r global v declared after' good' (x >>= f) (y >>= g) := by
  intro m m' twins
  have outcome := first m m' twins
  simp only [Bind.bind, EStateM.bind]
  revert outcome
  generalize x m = ended, y m' = ended'
  intro outcome
  cases outcome with
  | error renamed => exact .error renamed
  | ok twins upholds upholds' h =>
      have outcome := second _ _ h _ _ twins
      dsimp only
      revert outcome
      generalize f _ _ = ended, g _ _ = ended'
      intro outcome
      cases outcome with
      | error renamed => exact .error renamed
      | ok twins later later' h => exact .ok twins (upholds.trans later) (upholds'.trans later') h

theorem Mirrors.of_mem {x : Run β} {y : Run γ}
    (mirrors : Mirrors r global v declared after good x y)
    (h : r.old ∈ after → r.old ∈ after') : Mirrors r global v declared after' good x y := by
  intro m m' twins
  have outcome := mirrors m m' twins
  revert outcome
  generalize x m = ended, y m' = ended'
  intro outcome
  cases outcome with
  | error renamed => exact .error renamed
  | ok twins upholds upholds' related => exact .ok (twins.of_mem h) upholds upholds' related

theorem mirrors_located (span : Span) (result : Except EvalFault β) :
    Mirrors r global v declared declared Eq (located span result) (located span result) := by
  cases result with
  | ok x => exact mirrors_pure rfl
  | error fault => exact mirrors_fail fault span

theorem Mirrors.unlessCancelled {α : Type} {s : Setting α} {x : Run β} {y : Run γ}
    (mirrors : Mirrors r global v declared after good x y) (span : Span) :
    Mirrors r global v declared after good (do checkCancelled s span; x)
      (do checkCancelled s span; y) := by
  unfold checkCancelled
  split
  · exact mirrors_throw (.same _)
  · exact mirrors

/-- Twins have as many calls. -/
theorem Mirrors.atDepth {x : Nat → Run β} {y : Nat → Run γ}
    (each : ∀ depth, Mirrors r global v declared after good (x depth) (y depth)) :
    Mirrors r global v declared after good (do x (← get).callDepth) (do y (← get).callDepth) := by
  intro m m' twins
  have sameDepth : m'.callDepth = m.callDepth := congrArg List.length twins.alike.callers
  change Mirrored r global v after m m' good (x m.callDepth m) (y m'.callDepth m')
  rw [sameDepth]
  exact each m.callDepth m m' twins

theorem mirrors_loopItem (binder : Binder) (span : Span) (item : Value) :
    Mirrors r global v declared declared Eq (loopItem binder span item)
      (loopItem binder span item) := by
  unfold loopItem
  split
  · exact mirrors_located _ _
  · exact mirrors_pure rfl

/-! ### Scopes -/

/-- What is declared inside of a scope is gone when it is left. -/
theorem Mirrors.inScope {x : Run β} {y : Run γ}
    (mirrors : Mirrors r global v declared after good x y) :
    Mirrors r global v declared declared good (inScope x) (inScope y) := by
  intro m m' twins
  have outcome := mirrors _ _ twins.pushScope
  simp only [Run.inScope, between]
  revert outcome
  generalize x m.pushScope = ended, y m'.pushScope = ended'
  intro outcome
  cases outcome with
  | error renamed => exact .error renamed
  | ok inner upholds upholds' h =>
      have regains := Machine.regains_popScope upholds
      have regains' := Machine.regains_popScope upholds'
      exact .ok (twins.regains inner.alike.popScope regains regains')
        (regains.upholds twins.inStore) (regains'.upholds twins.inStore') h

theorem mirrors_define {name : String} (different : name ≠ r.new) (b : Binding) :
    Mirrors r global v declared (name :: declared) (fun _ _ => True) (modify (·.define name b))
      (modify (·.define name b)) :=
  fun _ _ twins => .ok (twins.define different b) (Machine.upholds_define twins.inStore name b)
    (Machine.upholds_define twins.inStore' name b) trivial

theorem mirrors_declare {name : String} (different : name ≠ r.new) (declaration : Nat)
    (label : Name) (params : List Param) :
    Mirrors r global v declared (name :: declared) (fun _ _ => True)
      (modify (·.declare declaration name label params))
      (modify (·.declare declaration name label params)) :=
  fun _ _ twins => .ok (twins.declare declaration label params different)
    (Machine.upholds_declare declaration label params twins.inStore name)
    (Machine.upholds_declare declaration label params twins.inStore' name) trivial

/-! ### Names -/

/-- A use of a name, which may be one that is renamed. -/
theorem mirrors_fetch {role : Role} {name : String} (different : name ≠ r.new)
    (missing : String → EvalFault) (span : Span) :
    Mirrors r global v declared declared Eq (fetch name (missing name) span)
      (fetch (r.apply declared role name) (missing (r.apply declared role name)) span) := by
  intro m m' twins
  unfold fetch Machine.lookup? Store.lookup?
  by_cases matched : name ∉ declared ∧ role = r.role ∧ name = r.old
  · rcases twins.renamed (matched.2.2 ▸ matched.1) with ⟨isOld, isNew⟩
    rw [Renaming.apply_eq_new matched.1 matched.2, isNew, matched.2.2, isOld]
    exact .ok twins (.refl m) (.refl m') rfl
  · have same : r.apply declared role name = name := if_neg matched
    rw [same, twins.resolve?_eq different]
    cases m.store.resolve? m.env.current name with
    | some found => exact .ok twins (.refl m) (.refl m') rfl
    | none =>
        dsimp only [Option.map_none]
        cases Builtin.ofName? name with
        | some function => exact .ok twins (.refl m) (.refl m') rfl
        | none => exact .error (.same _)

/-- An assignment.  What is renamed is final, so the assignment fails on both sides. -/
theorem mirrors_assign {role : Role} {name : String} (different : name ≠ r.new)
    (path : List Value.Step) (base : Option Operator) (value : Value) (span : Span) :
    Mirrors r global v declared declared Eq (assign name path base value span)
      (assign (r.apply declared role name) path base value span) := by
  intro m m' twins
  unfold assign Store.place
  by_cases matched : name ∉ declared ∧ role = r.role ∧ name = r.old
  · rcases twins.renamed (matched.2.2 ▸ matched.1) with ⟨isOld, isNew⟩
    rw [Renaming.apply_eq_new matched.1 matched.2, isNew, matched.2.2, isOld]
    exact .error (.final span)
  · have same : r.apply declared role name = name := if_neg matched
    have resolved' := twins.resolve?_eq different
    rw [same, resolved']
    cases resolved : m.store.resolve? m.env.current name with
    | none => exact .error (.same _)
    | some found =>
        obtain ⟨frame, b⟩ := found
        rw [resolved] at resolved'
        dsimp only
        cases replaceable : b.mutable with
        | false => exact .error (.same _)
        | true =>
            simp only [if_true]
            cases b.value.update (Value.combined base value span) path with
            | error e => exact .error (.same _)
            | ok given =>
                have regains := Machine.regains_write (Store.bound_of_resolve? resolved).1
                  replaceable given.1
                have regains' := Machine.regains_write (Store.bound_of_resolve? resolved').1
                  replaceable given.1
                exact .ok (twins.regains ⟨twins.alike.store.write frame name given.1,
                    twins.alike.env, twins.alike.callers, twins.alike.captured⟩ regains regains')
                  (regains.upholds twins.inStore) (regains'.upholds twins.inStore') rfl

end Run

end Formulae
