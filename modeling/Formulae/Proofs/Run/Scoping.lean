import Formulae.Proofs.Run.Layout
import Formulae.Proofs.Scope.CheckedStmt

/-!
# What a run finds under a name

While a formula runs, its frames follow the scopes of the text (`Layout.Describes`).  So a
name is found where its meaning says, unless a scope around the function that uses it has
declared the name in the meantime (`Layout.Describes.finds`).

A step of a run keeps this up (`Layout.Step`): it adds frames and bindings, writes down
what it found under each name, and fails on account of a name only when it assigns to a
stray, or to a binding from outside, that is final.
-/

namespace Formulae

/-- What was found is what the name means, or a declaration that strayed into its place. -/
def Resolution.Allows (r : Resolution) (found : Meaning) : Prop :=
  found = r.meaning ∨ ∃ d ∈ r.strays, found = .declared d

/-- Every name was looked up for one of the uses, which allows what was found. -/
def Journal.Agrees (uses : List Resolution) (journal : Journal) : Prop :=
  ∀ entry ∈ journal.entries, ∃ r ∈ uses, r.use = entry.use ∧ r.Allows entry.found

/-- If the run stopped on account of a name, it was one that is final where it was found,
though not where it is declared. -/
def Stop.Blames (uses : List Resolution) : Stop → Prop
  | .exhausted => True
  | .failed error =>
      match error.fault with
      | .unboundVariable _ | .unresolvedMethod _ => False
      | .bug (.finalAssigned name) =>
          ∃ r ∈ uses, r.use.usage = .target ∧ r.use.name = name ∧
            (r.meaning = .host ∨ ∃ d ∈ r.strays, d.type.isFinal)
      | _ => True

theorem Stop.blames_of_noName {uses : List Resolution} {error : EvalError}
    (noName : error.fault.isAboutName = false) : (Stop.failed error).Blames uses := by
  obtain ⟨fault, span⟩ := error
  cases fault with
  | bug cause => cases cause <;> trivial
  | _ => trivial

/-- Functions from outside make no functions of formulas: they hand on those they are
given. -/
def HandsOn (hosts : Hosts) : Prop :=
  ∀ (handle : Nat) (args : List Value) (v : Value), hosts handle args = .ok v →
    ∀ holds : Closure → Prop, (∀ arg ∈ args, arg.Functions holds) → v.Functions holds

/-- What a run of a checked formula relies on: the uses of names are checked, what checking
found outside is bound, and functions from outside make no functions of formulas. -/
structure Relies (globals : TypeEnv) (start : Start) (s : Setting Ty)
    (uses : List Resolution) : Prop where
  checked : ∀ r ∈ uses, r.Checked globals start.hosts
  bound : ∀ name, (globals.lookup name).isSome → start.hosts name
  handsOn : HandsOn s.hosts

namespace Layout

/-- The layout is that of a run so far.  Bindings made before the run are reached from
the frame that it starts from. -/
structure Describes (start : Start) (s : Setting Ty) (uses : List Resolution)
    (layout : Layout) (w : World) : Prop where
  grown : start.first ≤ layout.size
  size : w.machine.store.frames.size = layout.size
  parent : ∀ id, w.machine.store.parent? id = layout.parent? id
  made : ∀ id, w.journal.madeIn id = layout.made id
  planned : ∀ id, start.first ≤ id → id < layout.size →
    ∃ rest, layout.plan id = rest ++ layout.made id
  unmade : ∀ id, id < start.first ∨ layout.size ≤ id → layout.made id = []
  binds : ∀ id name, start.first ≤ id →
    (w.machine.store.find? id name).map Binding.mutable =
      (Declaration.find? (layout.made id) name).map fun d => !d.type.isFinal
  fine : ∀ id name b, start.first ≤ id → w.machine.store.find? id name = some b →
    layout.Fine start s uses b.value
  outside : ∀ name, (w.machine.store.resolve? start.base name).map (·.2.mutable) =
    start.mutable? name
  fineOutside : ∀ name frame b, w.machine.store.resolve? start.base name = some (frame, b) →
    layout.Fine start s uses b.value
  agrees : w.journal.Agrees uses

variable {start : Start} {s : Setting Ty} {uses : List Resolution} {layout : Layout}
  {w : World} {scope : Scope} {id : Nat} {name : String}

/-! ## Looking names up -/

/-- What a name is found as, from a place that follows the scopes: a binding made in the
run by a declaration, or one from outside. -/
inductive Found (start : Start) (scope : Scope) (name : String) (made : List Declaration)
    (b : Binding) : Prop
  | declared (d : Declaration) (newest : Declaration.find? made name = some d)
      (mutable : b.mutable = !d.type.isFinal)
      (allowed : scope.declaration? name = some d ∨ d ∈ scope.strays name)
  | outside (unmade : Declaration.find? made name = none)
      (undeclared : scope.declaration? name = none)
      (mutable : start.mutable? name = some b.mutable)

/-- Declarations that are made in a frame beyond those seen from a place stray there. -/
theorem FollowsFrame.later {frame : ScopeFrame} (follows : layout.FollowsFrame start id frame)
    {rest further : List Declaration} (planned : layout.plan id = rest ++ layout.made id)
    (reached : layout.made id = further ++ frame.seen) {d : Declaration} (member : d ∈ further) :
    frame.captured = true ∧ d ∈ frame.later := by
  constructor
  · cases captured : frame.captured with
    | true => rfl
    | false =>
        have exactly := follows.exactly captured
        rw [reached] at exactly
        rw [List.append_left_eq_self.mp exactly] at member
        cases member
  · have whole : rest ++ further = frame.later.reverse := by
      rw [← List.append_left_inj frame.seen, List.append_assoc, ← reached, ← planned,
        follows.planned]
    have inside : d ∈ rest ++ further := List.mem_append_right _ member
    rwa [whole, List.mem_reverse] at inside

/-- A name is found where its meaning says, or as a stray. -/
theorem Describes.finds (describes : layout.Describes start s uses w)
    (follows : layout.Follows start scope id) (name : String) :
    match w.machine.store.resolve? id name with
    | some (frame, b) =>
        layout.Fine start s uses b.value ∧ Found start scope name (layout.made frame) b
    | none => scope.declaration? name = none ∧ start.mutable? name = none := by
  induction scope generalizing id with
  | nil =>
      have isBase : id = start.base := follows
      subst isBase
      have mutable := describes.outside name
      cases resolved : w.machine.store.resolve? start.base name with
      | none =>
          rw [resolved] at mutable
          exact ⟨rfl, mutable.symm⟩
      | some found =>
          obtain ⟨frame, b⟩ := found
          rw [resolved] at mutable
          have older := (Store.bound_of_resolve? resolved).2
          have unmade := describes.unmade frame (.inl (Nat.lt_of_le_of_lt older start.older))
          refine ⟨describes.fineOutside name frame b resolved, .outside ?_ rfl mutable.symm⟩
          rw [unmade]
          rfl
  | cons frame outer inductionHypothesis =>
      rcases follows with ⟨here, parent, around, further⟩
      rcases here.reached with ⟨more, reached⟩
      rcases describes.planned id here.inRun here.inStore with ⟨rest, planned⟩
      have binds := describes.binds id name here.inRun
      rw [Store.resolve?_eq]
      cases found : Declaration.find? (layout.made id) name with
      | some d =>
          rw [found] at binds
          rcases Option.map_eq_some_iff.mp binds with ⟨b, bound, mutable⟩
          rw [bound]
          refine ⟨describes.fine id name b here.inRun bound, .declared d found mutable ?_⟩
          rw [reached, Declaration.find?_append, Option.or_eq_some_iff] at found
          rcases found with strayed | ⟨-, seen⟩
          · right
            have named := Declaration.name_of_find? strayed
            have later := here.later planned reached (List.mem_of_find?_eq_some strayed)
            apply List.mem_append_left
            rw [if_pos later.1, List.mem_filter]
            exact ⟨later.2, by simpa using named⟩
          · left
            rw [Scope.declaration?, seen, Option.some_or]
      | none =>
          rw [found, Option.map_none, Option.map_eq_none_iff] at binds
          rw [reached, Declaration.find?_append, Option.or_eq_none_iff] at found
          rw [binds, describes.parent id, around]
          have outside := inductionHypothesis further
          rw [Option.bind_some]
          cases resolved : w.machine.store.resolve? parent name with
          | none =>
              rw [resolved] at outside
              refine ⟨?_, outside.2⟩
              rw [Scope.declaration?, found.2, Option.none_or]
              exact outside.1
          | some pair =>
              rw [resolved] at outside
              refine ⟨outside.1, ?_⟩
              have strays : Scope.strays name outer ⊆ Scope.strays name (frame :: outer) := by
                rw [Scope.strays, found.2]
                exact List.subset_append_right _ _
              have same : Scope.declaration? name (frame :: outer) = Scope.declaration? name outer := by
                rw [Scope.declaration?, found.2, Option.none_or]
              cases outside.2 with
              | declared d newest mutable allowed =>
                  exact .declared d newest mutable (same ▸ allowed.imp_right (@strays d))
              | outside unmade undeclared mutable =>
                  exact .outside unmade (same.trans undeclared) mutable

/-- A use of a name from a place in the scopes. -/
abbrev useIn (start : Start) (scope : Scope) (use : Use) : Resolution :=
  ⟨use, scope.meaning start.hosts use.name, scope.strays use.name⟩

theorem Describes.allows (describes : layout.Describes start s uses w)
    (follows : layout.Follows start scope w.machine.env.current) (use : Use) :
    (useIn start scope use).Allows (w.meaning use.name) := by
  have finds := describes.finds follows use.name
  unfold World.meaning
  cases resolved : w.machine.store.resolve? w.machine.env.current use.name with
  | none =>
      rw [resolved] at finds
      left
      simp only [Scope.meaning, finds.1, Start.hosts, finds.2]
      rfl
  | some pair =>
      obtain ⟨frame, b⟩ := pair
      rw [resolved] at finds
      dsimp only
      rw [describes.made frame]
      cases finds.2 with
      | declared d newest _ allowed =>
          rw [newest]
          rcases allowed with declared | strays
          · left
            simp only [Scope.meaning, declared]
          · exact .inr ⟨d, strays, rfl⟩
      | outside unmade undeclared mutable =>
          rw [unmade]
          left
          simp only [Scope.meaning, undeclared, Start.hosts, mutable]
          rfl

/-! ## Steps -/

/-- A step of a run, from any layout later than a given one in which the innermost frame
follows the scopes.  In the layout that it leads to, only the innermost frame may have
executed more declarations; the result and this frame are as `result` says. -/
def Step (start : Start) (s : Setting Ty) (uses : List Resolution) (layout : Layout)
    (scope : Scope) {β : Type} (x : Logged β) (result : Layout → Nat → β → Prop) : Prop :=
  ∀ (before : Layout) (w : World), layout.Grows before → before.Describes start s uses w →
    before.Follows start scope w.machine.env.current →
    match x w with
    | .ok value w' =>
        ∃ after : Layout, before.Grows after ∧ after.Describes start s uses w' ∧
          (∀ i < before.size, i ≠ w.machine.env.current → after.made i = before.made i) ∧
          w'.machine.env = w.machine.env ∧ w'.machine.callers = w.machine.callers ∧
          result after w.machine.env.current value
    | .error stop w' => w'.journal.Agrees uses ∧ stop.Blames uses

/-- A step that goes on in the same place. -/
abbrev Evaluates (start : Start) (s : Setting Ty) (uses : List Resolution) (layout : Layout)
    (scope : Scope) {β : Type} (x : Logged β) (result : Layout → β → Prop) : Prop :=
  Step start s uses layout scope x fun after id value =>
    after.Follows start scope id ∧ result after value

/-- All functions in what a statement returns fit. -/
def FineFlow (start : Start) (s : Setting Ty) (uses : List Resolution) (layout : Layout) :
    Flow → Prop
  | .ret v => layout.Fine start s uses v
  | .next | .brk | .cont => True

/-- Statements that end in another place, which is this one if they end in the usual way. -/
abbrev Executes (start : Start) (s : Setting Ty) (uses : List Resolution) (layout : Layout)
    (scope next : Scope) (x : Logged Flow) : Prop :=
  Step start s uses layout scope x fun after id flow =>
    after.FineFlow start s uses flow ∧
      match flow with
      | .next => after.Follows start next id
      | .ret _ | .brk | .cont => ∃ place : Scope, after.Follows start place id

variable {β γ : Type} {x : Logged β} {next : Scope}

theorem Step.mono {result result' : Layout → Nat → β → Prop}
    (step : Step start s uses layout scope x result)
    (h : ∀ after id value, layout.Grows after → result after id value → result' after id value) :
    Step start s uses layout scope x result' := by
  intro before w grows describes follows
  have outcome := step before w grows describes follows
  cases ran : x w with
  | error stop w' =>
      rw [ran] at outcome
      exact outcome
  | ok value w' =>
      rw [ran] at outcome
      rcases outcome with ⟨after, grows', describes', quiet, env, callers, ends⟩
      exact ⟨after, grows', describes', quiet, env, callers,
        h after _ value (grows.trans grows') ends⟩

theorem Step.grows {result : Layout → Nat → β → Prop} {layout' : Layout}
    (step : Step start s uses layout scope x result) (grows : layout.Grows layout') :
    Step start s uses layout' scope x result :=
  fun before w grows' => step before w (grows.trans grows')

/-- One step after the other. -/
theorem Step.bind {f : β → Logged γ} {result : Layout → Nat → β → Prop}
    {result' : Layout → Nat → γ → Prop} (first : Step start s uses layout scope x result)
    (second : ∀ after id value, layout.Grows after → result after id value →
      ∃ scope', after.Follows start scope' id ∧ Step start s uses after scope' (f value) result') :
    Step start s uses layout scope (x >>= f) result' := by
  intro before w grows describes follows
  have outcome := first before w grows describes follows
  simp only [Bind.bind, EStateM.bind]
  cases ran : x w with
  | error stop w' =>
      rw [ran] at outcome
      exact outcome
  | ok value w' =>
      rw [ran] at outcome
      rcases outcome with ⟨middle, grows', describes', quiet, env, callers, ends⟩
      rcases second middle _ value (grows.trans grows') ends with ⟨scope', follows', further⟩
      rw [← env] at follows'
      have outcome := further middle w' (.refl middle) describes' follows'
      dsimp only
      cases ran' : f value w' with
      | error stop w'' =>
          rw [ran'] at outcome
          exact outcome
      | ok value' w'' =>
          rw [ran'] at outcome
          rcases outcome with ⟨after, grows'', describes'', quiet', env', callers', ends'⟩
          rw [env] at ends'
          refine ⟨after, grows'.trans grows'', describes'', ?_, env'.trans env,
            callers'.trans callers, ends'⟩
          intro i old elsewhere
          rw [quiet' i (Nat.lt_of_lt_of_le old grows'.size) (env ▸ elsewhere),
            quiet i old elsewhere]

/-- A step after an expression. -/
theorem Evaluates.bind {f : β → Logged γ} {result : Layout → β → Prop}
    {result' : Layout → Nat → γ → Prop}
    (first : Evaluates start s uses layout scope x result)
    (second : ∀ after value, layout.Grows after → result after value →
      Step start s uses after scope (f value) result') :
    Step start s uses layout scope (x >>= f) result' :=
  Step.bind first fun after _ value grows ends =>
    ⟨scope, ends.1, second after value grows ends.2⟩

theorem step_pure {value : β} {result : Layout → Nat → β → Prop}
    (h : ∀ after id, layout.Grows after → after.Follows start scope id → result after id value) :
    Step start s uses layout scope (pure value) result :=
  fun before _ grows describes follows =>
    ⟨before, .refl before, describes, fun _ _ _ => rfl, rfl, rfl, h before _ grows follows⟩

theorem evaluates_pure {value : β} {result : Layout → β → Prop}
    (h : ∀ after, layout.Grows after → result after value) :
    Evaluates start s uses layout scope (pure value) result :=
  step_pure fun after _ grows follows => ⟨follows, h after grows⟩

theorem step_throw {result : Layout → Nat → β → Prop} {stop : Stop} (blames : stop.Blames uses) :
    Step start s uses layout scope (throw stop : Logged β) result :=
  fun _ _ _ describes _ => ⟨describes.agrees, blames⟩

theorem step_fail {result : Layout → Nat → β → Prop} {fault : EvalFault} {span : Span}
    (noName : fault.isAboutName = false) :
    Step start s uses layout scope (Logged.lift (Run.fail fault span) : Logged β) result :=
  fun _ _ _ describes _ => ⟨describes.agrees, Stop.blames_of_noName noName⟩

/-- A computation on values. -/
theorem evaluates_located {result : Except EvalFault β} {good : Layout → β → Prop} {span : Span}
    (ends : ∀ after, layout.Grows after →
      Ends (good after) (fun fault => fault.isOfValues) result) :
    Evaluates start s uses layout scope (Logged.lift (Run.located span result)) good := by
  cases result with
  | ok value => exact evaluates_pure ends
  | error fault =>
      exact step_fail (EvalFault.isAboutName_of_isOfValues (ends layout (.refl layout)))

/-! ## Names -/

theorem Describes.note (describes : layout.Describes start s uses w)
    (follows : layout.Follows start scope w.machine.env.current) {use : Use}
    (member : useIn start scope use ∈ uses) : layout.Describes start s uses (w.note use) :=
  { describes with
    agrees := List.forall_mem_cons.mpr
      ⟨⟨_, member, rfl, describes.allows follows use⟩, describes.agrees⟩ }

theorem evaluates_note {use : Use} (member : useIn start scope use ∈ uses) :
    Evaluates start s uses layout scope (Logged.note use) fun _ _ => True :=
  fun before _ _ describes follows =>
    ⟨before, .refl before, describes.note follows member, fun _ _ _ => rfl, rfl, rfl, follows,
      trivial⟩

variable {globals : TypeEnv}

/-- A name that means nothing that was bound has the type of a built-in function. -/
theorem builtin_of_unbound (relies : Relies globals start s uses) {use : Use}
    (member : useIn start scope use ∈ uses) (undeclared : scope.declaration? use.name = none)
    (unbound : start.mutable? use.name = none) :
    ∃ function, Builtin.ofName? use.name = some function ∧
      use.node.label = function.signature.type := by
  have type := (relies.checked _ member).type
  have unbound' : start.hosts use.name = false := by rw [Start.hosts, unbound]; rfl
  have meaning : scope.meaning start.hosts use.name = .builtin := by
    simp only [Scope.meaning, undeclared, unbound']
    rfl
  simp only [meaning] at type
  have notGlobal : globals.lookup use.name = none := by
    cases found : globals.lookup use.name with
    | none => rfl
    | some type =>
        have bound := relies.bound use.name (by rw [found]; rfl)
        rw [unbound'] at bound
        cases bound
  rw [Typing.nameType?, notGlobal, Option.none_or, Option.map_eq_some_iff] at type
  rcases type.2 with ⟨function, found, same⟩
  exact ⟨function, found, same.symm⟩

/-- Looking a name up always finds something. -/
theorem evaluates_fetch (relies : Relies globals start s uses) {use : Use}
    (member : useIn start scope use ∈ uses) (missing : EvalFault) :
    Evaluates start s uses layout scope (Logged.fetch use missing)
      fun after v => after.Fine start s uses v := by
  apply (evaluates_note member).bind
  intro later _ grows _ before w grows' describes follows
  have finds := describes.finds follows use.name
  unfold Logged.lift Run.fetch Machine.lookup? Store.lookup?
  cases resolved : w.machine.store.resolve? w.machine.env.current use.name with
  | some pair =>
      rw [resolved] at finds
      exact ⟨before, .refl before, describes, fun _ _ _ => rfl, rfl, rfl, follows, finds.1⟩
  | none =>
      rw [resolved] at finds
      rcases builtin_of_unbound relies member finds.1 finds.2 with ⟨function, found, -⟩
      rw [Option.map_none, found]
      exact ⟨before, .refl before, describes, fun _ _ _ => rfl, rfl, rfl, follows,
        Value.functions_builtin function⟩

/-! ## Assignments -/

theorem Describes.write (describes : layout.Describes start s uses w) (frame : Nat)
    (name : String) {changed : Value} (fine : layout.Fine start s uses changed) :
    layout.Describes start s uses
      { w with machine.store := w.machine.store.write frame name changed } where
  grown := describes.grown
  size := (Store.size_modify _ _ _ fun f => f.parent_assign name changed).trans describes.size
  parent id :=
    (Store.parent?_modify _ _ _ _ fun f => f.parent_assign name changed).trans
      (describes.parent id)
  made := describes.made
  planned := describes.planned
  unmade := describes.unmade
  binds id key inRun := by
    rw [← describes.binds id key inRun, Store.find?_write, Option.map_map]
    congr 1
    funext b
    dsimp only [Function.comp]
    split <;> rfl
  fine id key b inRun bound := by
    rw [Store.find?_write, Option.map_eq_some_iff] at bound
    rcases bound with ⟨old, bound, rfl⟩
    split
    · exact fine
    · exact describes.fine id key old inRun bound
  outside key := by
    rw [← describes.outside key, Store.resolve?_write, Option.map_map]
    congr 1
    funext pair
    dsimp only [Function.comp]
    split <;> rfl
  fineOutside key other b resolved := by
    rw [Store.resolve?_write, Option.map_eq_some_iff] at resolved
    rcases resolved with ⟨⟨found, old⟩, resolved, same⟩
    cases same
    split
    · exact fine
    · exact describes.fineOutside key _ old resolved
  agrees := describes.agrees

/-- An assignment to a variable, or to an element below it. -/
theorem evaluates_assign (relies : Relies globals start s uses) {use : Use}
    (member : useIn start scope use ∈ uses) (isTarget : use.usage = .target)
    (path : List Value.Step) (base : Option Operator) {value : Value}
    (fine : layout.Fine start s uses value) (span : Span) :
    Evaluates start s uses layout scope
      (Logged.lift (Run.assign use.name path base value span))
      fun after v => after.Fine start s uses v := by
  intro before w grows describes follows
  have finds := describes.finds follows use.name
  have writable := (relies.checked _ member).writable isTarget
  unfold Logged.lift Run.assign Store.place
  cases resolved : w.machine.store.resolve? w.machine.env.current use.name with
  | none =>
      rw [resolved] at finds
      rcases builtin_of_unbound relies member finds.1 finds.2 with ⟨function, -, type⟩
      have final : use.node.label.isFinal = true := by rw [type]; rfl
      rw [final] at writable
      cases writable
  | some pair =>
      obtain ⟨frame, b⟩ := pair
      rw [resolved] at finds
      rcases finds with ⟨fineOld, found⟩
      dsimp only
      cases mutable : b.mutable with
      | false =>
          rw [if_neg (by simp)]
          refine ⟨describes.agrees, _, member, isTarget, rfl, ?_⟩
          cases found with
          | declared d newest same allowed =>
              have final : d.type.isFinal = true := by
                rw [mutable] at same
                simpa using same
              rcases allowed with declared | strays
              · have type := (relies.checked _ member).type
                simp only [Scope.meaning, declared] at type
                rw [← type.2, final] at writable
                cases writable
              · exact .inr ⟨d, strays, final⟩
          | outside unmade undeclared same =>
              left
              simp only [Scope.meaning, undeclared, Start.hosts, same]
              rfl
      | true =>
          rw [if_pos rfl]
          dsimp only
          have combines (old : Value) : Value.GivesAt
              (fun part => ∀ f, part = .function (.declared f) → before.Fits start s uses f)
              (Value.combined base value span old) :=
            Value.gives_combined (@Value.no_function_of_isData _) old (fine.grows grows)
          have update := Value.ends_update (@Value.no_function_of_isData _)
            (fun old _ => combines old) path fineOld
          cases ran : b.value.update (Value.combined base value span) path with
          | error error =>
              exact ⟨describes.agrees, Stop.blames_of_noName
                (EvalFault.isAboutName_of_isOfValues (update.of_error ran))⟩
          | ok given =>
              have fine' := update.of_ok ran
              exact ⟨before, .refl before, describes.write frame use.name fine'.1,
                fun _ _ _ => rfl, rfl, rfl, follows, fine'.2⟩

/-! ## Declarations -/

/-- A machine that binds a name in the innermost frame and is otherwise as it was, as far
as scopes are concerned. -/
structure Defines (m m' : Machine) (name : String) (b : Binding) : Prop where
  env : m'.env = m.env
  callers : m'.callers = m.callers
  size : m'.store.frames.size = m.store.frames.size
  parent : ∀ id, m'.store.parent? id = m.store.parent? id
  finds : m.env.current < m.store.frames.size → ∀ id key, m'.store.find? id key =
    if id = m.env.current ∧ key = name then some b else m.store.find? id key

theorem defines_define (m : Machine) (name : String) (b : Binding) :
    Defines m (m.define name b) name b where
  env := rfl
  callers := rfl
  size := Store.size_modify _ _ _ fun frame => frame.parent_define name b
  parent _ := Store.parent?_modify _ _ _ _ fun frame => frame.parent_define name b
  finds inStore id key := Store.find?_define inStore id name key b

theorem defines_declare (m : Machine) (declaration : Nat) (name : String) (label : Name)
    (params : List Param) :
    Defines m (m.declare declaration name label params) name
      ⟨.function (.declared ⟨m.store.declared, declaration, name, label, params, m.env.current⟩),
        false⟩ where
  env := rfl
  callers := rfl
  size := Store.size_modify m.store.freshFunction.2 _ _ fun frame => frame.parent_define name _
  parent _ :=
    Store.parent?_modify m.store.freshFunction.2 _ _ _ fun frame => frame.parent_define name _
  finds inStore id key := @Store.find?_define m.store.freshFunction.2 _ inStore id name key _

theorem Describes.make (describes : layout.Describes start s uses w) {frame : ScopeFrame}
    {outer : Scope} (follows : layout.Follows start (frame :: outer) w.machine.env.current)
    (current : frame.captured = false) {d : Declaration} {rest : List Declaration}
    (next : frame.later = d :: rest) {change : Machine → Machine} {b : Binding}
    (defines : Defines w.machine (change w.machine) d.name b)
    (mutable : b.mutable = !d.type.isFinal)
    (fine : (layout.make w.machine.env.current d).Fine start s uses b.value) :
    (layout.make w.machine.env.current d).Describes start s uses (w.make d change) := by
  have here := follows.1
  have grows := layout.grows_make w.machine.env.current d
  have inStore : w.machine.env.current < w.machine.store.frames.size :=
    describes.size ▸ here.inStore
  have finds := defines.finds inStore
  have outside (key : String) : (change w.machine).store.resolve? start.base key =
      w.machine.store.resolve? start.base key := by
    apply Store.resolve?_congr
    intro i older
    refine ⟨?_, defines.parent i⟩
    have inRun := here.inRun
    have before := start.older
    rw [finds, if_neg]
    rintro ⟨same, -⟩
    omega
  refine
    { grown := describes.grown
      size := defines.size.trans describes.size
      parent := fun id => (defines.parent id).trans (describes.parent id)
      made := ?_
      planned := ?_
      unmade := ?_
      binds := ?_
      fine := ?_
      outside := fun key => (congrArg _ (outside key)).trans (describes.outside key)
      fineOutside := fun key other b resolved =>
        (describes.fineOutside key other b ((outside key).symm.trans resolved)).grows grows
      agrees := describes.agrees }
  · intro id
    by_cases same : id = w.machine.env.current
    · subst same
      rw [World.make, Journal.madeIn_make_self, describes.made]
      exact (if_pos rfl).symm
    · rw [World.make, Journal.madeIn_make_of_ne _ _ same, describes.made]
      exact (if_neg same).symm
  · intro id inRun old
    by_cases same : id = w.machine.env.current
    · subst same
      refine ⟨rest.reverse, ?_⟩
      have planned : layout.plan w.machine.env.current = _ := here.planned
      rw [next, List.reverse_cons, List.append_assoc, ← here.exactly current] at planned
      exact planned.trans (congrArg (rest.reverse ++ ·) (if_pos rfl).symm)
    · rcases describes.planned id inRun old with ⟨ahead, planned⟩
      exact ⟨ahead, planned.trans (congrArg (ahead ++ ·) (if_neg same).symm)⟩
  · intro id away
    have different : id ≠ w.machine.env.current := by
      rintro rfl
      have inRun := here.inRun
      have old := here.inStore
      rcases away with before | beyond
      · exact absurd inRun (Nat.not_le.mpr before)
      · exact absurd old (Nat.not_lt.mpr beyond)
    exact (if_neg different).trans (describes.unmade id away)
  · intro id key inRun
    rw [World.make, finds]
    by_cases same : id = w.machine.env.current
    · subst same
      have made : (layout.make w.machine.env.current d).made w.machine.env.current =
          d :: layout.made w.machine.env.current := if_pos rfl
      rw [made, Declaration.find?_cons]
      by_cases named : key = d.name
      · subst named
        rw [if_pos ⟨rfl, rfl⟩, if_pos rfl, Option.map_some, Option.map_some, mutable]
      · rw [if_neg (fun both => named both.2), if_neg (Ne.symm named)]
        exact describes.binds _ key inRun
    · have made : (layout.make w.machine.env.current d).made id = layout.made id := if_neg same
      rw [made, if_neg (fun both => same both.1)]
      exact describes.binds id key inRun
  · intro id key b' inRun bound
    rw [World.make, finds] at bound
    split at bound
    · cases bound
      exact fine
    · exact (describes.fine id key b' inRun bound).grows grows

/-- The innermost scope is not captured and makes these declarations next. -/
def Awaits (scope : Scope) (declarations : List Declaration) : Prop :=
  ∃ frame outer rest, scope = frame :: outer ∧ frame.captured = false ∧
    frame.later = declarations ++ rest

theorem Awaits.tail {d : Declaration} {rest : List Declaration} (awaits : Awaits scope (d :: rest)) :
    Awaits (scope.declare d) rest := by
  rcases awaits with ⟨frame, outer, others, rfl, current, next⟩
  exact ⟨_, outer, others, rfl, current, by rw [next]; rfl⟩

theorem awaits_enter (declarations : List Declaration) (scope : Scope) :
    Awaits (scope.enter declarations) declarations :=
  ⟨_, scope, [], rfl, rfl, (List.append_nil _).symm⟩

/-- A declaration takes the place past itself. -/
theorem step_make {d : Declaration} {rest : List Declaration} (awaits : Awaits scope (d :: rest))
    {change : Machine → Machine}
    (defines : ∀ (before : Layout) (m : Machine), layout.Grows before →
      before.Follows start (scope.declare d) m.env.current →
      ∃ b : Binding, Defines m (change m) d.name b ∧ b.mutable = (!d.type.isFinal) ∧
        before.Fine start s uses b.value) :
    Step start s uses layout scope (Logged.make d change) fun after id _ =>
      after.Follows start (scope.declare d) id := by
  intro before w grows describes follows
  rcases awaits with ⟨frame, outer, others, rfl, current, next⟩
  have after := follows.make current next
  have grows' := before.grows_make w.machine.env.current d
  rcases defines _ w.machine (grows.trans grows') after with ⟨b, defines, mutable, fine⟩
  exact ⟨_, grows', describes.make follows current next defines mutable fine,
    fun i _ elsewhere => if_neg elsewhere, defines.env, defines.callers, after⟩

/-! ## Scopes -/

theorem Describes.enter (describes : layout.Describes start s uses w) {parent : Nat}
    (inStore : parent < layout.size) (declarations : List Declaration) {m : Machine}
    (pushed : m.store = (w.machine.store.push (some parent)).2) :
    (layout.enter declarations parent inStore).Describes start s uses { w with machine := m } := by
  have grows := grows_enter declarations inStore
  have size := describes.size
  have inStore' : parent < w.machine.store.frames.size := size ▸ inStore
  have parents (id : Nat) : m.store.parent? id =
      (layout.enter declarations parent inStore).parent? id := by
    by_cases isNew : id = layout.size
    · subst isNew
      rw [pushed, ← size, Store.parent?_push_self inStore', size]
      exact (if_pos rfl).symm
    · rw [pushed, Store.parent?_push_of_ne _ _ (size ▸ isNew), describes.parent]
      exact (if_neg isNew).symm
  have finds (id : Nat) (key : String) : m.store.find? id key = w.machine.store.find? id key := by
    rw [pushed, Store.find?_push]
  have outside (key : String) :
      m.store.resolve? start.base key = w.machine.store.resolve? start.base key := by
    apply Store.resolve?_congr
    intro i older
    refine ⟨finds i key, ?_⟩
    have before := start.older
    have grown := describes.grown
    rw [parents i, describes.parent i]
    exact if_neg (by omega)
  refine
    { grown := Nat.le_succ_of_le describes.grown
      size := by rw [pushed, Store.size_push, size]; rfl
      parent := parents
      made := describes.made
      planned := ?_
      unmade := fun id away => describes.unmade id (away.imp_right Nat.le_of_succ_le)
      binds := fun id key inRun => (congrArg _ (finds id key)).trans (describes.binds id key inRun)
      fine := fun id key b inRun bound =>
        (describes.fine id key b inRun ((finds id key).symm.trans bound)).grows grows
      outside := fun key => (congrArg _ (outside key)).trans (describes.outside key)
      fineOutside := fun key other b resolved =>
        (describes.fineOutside key other b ((outside key).symm.trans resolved)).grows grows
      agrees := describes.agrees }
  intro id inRun old
  by_cases isNew : id = layout.size
  · subst isNew
    refine ⟨declarations.reverse, ?_⟩
    have unmade : (layout.enter declarations parent inStore).made layout.size = [] :=
      describes.unmade _ (.inr (Nat.le_refl _))
    rw [unmade, List.append_nil]
    exact if_pos rfl
  · rcases describes.planned id inRun
      (Nat.lt_of_le_of_ne (Nat.le_of_lt_succ old) isNew) with ⟨rest, planned⟩
    exact ⟨rest, (if_neg isNew).trans planned⟩

/-- A step in a new frame leaves older frames as they are. -/
theorem Step.entered {outer : Scope} {declarations : List Declaration} {result : Layout → β → Prop}
    (inside : Step start s uses layout (outer.enter declarations) x fun after _ => result after)
    {before : Layout} (grows : layout.Grows before) (describes : before.Describes start s uses w)
    {parent : Nat} (follows : before.Follows start outer parent) {m : Machine}
    (pushed : m.store = (w.machine.store.push (some parent)).2)
    (current : m.env.current = w.machine.store.frames.size) :
    match x { w with machine := m } with
    | .ok value w' =>
        ∃ after : Layout, before.Grows after ∧ after.Describes start s uses w' ∧
          (∀ i < before.size, after.made i = before.made i) ∧
          w'.machine.env = m.env ∧ w'.machine.callers = m.callers ∧ result after value
    | .error stop w' => w'.journal.Agrees uses ∧ stop.Blames uses := by
  have inStore := follows.lt_size describes.grown
  have entered := grows_enter declarations inStore
  have isNew : m.env.current = before.size := current.trans describes.size
  have follows' := follows.enter describes.grown (describes.unmade _ (.inr (Nat.le_refl _)))
    declarations
  rw [← isNew] at follows'
  have outcome := inside _ { w with machine := m } (grows.trans entered)
    (describes.enter inStore declarations pushed) follows'
  cases ran : x { w with machine := m } with
  | error stop w' =>
      rw [ran] at outcome
      exact outcome
  | ok value w' =>
      rw [ran] at outcome
      rcases outcome with ⟨after, grows', describes', quiet, env, callers, ends⟩
      refine ⟨after, entered.trans grows', describes', fun i old => ?_, env, callers, ends⟩
      exact quiet i (Nat.lt_succ_of_lt old) (isNew ▸ Nat.ne_of_lt old)

/-- A step in a scope of its own. -/
theorem Step.inScope (declarations : List Declaration) {result : Layout → β → Prop}
    (inside : Step start s uses layout (scope.enter declarations) x fun after _ => result after) :
    Evaluates start s uses layout scope (Logged.inScope x) result := by
  intro before w grows describes follows
  have outcome := inside.entered grows describes follows (m := w.machine.pushScope) rfl rfl
  unfold Logged.inScope Logged.between
  cases ran : x { w with machine := w.machine.pushScope } with
  | error stop w' =>
      rw [ran] at outcome
      exact outcome
  | ok value w' =>
      rw [ran] at outcome
      rcases outcome with ⟨after, grows', describes', quiet, env, callers, ends⟩
      exact ⟨after, grows', { describes' with }, fun i old _ => quiet i old,
        congrArg Environment.pop env, callers, follows.grows grows' (.inr quiet), ends⟩

/-- A step inside a call of a function around which the scopes are captured. -/
theorem Step.inCall {outer : Scope} {declarations : List Declaration} {frame : Nat}
    {result : Layout → β → Prop} (captured : ∀ frame ∈ outer, frame.captured = true)
    (around : layout.Follows start outer frame)
    (inside : Step start s uses layout (outer.enter declarations) x fun after _ => result after) :
    Evaluates start s uses layout scope (Logged.inCall frame x) result := by
  intro before w grows describes follows
  have outcome := inside.entered grows describes (around.grows grows (.inl captured))
    (m := w.machine.enterCall frame) rfl rfl
  unfold Logged.inCall Logged.between
  cases ran : x { w with machine := w.machine.enterCall frame } with
  | error stop w' =>
      rw [ran] at outcome
      exact outcome
  | ok value w' =>
      rw [ran] at outcome
      rcases outcome with ⟨after, grows', describes', quiet, env, callers, ends⟩
      have callers' : w'.machine.callers = w.machine.env :: w.machine.callers := callers
      have left : w'.machine.leaveCall =
          { w'.machine with env := w.machine.env, callers := w.machine.callers } := by
        rw [Machine.leaveCall, callers']
      dsimp only
      rw [left]
      exact ⟨after, grows', { describes' with }, fun i old _ => quiet i old, rfl, rfl,
        follows.grows grows' (.inr quiet), ends⟩

end Layout

end Formulae
