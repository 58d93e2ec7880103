import Formulae.Proofs.Run.Frames
import Formulae.Proofs.Run.Journal
import Formulae.Proofs.Value.Parts

/-!
# Frames and scopes

Each frame of a run is entered for one scope of the text.  The declarations of the
scope are its plan, and the frame has executed the first of them (`Layout`).  A frame
follows scopes outwards (`Layout.Follows`): a scope in which the code under way stands
has been executed up to that place exactly, while a captured scope may have been
executed further.

A function value fits its run if its frame follows the scopes around its declaration
(`Layout.Fits`).  Frames only grow, so it goes on fitting (`Layout.Fits.grows`).
-/

namespace Formulae

/-- What a run starts from: the innermost frame and the number of the first new one,
and the names bound from outside, with whether they may be assigned to. -/
structure Start where
  base : Nat
  first : Nat
  older : base < first
  mutable? : String → Option Bool

/-- The names bound from outside. -/
def Start.hosts (start : Start) (name : String) : Bool :=
  (start.mutable? name).isSome

/-- The frames of a run as far as scopes are concerned: for each frame the declarations
that it is for and those executed in it, both the latest first, and the frame around
it, which is older. -/
structure Layout where
  size : Nat
  plan : Nat → List Declaration
  made : Nat → List Declaration
  parent? : Nat → Option Nat
  older : ∀ id outer, parent? id = some outer → outer < id

namespace Layout

/-- A frame is in the middle of a scope, or beyond that if the scope is captured. -/
structure FollowsFrame (start : Start) (layout : Layout) (id : Nat) (frame : ScopeFrame) :
    Prop where
  inRun : start.first ≤ id
  inStore : id < layout.size
  planned : layout.plan id = frame.later.reverse ++ frame.seen
  reached : ∃ further, layout.made id = further ++ frame.seen
  exactly : frame.captured = false → layout.made id = frame.seen

/-- A frame and those around it follow the scopes outwards, up to what was there before
the run. -/
def Follows (start : Start) (layout : Layout) : Scope → Nat → Prop
  | [], id => id = start.base
  | frame :: outer, id =>
      layout.FollowsFrame start id frame ∧
        ∃ parent, layout.parent? id = some parent ∧ Follows start layout outer parent

/-- The bodies of these functions are those of the setting, and these uses of names are
among the uses of the formula. -/
structure Known (s : Setting Ty) (uses : List Resolution)
    (functions : List (Nat × List TypedStmt)) (resolutions : List Resolution) : Prop where
  bodies : ∀ function ∈ functions, s.body function.1 = function.2
  uses : resolutions ⊆ uses

/-- The place in the body of a function after its parameters. -/
def bodyScope (scope : Scope) (function : Nat) (params : List Param)
    (body : List TypedStmt) : Scope :=
  let given := Param.declarations function 0 params
  (scope.enter (given ++ Stmt.declarations body)).declareAll given

/-- The frame of the function follows the scopes around its declaration. -/
def Fits (start : Start) (s : Setting Ty) (uses : List Resolution) (layout : Layout)
    (f : Closure) : Prop :=
  let body := s.body f.declaration
  ∃ scope : Scope, (∀ frame ∈ scope, frame.captured = true) ∧
    layout.Follows start scope f.frame ∧
    Known s uses (Stmt.functionsAll body)
      (Stmt.resolutionsAll start.hosts (bodyScope scope f.declaration f.params body) body)

/-- All functions in the value that were declared in the formula fit. -/
def Fine (start : Start) (s : Setting Ty) (uses : List Resolution) (layout : Layout)
    (v : Value) : Prop :=
  v.Functions (layout.Fits start s uses)

/-! ## Growth -/

/-- The layout after some time. -/
structure Grows (layout layout' : Layout) : Prop where
  size : layout.size ≤ layout'.size
  plan : ∀ id < layout.size, layout'.plan id = layout.plan id
  parent : ∀ id < layout.size, layout'.parent? id = layout.parent? id
  made : ∀ id < layout.size, ∃ further, layout'.made id = further ++ layout.made id

variable {start : Start} {s : Setting Ty} {uses : List Resolution} {layout layout' : Layout}
  {scope : Scope} {id : Nat}

theorem Grows.refl (layout : Layout) : layout.Grows layout :=
  ⟨Nat.le_refl _, fun _ _ => rfl, fun _ _ => rfl, fun _ _ => ⟨[], rfl⟩⟩

theorem Grows.trans {layout'' : Layout} (first : layout.Grows layout')
    (second : layout'.Grows layout'') : layout.Grows layout'' where
  size := Nat.le_trans first.size second.size
  plan id old := (second.plan id (Nat.lt_of_lt_of_le old first.size)).trans (first.plan id old)
  parent id old :=
    (second.parent id (Nat.lt_of_lt_of_le old first.size)).trans (first.parent id old)
  made id old := by
    rcases first.made id old with ⟨further, sofar⟩
    rcases second.made id (Nat.lt_of_lt_of_le old first.size) with ⟨more, all⟩
    exact ⟨more ++ further, by rw [all, sofar, List.append_assoc]⟩

/-- A frame goes on following its scopes if nothing is executed in those of its frames
whose scopes are not captured. -/
theorem Follows.grows (follows : layout.Follows start scope id) (grows : layout.Grows layout')
    (quiet : (∀ frame ∈ scope, frame.captured = true) ∨
      ∀ i < layout.size, layout'.made i = layout.made i) :
    layout'.Follows start scope id := by
  induction scope generalizing id with
  | nil => exact follows
  | cons frame outer inductionHypothesis =>
      rcases follows with ⟨here, parent, around, further⟩
      have inStore := here.inStore
      rcases here.reached with ⟨sofar, reached⟩
      rcases grows.made id inStore with ⟨more, grown⟩
      refine ⟨⟨here.inRun, Nat.lt_of_lt_of_le inStore grows.size, ?_, ?_, ?_⟩, parent, ?_, ?_⟩
      · rw [grows.plan id inStore, here.planned]
      · exact ⟨more ++ sofar, by rw [grown, reached, List.append_assoc]⟩
      · intro current
        rcases quiet with captured | quiet
        · rw [captured frame List.mem_cons_self] at current
          cases current
        · rw [quiet id inStore, here.exactly current]
      · rw [grows.parent id inStore, around]
      · apply inductionHypothesis further
        exact quiet.imp_left fun captured frame member =>
          captured frame (List.mem_cons_of_mem _ member)

theorem Fits.grows {f : Closure} (fits : layout.Fits start s uses f)
    (grows : layout.Grows layout') : layout'.Fits start s uses f := by
  rcases fits with ⟨scope, captured, follows, known⟩
  exact ⟨scope, captured, follows.grows grows (.inl captured), known⟩

theorem Fine.grows {v : Value} (fine : layout.Fine start s uses v)
    (grows : layout.Grows layout') : layout'.Fine start s uses v :=
  Value.Functions.mono fine fun _ fits => fits.grows grows

/-! ## Captured scopes -/

/-- The scopes around a function as its body finds them. -/
theorem Follows.capture (follows : layout.Follows start scope id) :
    layout.Follows start scope.capture id := by
  induction scope generalizing id with
  | nil => exact follows
  | cons frame outer inductionHypothesis =>
      rcases follows with ⟨here, parent, around, further⟩
      exact ⟨⟨here.inRun, here.inStore, here.planned, here.reached, nofun⟩, parent, around,
        inductionHypothesis further⟩

theorem Follows.lt_size (follows : layout.Follows start scope id)
    (grown : start.first ≤ layout.size) : id < layout.size := by
  cases scope with
  | nil =>
      have isBase : id = start.base := follows
      exact isBase ▸ Nat.lt_of_lt_of_le start.older grown
  | cons frame outer => exact follows.1.inStore

/-! ## More frames and declarations -/

/-- A new frame inside another one, for a scope that makes these declarations. -/
def enter (layout : Layout) (declarations : List Declaration) (parent : Nat)
    (inStore : parent < layout.size) : Layout where
  size := layout.size + 1
  plan id := if id = layout.size then declarations.reverse else layout.plan id
  made := layout.made
  parent? id := if id = layout.size then some parent else layout.parent? id
  older id outer around := by
    split at around
    · next isNew =>
        cases around
        exact isNew ▸ inStore
    · exact layout.older id outer around

theorem grows_enter (declarations : List Declaration) {parent : Nat}
    (inStore : parent < layout.size) : layout.Grows (layout.enter declarations parent inStore) where
  size := Nat.le_succ _
  plan _ old := if_neg (Nat.ne_of_lt old)
  parent _ old := if_neg (Nat.ne_of_lt old)
  made _ _ := ⟨[], rfl⟩

theorem Follows.enter (follows : layout.Follows start scope id)
    (grown : start.first ≤ layout.size) (unmade : layout.made layout.size = [])
    (declarations : List Declaration) :
    (layout.enter declarations id (follows.lt_size grown)).Follows start
      (scope.enter declarations) layout.size := by
  have grows := grows_enter declarations (follows.lt_size grown)
  refine ⟨⟨grown, Nat.lt_succ_self _, ?_, ⟨[], unmade⟩, fun _ => unmade⟩, id, if_pos rfl,
    follows.grows grows (.inr fun _ _ => rfl)⟩
  exact (if_pos rfl).trans (List.append_nil _).symm

/-- One more declaration is executed in a frame. -/
def make (layout : Layout) (id : Nat) (d : Declaration) : Layout :=
  { layout with made := fun i => if i = id then d :: layout.made i else layout.made i }

theorem grows_make (layout : Layout) (id : Nat) (d : Declaration) :
    layout.Grows (layout.make id d) where
  size := Nat.le_refl _
  plan _ _ := rfl
  parent _ _ := rfl
  made i _ := by
    by_cases same : i = id
    · exact ⟨[d], if_pos same⟩
    · exact ⟨[], if_neg same⟩

/-- Older frames go on following their scopes. -/
theorem Follows.make_of_lt (follows : layout.Follows start scope id) {newer : Nat}
    (older : id < newer) (d : Declaration) :
    (layout.make newer d).Follows start scope id := by
  induction scope generalizing id with
  | nil => exact follows
  | cons frame outer inductionHypothesis =>
      rcases follows with ⟨here, parent, around, further⟩
      have unchanged : (layout.make newer d).made id = layout.made id :=
        if_neg (Nat.ne_of_lt older)
      refine ⟨⟨here.inRun, here.inStore, here.planned, ?_, ?_⟩, parent, around,
        inductionHypothesis further (Nat.lt_trans (layout.older id parent around) older)⟩
      · rw [unchanged]
        exact here.reached
      · rw [unchanged]
        exact here.exactly

/-- The innermost scope of a place makes a declaration next. -/
theorem Follows.make {frame : ScopeFrame} {outer : Scope}
    (follows : layout.Follows start (frame :: outer) id) (current : frame.captured = false)
    {d : Declaration} {rest : List Declaration} (next : frame.later = d :: rest) :
    (layout.make id d).Follows start (Scope.declare d (frame :: outer)) id := by
  rcases follows with ⟨here, parent, around, further⟩
  have made : (layout.make id d).made id = d :: frame.seen :=
    (if_pos rfl).trans (congrArg (d :: ·) (here.exactly current))
  have planned : layout.plan id = frame.later.tail.reverse ++ (d :: frame.seen) := by
    rw [here.planned, next, List.reverse_cons, List.append_assoc]
    rfl
  exact ⟨⟨here.inRun, here.inStore, planned, ⟨[], made⟩, fun _ => made⟩, parent, around,
    further.make_of_lt (layout.older id parent around) d⟩

end Layout

end Formulae
