import Formulae.Proofs.RoundTrip
import Formulae.Proofs.Run.Erasure
import Formulae.Proofs.Run.Repeated
import Formulae.Proofs.Run.Scoped
import Formulae.Proofs.Typing.FreeNames
import Formulae.Proofs.Typing.Rewrites

/-!
# Names in checked formulas that run

A run of a checked formula finds under each name the binding that the name means, unless a
function is called after a scope around it has declared the name anew
(`Mode.finds_of_check`).  In any case it finds some binding: what a formula needs from
outside is what its free names say, to checking and to every run (`Mode.supplied_of_check`).

Both hold as long as no function of an earlier run is among the bindings.  The variables
around such a function are gone (`Mode.forgets_of_check`).
-/

namespace Formulae

namespace Setting

/-- The setting is for runs of the formula, with any numbers of names, functions from outside
and limits. -/
def IsFor (s : Setting Ty) (q : TypedProgram) : Prop :=
  s.functions = q.functions

theorem body_of_isFor {s : Setting Ty} {q : TypedProgram} (isFor : s.IsFor q)
    (distinct : (q.functions.map Prod.fst).Nodup) {function : Nat × List TypedStmt}
    (member : function ∈ q.functions) : s.body function.1 = function.2 := by
  have found {functions : List (Nat × List TypedStmt)} (distinct : (functions.map Prod.fst).Nodup)
      (member : function ∈ functions) : functions.lookup function.1 = some function.2 := by
    induction functions with
    | nil => cases member
    | cons first rest inductionHypothesis =>
        rw [List.map_cons, List.nodup_cons] at distinct
        rw [List.lookup_cons]
        rcases List.mem_cons.mp member with rfl | later
        · simp
        · have different : function.1 ≠ first.1 := fun same =>
            distinct.1 (same ▸ List.mem_map_of_mem later)
          rw [beq_false_of_ne different]
          exact inductionHypothesis distinct.2 later
  rw [body, isFor, found distinct member]
  rfl

end Setting

namespace Machine

variable {m : Machine}

theorem Ready.current (ready : m.Ready) : m.env.current = m.env.global := by
  rw [Environment.current, ready.inner]
  rfl

theorem Ready.lookup?_eq (ready : m.Ready) (name : String) :
    m.store.resolve? m.env.current name =
      (m.store.find? m.env.global name).map (m.env.global, ·) := by
  rw [ready.current, Store.resolve?_eq]
  cases m.store.find? m.env.global name with
  | some b => rfl
  | none => rw [ready.outermost]; rfl

theorem lookup?_atop (store : Store) (name : String) : (atop store).lookup? name = none := by
  have ready := ready_atop store
  rw [lookup?, Store.lookup?, ready.lookup?_eq]
  simp [atop, Store.push, Environment.ofFrame, Store.find?, Frame.empty, Frame.find?]

theorem Ready.lookup?_defineGlobal (ready : m.Ready) (name : String) (value : Value)
    (key : String) :
    (m.defineGlobal name value).lookup? key = if key = name then some value else m.lookup? key := by
  have defined := ready.defineGlobal name value
  have found : (m.defineGlobal name value).store.find? m.env.global key = _ :=
    Store.find?_define ready.inStore _ _ _ _
  rw [lookup?, lookup?, Store.lookup?, Store.lookup?, defined.lookup?_eq, ready.lookup?_eq]
  have same : (m.defineGlobal name value).env = m.env := rfl
  rw [same, found]
  by_cases isName : key = name <;> simp [isName]

theorem BindsNoFunction.functions (plain : m.BindsNoFunction) {name : String} {b : Binding}
    (bound : m.store.find? m.env.global name = some b) : b.value.Functions fun _ => False := by
  rcases Option.bind_eq_some_iff.mp bound with ⟨frame, found, bound⟩
  rcases List.lookup_eq_some_iff.mp bound with ⟨before, after, entries, -⟩
  exact plain frame found (name, b) (by simp [entries])

/-- What a run on the machine starts from. -/
def Ready.start (ready : m.Ready) : Start where
  base := m.env.current
  first := m.store.frames.size
  older := ready.current ▸ ready.inStore
  mutable? name := (m.store.resolve? m.env.current name).map (·.2.mutable)

theorem Ready.hosts_start (ready : m.Ready) (name : String) :
    ready.start.hosts name = (m.lookup? name).isSome := by
  simp [Start.hosts, Ready.start, lookup?, Store.lookup?]

/-- The journal of a run. -/
def journal (m : Machine) (s : Setting Ty) (bound : Nat) (p : TypedProgram) : Journal :=
  match Logged.program s bound p ⟨m, .empty⟩ with
  | .ok _ w => w.journal
  | .error _ w => w.journal

end Machine

namespace Layout

variable {globals : TypeEnv} {s : Setting Ty} {uses : List Resolution}

/-- The layout before a run. -/
def outset (m : Machine) : Layout where
  size := m.store.frames.size
  plan _ := []
  made _ := []
  parent? := m.store.parent?
  older _ _ := Store.parent?_lt

theorem describes_outset {m : Machine} (ready : m.Ready) (plain : m.BindsNoFunction) :
    (outset m).Describes ready.start s uses ⟨m, .empty⟩ where
  grown := Nat.le_refl _
  size := rfl
  parent _ := rfl
  made _ := rfl
  planned _ inRun old := absurd inRun (Nat.not_le.mpr old)
  unmade _ _ := rfl
  binds id name inRun := by
    have unbound : m.store.find? id name = none := by
      rw [Store.find?, Array.getElem?_eq_none inRun]
      rfl
    exact congrArg _ unbound
  fine id name b inRun bound := by
    rw [Store.find?, Array.getElem?_eq_none inRun] at bound
    cases bound
  outside _ := rfl
  fineOutside name frame b resolved := by
    have global := (ready.lookup?_eq name).symm.trans resolved
    rcases Option.map_eq_some_iff.mp global with ⟨b', bound, same⟩
    cases same
    exact Value.Functions.mono (plain.functions bound) fun _ => False.elim
  agrees := nofun

/-- A run of a formula whose uses of names are checked. -/
theorem scoped_program {m : Machine} (ready : m.Ready) (plain : m.BindsNoFunction)
    {q : TypedProgram} (relies : Relies globals ready.start s (q.resolutions ready.start.hosts))
    (bodies : ∀ function ∈ q.functions, s.body function.1 = function.2) (bound : Nat) :
    (m.journal s bound q).Agrees (q.resolutions ready.start.hosts) ∧
      ∀ stop, (m.run s bound q).1 = .error stop →
        stop.Blames (q.resolutions ready.start.hosts) := by
  have all := scopedAll relies bound
  have body : Evaluates ready.start s (q.resolutions ready.start.hosts) (outset m) []
      (Logged.inScope (Logged.inside s bound q)) fun _ _ => True := by
    have known : Expr.resolutionsOption ready.start.hosts (Stmt.afterAll q.scope q.body) q.tail
        ⊆ q.resolutions ready.start.hosts := List.subset_append_right _ _
    apply Step.inScope (Stmt.declarations q.body)
    apply (all.execAll q.body (awaits_enter _ _) ⟨bodies, List.subset_append_left _ _⟩).bind
    rintro later id flow - ⟨-, follows⟩
    cases flow with
    | next =>
        refine ⟨_, follows, ?_⟩
        cases isTail : q.tail with
        | none => exact step_pure fun _ _ _ _ => trivial
        | some e =>
            rw [isTail] at known
            exact (all.eval e known).mono fun _ _ _ _ _ => trivial
    | ret v =>
        rcases follows with ⟨place, follows⟩
        exact ⟨place, follows, step_pure fun _ _ _ _ => trivial⟩
    | brk | cont =>
        rcases follows with ⟨place, follows⟩
        exact ⟨place, follows, step_fail rfl⟩
  have outcome := body _ ⟨m, .empty⟩ (.refl _) (describes_outset ready plain) rfl
  have erases := Logged.erases_program s bound q ⟨m, .empty⟩
  unfold Machine.journal Machine.run
  rw [Logged.program_eq] at erases ⊢
  unfold Logged.between at erases ⊢
  dsimp only [id] at erases ⊢
  revert outcome erases
  generalize Logged.inScope _ ⟨m, .empty⟩ = ended
  intro outcome erases
  cases ended with
  | ok v w =>
      rcases outcome with ⟨after, -, describes, -⟩
      dsimp only at erases ⊢
      rw [erases]
      refine ⟨describes.agrees, fun stop isError => ?_⟩
      cases isError
  | error stop w =>
      dsimp only at erases ⊢
      rw [erases]
      refine ⟨outcome.1, fun other isError => ?_⟩
      cases isError
      exact outcome.2

end Layout

/-- No two functions of a formula that was read have the same number. -/
theorem Mode.distinct_of_parse {mode : Mode} {source : String} {tokens : TokenList}
    {output : Parser.Output} (lexed : Lexer.tokenize source = .ok tokens)
    (parsed : mode.parse tokens = .ok output) :
    (output.program.functions.map Prod.fst).Nodup := by
  have forms := Lexer.lexed_of_tokenize lexed
  cases mode with
  | program => exact (Parser.parse_sound forms parsed).functions
  | expression => exact (Parser.parseExpression_sound forms parsed).functions

/-- What a checked formula finds in a run on a machine that binds what checking found
outside. -/
theorem Program.scoped_of_check {globals : TypeEnv} {p : Program Unit} {q : TypedProgram}
    (distinct : (p.functions.map Prod.fst).Nodup) (checked : p.check globals = .ok q)
    {m : Machine} (ready : m.Ready) (plain : m.BindsNoFunction)
    (bindings : ∀ name, (globals.lookup name).isSome → (m.lookup? name).isSome)
    {s : Setting Ty} (isFor : s.IsFor q) (handsOn : HandsOn s.hosts) (bound : Nat) :
    (∀ r ∈ q.resolutions ready.start.hosts, r.Checked globals ready.start.hosts) ∧
      (m.journal s bound q).Agrees (q.resolutions ready.start.hosts) ∧
      ∀ stop, (m.run s bound q).1 = .error stop →
        stop.Blames (q.resolutions ready.start.hosts) := by
  rcases (Typing.meets_program globals ready.start.hosts p).of_ok checked with ⟨same, uses⟩
  refine ⟨uses, Layout.scoped_program ready plain ⟨uses, ?_, handsOn⟩ ?_ bound⟩
  · exact fun name isGlobal => (ready.hosts_start name).trans (bindings name isGlobal)
  · exact fun function member => Setting.body_of_isFor isFor (same ▸ distinct) member

/-! ## What is found -/

/-- In a run of a checked formula every name is found where its meaning says, or else it is
used in a function and found as a declaration that a scope around the function makes later.
A variable that is assigned to is not final, unless it is such a stray or a binding from
outside that was checked as one to be assigned to. -/
theorem Mode.finds_of_check {mode : Mode} {source : String} {tokens : TokenList}
    {output : Parser.Output} {globals : TypeEnv} {q : TypedProgram}
    (lexed : Lexer.tokenize source = .ok tokens) (parsed : mode.parse tokens = .ok output)
    (checked : output.program.check globals = .ok q) {m : Machine} (prepared : m.Prepared)
    (plain : m.BindsNoFunction)
    (bindings : ∀ name, (m.lookup? name).isSome = (globals.lookup name).isSome)
    {s : Setting Ty} (isFor : s.IsFor q) (handsOn : HandsOn s.hosts) (bound : Nat) :
    (m.journal s bound q).Agrees (q.resolutions fun name => (globals.lookup name).isSome) ∧
      ∀ name span,
        (m.run s bound q).1 = .error (.failed ⟨.bug (.finalAssigned name), span⟩) →
        ∃ r ∈ q.resolutions fun name => (globals.lookup name).isSome,
          r.use.usage = .target ∧ r.use.name = name ∧ r.use.node.label.isFinal = false ∧
            (r.meaning = .host ∨ ∃ d ∈ r.strays, d.type.isFinal) := by
  have ready := prepared.ready
  have hosts : ready.start.hosts = fun name => (globals.lookup name).isSome := by
    funext name
    rw [ready.hosts_start, bindings]
  rcases Program.scoped_of_check (distinct_of_parse lexed parsed) checked ready plain
    (fun name isGlobal => (bindings name).trans isGlobal) isFor handsOn bound with
    ⟨uses, agrees, blames⟩
  rw [hosts] at uses agrees blames
  refine ⟨agrees, fun name span failed => ?_⟩
  rcases blames _ failed with ⟨r, member, isTarget, named, strayed⟩
  exact ⟨r, member, isTarget, named, (uses r member).writable isTarget, strayed⟩

/-- No functions are supplied from outside. -/
def noHosts : Hosts :=
  fun _ _ => .error "unknown"

theorem handsOn_noHosts : HandsOn noHosts :=
  nofun

/-- A machine without bindings. -/
def bareMachine : Machine :=
  .atop .empty

theorem bindsNoFunction_bareMachine : bareMachine.BindsNoFunction := by
  intro frame found
  cases found
  exact nofun

/-- A function that reads the variable that is declared before it. -/
def readsOuter : String :=
  "int x = 1; int f() \x7b return x; \x7d return f();"

/-- A function finds the variable that was declared before it. -/
theorem Mode.finds_of_check_function : ∃ tokens output q,
    Lexer.tokenize readsOuter = .ok tokens ∧
      Mode.program.parse tokens = .ok output ∧ output.program.check .empty = .ok q ∧
      (bareMachine.journal (q.setting .empty noHosts) 20 q).entries.map (·.use.name) = ["x", "f"] ∧
      (bareMachine.journal (q.setting .empty noHosts) 20 q).Agrees (q.resolutions fun _ => false) := by
  have ends : (Lexer.tokenize readsOuter).toOption.bind
      (fun tokens => (Mode.program.parse tokens).toOption.bind fun output =>
        (output.program.check .empty).toOption.map fun q =>
          (bareMachine.journal (q.setting .empty noHosts) 20 q).entries.map (·.use.name))
      = some ["x", "f"] := by cbv
  rcases Option.bind_eq_some_iff.mp ends with ⟨tokens, lexed, ends⟩
  rcases Option.bind_eq_some_iff.mp ends with ⟨output, parsed, ends⟩
  rcases Option.map_eq_some_iff.mp ends with ⟨q, checked, names⟩
  have lexed' := eq_ok_of_toOption lexed
  have parsed' : Mode.program.parse tokens = .ok output := eq_ok_of_toOption parsed
  have checked' : output.program.check .empty = .ok q := eq_ok_of_toOption checked
  have bindings (name : String) :
      (bareMachine.lookup? name).isSome = (TypeEnv.empty.lookup name).isSome := by
    rw [bareMachine, Machine.lookup?_atop]
    rfl
  have isFor : (q.setting .empty noHosts).IsFor q := rfl
  have finds := Mode.finds_of_check lexed' parsed' checked' (.atop .empty)
    bindsNoFunction_bareMachine bindings isFor handsOn_noHosts 20
  exact ⟨tokens, output, q, lexed', parsed', checked', names, finds.1⟩

/-- The number of the statement that declares what a name means. -/
def Meaning.statement? : Meaning → Option Nat
  | .declared d => some d.statement
  | .host | .builtin => none

/-- A function that is called after its scope has declared anew the name that it reads. -/
def redeclares : String :=
  "int x = 1; \x7b int f() \x7b return x; \x7d int x = 2; return f(); \x7d"

/-- A function that is called after a scope around it has declared a name anew finds the new
declaration, though the name in its body means the one before it. -/
theorem Mode.strays_of_check : ∃ tokens output q,
    Lexer.tokenize redeclares = .ok tokens ∧
      Mode.program.parse tokens = .ok output ∧ output.program.check .empty = .ok q ∧
      (bareMachine.run (q.setting .empty noHosts) 30 q).1 = .ok (.int 2) ∧
      (q.resolutions fun _ => false).map (fun r => (r.use.name, r.meaning.statement?)) =
        [("x", some 0), ("f", some 2)] ∧
      (bareMachine.journal (q.setting .empty noHosts) 30 q).entries.map
          (fun entry => (entry.use.name, entry.found.statement?)) =
        [("x", some 3), ("f", some 2)] := by
  have ends : (Lexer.tokenize redeclares).toOption.bind
      (fun tokens => (Mode.program.parse tokens).toOption.bind fun output =>
        (output.program.check .empty).toOption.map fun q =>
          ((bareMachine.run (q.setting .empty noHosts) 30 q).1,
            (q.resolutions fun _ => false).map fun r => (r.use.name, r.meaning.statement?),
            (bareMachine.journal (q.setting .empty noHosts) 30 q).entries.map
              fun entry => (entry.use.name, entry.found.statement?)))
      = some (.ok (.int 2), [("x", some 0), ("f", some 2)], [("x", some 3), ("f", some 2)]) := by
    cbv
  rcases Option.bind_eq_some_iff.mp ends with ⟨tokens, lexed, ends⟩
  rcases Option.bind_eq_some_iff.mp ends with ⟨output, parsed, ends⟩
  rcases Option.map_eq_some_iff.mp ends with ⟨q, checked, ended⟩
  have outcome := congrArg Prod.fst ended
  have meant := congrArg (·.2.1) ended
  have found := congrArg (·.2.2) ended
  exact ⟨tokens, output, q, eq_ok_of_toOption lexed, eq_ok_of_toOption parsed,
    eq_ok_of_toOption checked, outcome, meant, found⟩

/-! ## What is needed from outside -/

/-- Free names, checking and runs agree on what a formula needs from outside.  A name that
checking does not know is free in the place reported, and neither bound nor built in.  In
a checked formula all free names are bound or built in, and no run on a machine with these
bindings finds a name unbound. -/
theorem Mode.supplied_of_check {mode : Mode} {source : String} {tokens : TokenList}
    {output : Parser.Output} (lexed : Lexer.tokenize source = .ok tokens)
    (parsed : mode.parse tokens = .ok output) (globals : TypeEnv) :
    (∀ error, output.program.check globals = .error error →
      ∀ name, error.fault = .unknownIdentifier name → ¬ Typing.Supplied globals name ∧
        ∃ use ∈ output.program.free, use.name = name ∧ use.span = error.span) ∧
    ∀ q, output.program.check globals = .ok q →
      (∀ use ∈ output.program.free, Typing.Supplied globals use.name) ∧
      ∀ m : Machine, m.Prepared → m.BindsNoFunction →
        (∀ name, (globals.lookup name).isSome → (m.lookup? name).isSome) →
        ∀ s : Setting Ty, s.IsFor q → HandsOn s.hosts → ∀ bound error,
          (m.run s bound q).1 = .error (.failed error) →
          ∀ name, error.fault ≠ .unboundVariable name ∧ error.fault ≠ .unresolvedMethod name := by
  have looksUp := Typing.looksUp_program globals output.program
  refine ⟨fun error refused => looksUp.of_error refused, fun q checked => ⟨?_, ?_⟩⟩
  · exact (looksUp.of_ok checked).2
  · intro m prepared plain bindings s isFor handsOn bound error failed name
    rcases Program.scoped_of_check (distinct_of_parse lexed parsed) checked prepared.ready plain
      bindings isFor handsOn bound with ⟨-, -, blames⟩
    have blamed := blames _ failed
    obtain ⟨fault, span⟩ := error
    constructor
    · rintro rfl
      exact blamed
    · rintro rfl
      exact blamed

/-- A function that reads a variable from outside. -/
def readsGlobal : String :=
  "int f() \x7b return n; \x7d return f();"

/-- A function that needs a variable from outside finds it. -/
theorem Mode.supplied_of_check_function : ∃ tokens output q,
    Lexer.tokenize readsGlobal = .ok tokens ∧
      Mode.program.parse tokens = .ok output ∧
      output.program.check (TypeEnv.empty.bind "n" Ty.int) = .ok q ∧
      ((bareMachine.defineGlobal "n" (.int 5)).run (q.setting .empty noHosts) 20 q).1
        = .ok (.int 5) ∧
      (∀ use ∈ output.program.free, Typing.Supplied (TypeEnv.empty.bind "n" Ty.int) use.name) ∧
      ∀ bound error,
        ((bareMachine.defineGlobal "n" (.int 5)).run (q.setting .empty noHosts) bound q).1
          = .error (.failed error) →
        ∀ name, error.fault ≠ .unboundVariable name ∧ error.fault ≠ .unresolvedMethod name := by
  have ends : (Lexer.tokenize readsGlobal).toOption.bind (fun tokens =>
      (Mode.program.parse tokens).toOption.bind fun output =>
        (output.program.check (TypeEnv.empty.bind "n" Ty.int)).toOption.map fun q =>
          ((bareMachine.defineGlobal "n" (.int 5)).run (q.setting .empty noHosts) 20 q).1)
      = some (.ok (.int 5)) := by cbv
  rcases Option.bind_eq_some_iff.mp ends with ⟨tokens, lexed, ends⟩
  rcases Option.bind_eq_some_iff.mp ends with ⟨output, parsed, ends⟩
  rcases Option.map_eq_some_iff.mp ends with ⟨q, checked, outcome⟩
  have lexed' := eq_ok_of_toOption lexed
  have parsed' : Mode.program.parse tokens = .ok output := eq_ok_of_toOption parsed
  have checked' : output.program.check (TypeEnv.empty.bind "n" Ty.int) = .ok q :=
    eq_ok_of_toOption checked
  have plain : (bareMachine.defineGlobal "n" (.int 5)).BindsNoFunction := by
    intro frame found
    cases found
    exact List.forall_mem_singleton.mpr (Value.functions_of_isData rfl)
  have bindings (name : String) (isGlobal : ((TypeEnv.empty.bind "n" Ty.int).lookup name).isSome) :
      ((bareMachine.defineGlobal "n" (.int 5)).lookup? name).isSome := by
    have ready : bareMachine.Ready := Machine.ready_atop .empty
    rw [ready.lookup?_defineGlobal]
    by_cases isName : name = "n"
    · rw [if_pos isName]
      rfl
    · rw [TypeEnv.lookup_bind_of_ne _ _ isName] at isGlobal
      cases isGlobal
  rcases (Mode.supplied_of_check lexed' parsed' _).2 q checked' with ⟨supplied, runs⟩
  exact ⟨tokens, output, q, lexed', parsed', checked', outcome, supplied,
    runs _ (.defineGlobal _ _ (.atop _)) plain bindings (q.setting .empty noHosts) rfl
      handsOn_noHosts⟩

/-- How a run ends on the machine that is made of the one a first run leaves and of the array
that it returns. -/
def runAgain (p : TypedProgram) (before : Machine) (after : Machine → List Value → Machine) :
    Option (Except Stop Value) :=
  match before.run (p.setting .empty noHosts) 30 p with
  | (.ok (.array items), m) => some ((after m items).run (p.setting .empty noHosts) 30 p).1
  | _ => none

theorem eq_array_of_runAgain {p : TypedProgram} {before : Machine}
    {after : Machine → List Value → Machine} {outcome : Except Stop Value}
    (ended : runAgain p before after = some outcome) :
    ∃ m items, before.run (p.setting .empty noHosts) 30 p = (.ok (.array items), m) ∧
      ((after m items).run (p.setting .empty noHosts) 30 p).1 = outcome := by
  unfold runAgain at ended
  split at ended
  case h_1 items m first => exact ⟨m, items, first, Option.some.inj ended⟩
  case h_2 => cases ended

/-- The first run returns its function in an array, the second run calls it from there. -/
def readsStale : String :=
  "\x7b int y = 5; int f() \x7b return y; \x7d if (first) return \x7bf\x7d; \x7d return fs[0]();"

/-- The variable that a function of an earlier run needs is gone, also if the function is
bound as an element of an array only. -/
theorem Mode.forgets_of_check : ∃ tokens output q,
    Lexer.tokenize readsStale = .ok tokens ∧
      Mode.program.parse tokens = .ok output ∧
      output.program.check
        ((TypeEnv.empty.bind "first" Ty.boolean).bind "fs" (Ty.arrayOf Ty.mixed none)) = .ok q ∧
      ∃ m fs,
        ((bareMachine.defineGlobal "first" (.bool true)).defineGlobal "fs" (.array [])).run
          (q.setting .empty noHosts) 30 q = (.ok (.array fs), m) ∧
        ((m.defineGlobal "first" (.bool false)).defineGlobal "fs" (.array fs)).Prepared ∧
        (((m.defineGlobal "first" (.bool false)).defineGlobal "fs" (.array fs)).run
          (q.setting .empty noHosts) 30 q).1
          = .error (.failed ⟨.unboundVariable "y", ⟨30, 31⟩⟩) := by
  let before := (bareMachine.defineGlobal "first" (.bool true)).defineGlobal "fs" (.array [])
  let after (m : Machine) (fs : List Value) :=
    (m.defineGlobal "first" (.bool false)).defineGlobal "fs" (.array fs)
  have ends : (Lexer.tokenize readsStale).toOption.bind
      (fun tokens => (Mode.program.parse tokens).toOption.bind fun output =>
        (output.program.check
          ((TypeEnv.empty.bind "first" Ty.boolean).bind "fs" (Ty.arrayOf Ty.mixed none))
          ).toOption.bind fun q =>
          runAgain q before after)
      = some (.error (.failed ⟨.unboundVariable "y", ⟨30, 31⟩⟩)) := by cbv
  rcases Option.bind_eq_some_iff.mp ends with ⟨tokens, lexed, ends⟩
  rcases Option.bind_eq_some_iff.mp ends with ⟨output, parsed, ends⟩
  rcases Option.bind_eq_some_iff.mp ends with ⟨q, checked, ended⟩
  rcases eq_array_of_runAgain ended with ⟨m, fs, first, second⟩
  have prepared : m.Prepared := by
    have ran : (before.run (q.setting .empty noHosts) 30 q).2.Prepared :=
      .run _ _ _ (.defineGlobal _ _ (.defineGlobal _ _ (.atop _)))
    rwa [first] at ran
  exact ⟨tokens, output, q, eq_ok_of_toOption lexed, eq_ok_of_toOption parsed,
    eq_ok_of_toOption checked, m, fs, first, .defineGlobal _ _ (.defineGlobal _ _ prepared),
    second⟩

end Formulae
