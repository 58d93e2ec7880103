import Formulae.Typing.Program

/-!
# What names mean

Every use of a name in a checked formula means one declaration, or something from
outside.  Meanings follow from the text alone: a name means the newest declaration
before it in the innermost scope that has one (`Scope.meaning`).

The body of a function is executed later than it is read.  By then the scopes
around its declaration may bind more names, and those of them that a name in the
body would find first are its strays (`Scope.strays`).  `Program.resolutions` lists
all uses of names with their meanings and their strays.
-/

namespace Formulae

/-- A binding that a formula makes: the number of the statement that makes it, its
position if it is a parameter, and its name and type. -/
structure Declaration where
  statement : Nat
  parameter : Option Nat
  name : String
  type : Ty

/-- What a name can mean. -/
inductive Meaning
  | declared (declaration : Declaration)
  | host
  | builtin

/-- How a name is used: for its value, as what is called, or as the variable that an
assignment writes to. -/
inductive Usage
  | value
  | callee
  | target
deriving DecidableEq

namespace Usage

/-- How an array is used whose element is used so. -/
def ofArray : Usage → Usage
  | .target => .target
  | .value | .callee => .value

end Usage

/-- A name where it is used. -/
structure Use where
  node : Node Ty
  name : String
  usage : Usage

/-- A use of a name with its meaning, and the declarations that may be found in its
place. -/
structure Resolution where
  use : Use
  meaning : Meaning
  strays : List Declaration

namespace Declaration

/-- The newest of some declarations that has a name. -/
def find? (declarations : List Declaration) (name : String) : Option Declaration :=
  declarations.find? fun declaration => declaration.name == name

theorem find?_cons (declaration : Declaration) (rest : List Declaration) (name : String) :
    find? (declaration :: rest) name =
      if declaration.name = name then some declaration else find? rest name := by
  by_cases same : declaration.name = name
  · simp [find?, same]
  · have different : (declaration.name == name) = false := beq_false_of_ne same
    rw [find?, List.find?_cons, different, if_neg same]
    rfl

theorem find?_append (first second : List Declaration) (name : String) :
    find? (first ++ second) name = (find? first name).or (find? second name) :=
  List.find?_append

theorem name_of_find? {declarations : List Declaration} {name : String}
    {declaration : Declaration} (found : find? declarations name = some declaration) :
    declaration.name = name := by
  have holds := List.find?_some found
  exact beq_iff_eq.mp holds

end Declaration

/-! ## Scopes -/

/-- A scope: the declarations that are visible in it, the newest first, and those
that it makes after that, in order.  A scope is captured where a function body inside
it is read. -/
structure ScopeFrame where
  seen : List Declaration
  later : List Declaration
  captured : Bool

/-- The scopes around a place, the innermost first. -/
abbrev Scope := List ScopeFrame

namespace Scope

/-- The place at the start of a new scope that makes these declarations. -/
def enter (declarations : List Declaration) (scope : Scope) : Scope :=
  ⟨[], declarations, false⟩ :: scope

/-- The place after a declaration. -/
def declare (declaration : Declaration) : Scope → Scope
  | [] => []
  | frame :: outer =>
      { frame with seen := declaration :: frame.seen, later := frame.later.tail } :: outer

/-- The place after several declarations. -/
def declareAll (declarations : List Declaration) (scope : Scope) : Scope :=
  declarations.foldl (fun scope declaration => scope.declare declaration) scope

/-- The scopes as the body of a function finds them. -/
def capture (scope : Scope) : Scope :=
  scope.map fun frame => { frame with captured := true }

/-- The declaration that a name means, if it means one. -/
def declaration? (name : String) : Scope → Option Declaration
  | [] => none
  | frame :: outer => (Declaration.find? frame.seen name).or (declaration? name outer)

/-- What a name means; `hosts` are the names bound from outside. -/
def meaning (hosts : String → Bool) (name : String) (scope : Scope) : Meaning :=
  match scope.declaration? name with
  | some declaration => .declared declaration
  | none => if hosts name then .host else .builtin

/-- The declarations of a name that captured scopes make later, up to the scope in
which the name is found. -/
def strays (name : String) : Scope → List Declaration
  | [] => []
  | frame :: outer =>
      (if frame.captured then frame.later.filter fun d => d.name == name else [])
        ++ if (Declaration.find? frame.seen name).isSome then [] else strays name outer

end Scope

/-! ## Expressions -/

namespace Expr

mutual

/-- The uses of names in an expression that is used so. -/
def resolutions (hosts : String → Bool) (scope : Scope) (usage : Usage) :
    TypedExpr → List Resolution
  | .ident node name => [⟨⟨node, name, usage⟩, scope.meaning hosts name, scope.strays name⟩]
  | .constant _ _ | .typeLiteral _ _ => []
  | .unary _ _ operand => operand.resolutions hosts scope .value
  | .binary _ op left right =>
      left.resolutions hosts scope (if op.isAssignment then .target else .value)
        ++ right.resolutions hosts scope .value
  | .ternary _ cond thenBranch elseBranch =>
      cond.resolutions hosts scope .value ++ thenBranch.resolutions hosts scope .value
        ++ elseBranch.resolutions hosts scope .value
  | .call _ callee args =>
      callee.resolutions hosts scope .callee ++ resolutionsAll hosts scope args
  | .array _ items => resolutionsAll hosts scope items
  | .index _ receiver subscript =>
      receiver.resolutions hosts scope usage.ofArray ++ subscript.resolutions hosts scope .value

/-- The uses of names in several expressions. -/
def resolutionsAll (hosts : String → Bool) (scope : Scope) : List TypedExpr → List Resolution
  | [] => []
  | e :: rest => e.resolutions hosts scope .value ++ resolutionsAll hosts scope rest

end

/-- The uses of names in an expression that may be missing. -/
def resolutionsOption (hosts : String → Bool) (scope : Scope) (e : Option TypedExpr) :
    List Resolution :=
  (e.map (resolutions hosts scope .value)).getD []

end Expr

/-! ## Statements -/

/-- The declaration that a binder makes in a statement, for values of a type. -/
def Binder.declaration (binder : Binder) (node : StmtNode) (content : Ty) : Declaration where
  statement := node.id
  parameter := none
  name := binder.name
  type := ((binder.type.map Ty.ofExpr).getD (Typing.slot content)).withFinal !binder.mutable

/-- The declarations that the parameters of a function make, from a position on. -/
def Param.declarations (function : Nat) : Nat → List Param → List Declaration
  | _, [] => []
  | position, param :: rest =>
      ⟨function, some position, param.name, (Ty.ofExpr param.type).withFinal !param.mutable⟩
        :: declarations function (position + 1) rest

/-- The type of the elements of an array; anything may be an element of what is not
known to be one. -/
def Ty.element : Ty → Ty
  | .array element _ _ => element
  | _ => Ty.mixed

namespace Stmt

/-- The declaration that a statement makes in the scope it stands in. -/
def declaration? : TypedStmt → Option Declaration
  | .varDecl node binder init => some (binder.declaration node init.label)
  | .function node written name params _ =>
      some ⟨node.id, none, name, Typing.functionType params written⟩
  | _ => none

/-- The declarations that statements make in the scope they stand in, in order. -/
def declarations (stmts : List TypedStmt) : List Declaration :=
  stmts.filterMap declaration?

/-- The declaration that a statement which may be missing makes. -/
def declarationOption (s : Option TypedStmt) : List Declaration :=
  declarations s.toList

/-- The place after a statement. -/
def after (scope : Scope) (s : TypedStmt) : Scope :=
  scope.declareAll s.declaration?.toList

/-- The place after several statements. -/
def afterAll (scope : Scope) (stmts : List TypedStmt) : Scope :=
  stmts.foldl after scope

mutual

/-- The uses of names in a statement. -/
def resolutions (hosts : String → Bool) (scope : Scope) : TypedStmt → List Resolution
  | .expr _ e => e.resolutions hosts scope .value
  | .varDecl _ _ init => init.resolutions hosts scope .value
  | .ret _ value => Expr.resolutionsOption hosts scope value
  | .ifElse _ cond thenBranch elseBranch =>
      cond.resolutions hosts scope .value
        ++ thenBranch.resolutions hosts (scope.enter (declarations [thenBranch]))
        ++ resolutionsBranch hosts scope elseBranch
  | .whileLoop _ cond body | .doWhile _ body cond =>
      cond.resolutions hosts scope .value
        ++ body.resolutions hosts (scope.enter (declarations [body]))
  | .forLoop _ init cond step body =>
      let first := scope.enter (declarationOption init)
      let inner := afterAll first init.toList
      resolutionsOption hosts first init ++ Expr.resolutionsOption hosts inner cond
        ++ Expr.resolutionsOption hosts inner step
        ++ body.resolutions hosts (inner.enter (declarations [body]))
  | .forEach node binder iterable body =>
      let item := binder.declaration node iterable.label.element
      iterable.resolutions hosts scope .value
        ++ body.resolutions hosts ((scope.enter (item :: declarations [body])).declare item)
  | .brk _ | .cont _ => []
  | .block _ stmts => resolutionsAll hosts (scope.enter (declarations stmts)) stmts
  | .function node written name params body =>
      let outer := (scope.declare ⟨node.id, none, name, Typing.functionType params written⟩).capture
      let given := Param.declarations node.id 0 params
      resolutionsAll hosts ((outer.enter (given ++ declarations body)).declareAll given) body

/-- The uses of names in a branch that may be missing. -/
def resolutionsBranch (hosts : String → Bool) (scope : Scope) :
    Option TypedStmt → List Resolution
  | none => []
  | some s => s.resolutions hosts (scope.enter (declarations [s]))

/-- The uses of names in a statement that may be missing. -/
def resolutionsOption (hosts : String → Bool) (scope : Scope) :
    Option TypedStmt → List Resolution
  | none => []
  | some s => s.resolutions hosts scope

/-- The uses of names in statements, each of which sees what those before it
declare. -/
def resolutionsAll (hosts : String → Bool) (scope : Scope) : List TypedStmt → List Resolution
  | [] => []
  | s :: rest => s.resolutions hosts scope ++ resolutionsAll hosts (s.after scope) rest

end

end Stmt

namespace Program

/-- The place at the start of a formula. -/
def scope (p : TypedProgram) : Scope :=
  Scope.enter (Stmt.declarations p.body) []

/-- All uses of names in a formula. -/
def resolutions (hosts : String → Bool) (p : TypedProgram) : List Resolution :=
  Stmt.resolutionsAll hosts p.scope p.body
    ++ Expr.resolutionsOption hosts (Stmt.afterAll p.scope p.body) p.tail

end Program

end Formulae
