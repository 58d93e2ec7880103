import Formulae.Ty.Basic

/-!
# Types of names

The names in scope with their types, in nested frames.  A name is looked up in
the innermost frame that binds it.
-/

namespace Formulae

/-- The bindings of one scope, the newest first. -/
abbrev TypeFrame := List (String × Ty)

/-- The frames in scope, of which `top` is the innermost. -/
structure TypeEnv where
  top : TypeFrame
  outer : List TypeFrame
deriving Inhabited

namespace TypeEnv

/-- One frame without bindings. -/
def empty : TypeEnv :=
  ⟨[], []⟩

/-- The environment with a new innermost frame. -/
def child (env : TypeEnv) : TypeEnv :=
  ⟨[], env.top :: env.outer⟩

/-- The environment without its innermost frame, unless that is the only one. -/
def parent? (env : TypeEnv) : Option TypeEnv :=
  match env.outer with
  | [] => none
  | frame :: outer => some ⟨frame, outer⟩

/-- Bind a name in the innermost frame. -/
def bind (env : TypeEnv) (name : String) (type : Ty) : TypeEnv :=
  { env with top := (name, type) :: env.top }

/-- The innermost frame binds the name. -/
def isLocal (env : TypeEnv) (name : String) : Bool :=
  (env.top.lookup name).isSome

/-- Bind a name that the innermost frame does not bind yet. -/
def declare? (env : TypeEnv) (name : String) (type : Ty) : Option TypeEnv :=
  if env.isLocal name then none else some (env.bind name type)

/-- The type of a name. -/
def lookup (env : TypeEnv) (name : String) : Option Ty :=
  (env.top :: env.outer).findSome? fun frame => frame.lookup name

/-! ## Laws -/

theorem lookup_bind_self (env : TypeEnv) (name : String) (type : Ty) :
    (env.bind name type).lookup name = some type := by
  simp [lookup, bind]

theorem lookup_bind_of_ne (env : TypeEnv) {name other : String} (type : Ty)
    (h : other ≠ name) : (env.bind name type).lookup other = env.lookup other := by
  have different : (other == name) = false := beq_false_of_ne h
  simp [lookup, bind, List.findSome?_cons, List.lookup_cons, different]

theorem lookup_child (env : TypeEnv) (name : String) :
    env.child.lookup name = env.lookup name := by
  simp [lookup, child, List.findSome?_cons]

theorem parent?_child (env : TypeEnv) : env.child.parent? = some env :=
  rfl

end TypeEnv

end Formulae
