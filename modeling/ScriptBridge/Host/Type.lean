import ScriptBridge.Host.Member

/-!
# Host types

A host type is a class definition with its base class, nested types and, for a closed generic
type, the type arguments it was closed over. Every definition is made with a number of its own, so
two are the same one only where they agree in all parts; types compare equal also when only their
full names do.
-/

namespace ScriptBridge

/-- A class definition. -/
structure HostType where
  /-- The number that the definition was made with. -/
  identity : Nat
  name : String
  ns : Option String
  /-- Set for a type that stands for a kind rather than for a class. -/
  primitive : Option Kind
  members : Members
  /-- Set for an open generic type. -/
  typeParams : Option (List String)
  /-- The record that holds the static data; closed forms of one open type share it. -/
  home : String
  base : Option HostType
  nested : List HostType
  typeArgs : List HostType
deriving Inhabited

namespace HostType

mutual

/-- The numbers are compared first, which settles most cases. -/
def decEq : (s t : HostType) → Decidable (s = t)
  | ⟨i, name, ns, primitive, members, typeParams, home, base, nested, typeArgs⟩,
    ⟨i', name', ns', primitive', members', typeParams', home', base', nested', typeArgs'⟩ =>
    if own : i = i' ∧ name = name' ∧ ns = ns' ∧ primitive = primitive' ∧ members = members' ∧
        typeParams = typeParams' ∧ home = home' then
      match decEqBase base base', decEqAll nested nested', decEqAll typeArgs typeArgs' with
      | isTrue h, isTrue h', isTrue h'' => isTrue (by simp [own, h, h', h''])
      | isFalse other, _, _ => isFalse (by simp [other])
      | _, isFalse other, _ => isFalse (by simp [other])
      | _, _, isFalse other => isFalse (by simp [other])
    else isFalse fun same => own (by cases same; simp)

def decEqBase : (s t : Option HostType) → Decidable (s = t)
  | none, none => isTrue rfl
  | some s, some t =>
    match decEq s t with
    | isTrue same => isTrue (by rw [same])
    | isFalse other => isFalse (by simpa using other)
  | none, some _ | some _, none => isFalse (by simp)

def decEqAll : (ss ts : List HostType) → Decidable (ss = ts)
  | [], [] => isTrue rfl
  | s :: ss, t :: ts =>
    match decEq s t, decEqAll ss ts with
    | isTrue first, isTrue rest => isTrue (by rw [first, rest])
    | isFalse first, _ => isFalse (by simp [first])
    | _, isFalse rest => isFalse (by simp [rest])
  | [], _ :: _ | _ :: _, [] => isFalse (by simp)

end

instance : DecidableEq HostType := decEq

def fullName (t : HostType) : String :=
  match t.ns with
  | some ns => ns ++ "." ++ t.name
  | none => t.name

def isOpen (t : HostType) : Bool :=
  t.typeParams.isSome

def arity (t : HostType) : Nat :=
  (t.typeParams.getD []).length

def kind (t : HostType) : Kind :=
  t.primitive.getD (.object t.fullName)

/-- The type followed by its base, the base of that, and so on. -/
def chain : HostType → List HostType
  | t@⟨_, _, _, _, _, _, _, some base, _, _⟩ => t :: base.chain
  | t => [t]

/-- Whether some class of the chain has this full name. -/
def isSubtypeOf (t : HostType) (className : String) : Bool :=
  t.chain.any (·.fullName == className)

/-- Whether both are one definition. -/
def isSame (s t : HostType) : Bool :=
  s == t

/-- Equality as hosts and scripts see it. -/
def equal (s t : HostType) : Bool :=
  s.isSame t || s.fullName == t.fullName

/-- The primitive type for a kind. -/
def ofKind (identity : Nat) (name : String) (kind : Kind) (ns : Option String) : HostType where
  identity := identity
  name := name
  ns := ns
  primitive := some kind
  members := {}
  typeParams := none
  home := name
  base := none
  nested := []
  typeArgs := []

end HostType

/-- An instance of a class; what it holds is kept under its number. -/
structure HostObject where
  id : Nat
  cls : HostType
deriving Inhabited

end ScriptBridge
