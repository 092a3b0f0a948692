import ScriptBridge.Host.MemberTable
import ScriptBridge.Error

/-!
# Registry of host types

The types that scripts can see, by full name and in order of registration, the extension
functions that they declare, and the closed forms of generic types made so far.
-/

namespace ScriptBridge

/-- The namespace of the types that stand for kinds. -/
def primitiveNamespace : String :=
  "prim"

def primitiveKinds : List (String × Kind) :=
  [("any", .any), ("bool", .bool), ("i8", .int .i8), ("i16", .int .i16), ("i32", .int .i32),
    ("i64", .int .i64), ("u8", .int .u8), ("u16", .int .u16), ("u32", .int .u32),
    ("u64", .int .u64), ("f32", .f32), ("f64", .f64), ("bigint", .bigint), ("str", .string),
    ("table", .table), ("function", .function)]

def primitiveTypes : List HostType :=
  primitiveKinds.zipIdx.map fun ((name, kind), i) =>
    .ofKind i name kind (some primitiveNamespace)

/-- Types in order, and the positions at which their full names are listed. -/
structure Catalog where
  types : List HostType := []
  positions : Named Nat := []
deriving Inhabited

/-- Puts a type under its full name: in the place of an earlier one, or at the end. -/
def Catalog.place (c : Catalog) (t : HostType) : Catalog :=
  match c.positions.find? t.fullName with
  | some i => { c with types := c.types.set i t }
  | none =>
    { types := c.types ++ [t], positions := c.positions ++ [(t.fullName, c.types.length)] }

/-- How an open generic type fills in the draft of a closed form for its arguments. -/
abbrev Closer := (opened draft : HostType) → (args : List HostType) → HostType

/-- Fills in nothing. -/
def Closer.blank : Closer := fun _ draft _ => draft

/-- Closes every open type by a pattern: the closed form has the members of the pattern, with each
placeholder replaced by the kind of its argument. -/
def Closer.ofPatterns (pattern : HostType → HostType) : Closer := fun opened draft args =>
  { draft with
    members := (pattern opened).members.substitute (args.map (·.kind))
    nested := (pattern opened).nested }

/-- Among extension functions those for the class of a full name. -/
def extensionsAmong (extensions : List (String × Declared Method)) (fullName : String) :
    List (Declared Method) :=
  extensions.filterMap fun (name, m) => if name == fullName then some m else none

structure Registry where
  types : List HostType
  /-- Extension functions with the full name of the class that they extend. -/
  extensions : List (String × Declared Method)
  closed : Named HostType
  nextIdentity : Nat
  closer : Closer
  /-- What is exposed of types, kept since it was first asked for. -/
  snapshots : List (HostType × Metadata) := []
  snapshots_built : ∀ t m, (t, m) ∈ snapshots → m = .build (extensionsAmong extensions) t := by
    intro _ _ mem
    cases mem

namespace Registry

/-- A registry of nothing. -/
def empty : Registry where
  types := []
  extensions := []
  closed := []
  nextIdentity := 0
  closer := .blank

instance : Inhabited Registry :=
  ⟨empty⟩

theorem sizeOf_nested_lt (t : HostType) : sizeOf t.nested < sizeOf t := by
  cases t
  simp
  omega

def visit : List HostType → List HostType
  | [] => []
  | t :: pending => t :: visit (t.nested ++ pending)
termination_by pending => sizeOf pending
decreasing_by
  have h := sizeOf_nested_lt t
  have happend (xs ys : List HostType) : sizeOf (xs ++ ys) + 1 = sizeOf xs + sizeOf ys := by
    induction xs with
    | nil => simp; omega
    | cons x xs ih => simp; omega
  have := happend t.nested pending
  simp
  omega

/-- The class that an extension function extends: the kind of its first parameter. -/
def extended? (m : Method) : Option String :=
  if m.isExtension then
    match m.params with
    | ⟨_, .object name, _, _⟩ :: _ => some name
    | _ => none
  else none

def extensionsOf (t : HostType) : List (String × Declared Method) :=
  (Declared.all t t.members.methods).filterMap fun m =>
    (extended? m.item).map fun name => (name, m)

/-- Types, their nested types with them, behind the primitive ones. -/
def catalog (registered : List HostType) : Catalog :=
  (primitiveTypes ++ visit registered).foldl Catalog.place {}

/-- Registers types. Of their catalog the list is kept, which tells the positions too. -/
def build (registered : List HostType) (nextIdentity : Nat)
    (closer : Closer := .blank) : Registry :=
  let types := (catalog registered).types
  { types, extensions := types.flatMap extensionsOf, closed := [], nextIdentity, closer }

def descriptor? (r : Registry) (fullName : String) : Option HostType :=
  r.types.find? (·.fullName == fullName)

def inNamespace (r : Registry) (ns : String) : List HostType :=
  r.types.filter (·.ns == some ns)

def extensionsFor (r : Registry) (fullName : String) : List (Declared Method) :=
  extensionsAmong r.extensions fullName

/-- What was kept for this very definition. -/
def snapshot? (r : Registry) (t : HostType) : Option Metadata :=
  (r.snapshots.find? (·.1.isSame t)).map (·.2)

/-- What is exposed of a type: the snapshot kept for it, or else one built now. -/
def metadata (r : Registry) (t : HostType) : Metadata :=
  (r.snapshot? t).getD (.build r.extensionsFor t)

/-- Keeps the snapshot of a type that was asked for. -/
def remember (r : Registry) (t : HostType) : Registry :=
  if (r.snapshot? t).isSome then r
  else
    { r with
      snapshots := r.snapshots ++ [(t, .build r.extensionsFor t)]
      snapshots_built := by
        intro s m mem
        rcases List.mem_append.1 mem with mem | mem
        · exact r.snapshots_built s m mem
        · cases List.mem_singleton.1 mem
          rfl }

/-- A snapshot is what building it again would give. -/
theorem metadata_eq (r : Registry) (t : HostType) : r.metadata t = .build r.extensionsFor t := by
  unfold metadata snapshot?
  cases found : r.snapshots.find? (·.1.isSame t) with
  | none => rfl
  | some entry =>
    obtain ⟨s, m⟩ := entry
    have same := List.find?_some found
    obtain rfl : s = t := eq_of_beq same
    exact r.snapshots_built s m (List.mem_of_find?_eq_some found)

section Remember

variable (r : Registry) (s t : HostType)

@[simp]
theorem remember_types : (r.remember t).types = r.types := by
  unfold remember
  split <;> rfl

@[simp]
theorem remember_extensions : (r.remember t).extensions = r.extensions := by
  unfold remember
  split <;> rfl

@[simp]
theorem remember_closed : (r.remember t).closed = r.closed := by
  unfold remember
  split <;> rfl

@[simp]
theorem remember_extensionsFor : (r.remember t).extensionsFor = r.extensionsFor := by
  unfold extensionsFor
  rw [remember_extensions]

@[simp]
theorem metadata_remember : (r.remember t).metadata s = r.metadata s := by
  rw [metadata_eq, metadata_eq, remember_extensionsFor]

end Remember

/-- The name under which a closed type is kept. -/
def closedKey (t : HostType) (args : List HostType) : String :=
  t.fullName ++ "<" ++ ",".intercalate (args.map (·.fullName)) ++ ">"

/-- What is settled of a closed form before its members are: it is named by the open type and the
short names of the arguments. -/
def draft (identity : Nat) (t : HostType) (args : List HostType) : HostType where
  identity := identity
  name := t.name ++ "<" ++ ", ".intercalate (args.map (·.name)) ++ ">"
  ns := t.ns
  primitive := none
  members := {}
  typeParams := none
  home := t.home
  base := t.base
  nested := []
  typeArgs := args

/-- The closed form of an open generic type, a definition of its own. -/
def closedForm (closer : Closer) (identity : Nat) (t : HostType) (args : List HostType) :
    HostType :=
  { closer t (draft identity t args) args with identity := identity }

/-- Why an open type cannot be closed over some arguments. -/
def closeProblem? (t : HostType) (args : List HostType) : Option String :=
  if !t.isOpen then some "type is not generic"
  else if args.length != t.arity then
    some ("expected " ++ toString t.arity ++ " type argument(s), got " ++ toString args.length)
  else (args.find? (·.isOpen)).map fun a => a.fullName ++ " is an open generic type"

/-- Closes an open generic type; closing it again over arguments of the same names gives the same
type. -/
def close (r : Registry) (t : HostType) (args : List HostType) :
    Except BridgeError (HostType × Registry) :=
  match closeProblem? t args with
  | some reason => .error (.invalidTypeArgument t.fullName reason)
  | none =>
    let key := closedKey t args
    match r.closed.find? key with
    | some closed => .ok (closed, r)
    | none =>
      let closed := closedForm r.closer r.nextIdentity t args
      .ok (closed, { r with
        closed := r.closed ++ [(key, closed)]
        nextIdentity := r.nextIdentity + 1 })

end Registry

end ScriptBridge
