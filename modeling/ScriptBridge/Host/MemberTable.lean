import ScriptBridge.Host.Type

/-!
# Member tables

What a class exposes under which name, its bases included: overloads add up along the chain of
bases, other members are found at the nearest class that declares them. Hidden members and the
names on the deny list are left out.
-/

namespace ScriptBridge

/-- A declaration and its place: the class that declares it and its position there. -/
structure Declared (α : Type) where
  owner : HostType
  index : Nat
  item : α

namespace Declared

variable {α β : Type}

/-- Whether both are the same declaration. -/
def isSame (a : Declared α) (b : Declared β) : Bool :=
  a.owner.isSame b.owner && a.index == b.index

/-- The declarations of a class, in order. -/
def all (owner : HostType) (items : List α) : List (Declared α) :=
  items.zipIdx.map fun (item, index) => ⟨owner, index, item⟩

end Declared

/-- Entries by name, in the order in which the names came up. -/
abbrev Named (α : Type) := List (String × α)

namespace Named

variable {α : Type}

def find? (entries : Named α) (name : String) : Option α :=
  entries.lookup name

/-- Adds an entry unless the name has one. -/
def insertNew (entries : Named α) (name : String) (item : α) : Named α :=
  if (entries.find? name).isSome then entries else entries ++ [(name, item)]

/-- Adds an item to the end of the group under a name. -/
def adjoin (groups : Named (List α)) (name : String) (item : α) : Named (List α) :=
  match groups with
  | [] => [(name, [item])]
  | (other, items) :: rest =>
    if other == name then (other, items ++ [item]) :: rest
    else (other, items) :: adjoin rest name item

def names (entries : Named α) : List String :=
  entries.map (·.1)

end Named

/-- Names that are never exposed. -/
def denyList : List String :=
  ["clone", "clone_from", "drop", "dispose", "eq", "ne", "fmt", "hash", "type_id", "iter",
    "into_iter", "to_owned"]

def isExposed (name : String) (hidden : Bool) : Bool :=
  !hidden && !denyList.contains name

inductive Member
  | event (e : Declared Event)
  | field (f : Declared Field)
  | methods (name : String) (overloads : List (Declared Method))
  | property (p : Declared Property)
  | nested (t : HostType)

def Member.kindName : Member → String
  | event _ => "event"
  | field _ => "field"
  | methods .. => "method"
  | property _ => "property"
  | nested _ => "nested type"

/-- The members of instances, or the static ones. -/
structure MemberTable where
  methods : Named (List (Declared Method)) := []
  fields : Named (Declared Field) := []
  properties : Named (Declared Property) := []
  events : Named (Declared Event) := []
  nested : Named HostType := []

namespace MemberTable

/-- Of members of several kinds under one name, events come first, then fields, methods,
properties and nested types. -/
def lookup (table : MemberTable) (name : String) : Option Member :=
  match table.events.find? name with
  | some e => some (.event e)
  | none => match table.fields.find? name with
    | some f => some (.field f)
    | none => match table.methods.find? name with
      | some overloads => some (.methods name overloads)
      | none => match table.properties.find? name with
        | some p => some (.property p)
        | none => (table.nested.find? name).map .nested

def methodGroup? (table : MemberTable) (name : String) : Option (List (Declared Method)) :=
  table.methods.find? name

/-- Inserts into a sorted list without repetitions. -/
def insertName (name : String) : List String → List String
  | [] => [name]
  | other :: rest =>
    if name == other then other :: rest
    else if name < other then name :: other :: rest
    else other :: insertName name rest

/-- All exposed names, sorted. -/
def memberNames (table : MemberTable) : List String :=
  (table.methods.names ++ table.fields.names ++ table.properties.names ++ table.events.names
    ++ table.nested.names).foldr insertName []

def isEmpty (table : MemberTable) : Bool :=
  table.methods.isEmpty && table.fields.isEmpty && table.properties.isEmpty
    && table.events.isEmpty && table.nested.isEmpty

def addMethod (table : MemberTable) (m : Declared Method) : MemberTable :=
  { table with methods := table.methods.adjoin m.item.name m }

def addField (table : MemberTable) (f : Declared Field) : MemberTable :=
  { table with fields := table.fields.insertNew f.item.name f }

def addProperty (table : MemberTable) (p : Declared Property) : MemberTable :=
  { table with properties := table.properties.insertNew p.item.name p }

def addEvent (table : MemberTable) (e : Declared Event) : MemberTable :=
  { table with events := table.events.insertNew e.item.name e }

def addNested (table : MemberTable) (t : HostType) : MemberTable :=
  { table with nested := table.nested.insertNew t.name t }

/-- Adds what one class declares for instances, or its static members. -/
def addClass (isStatic : Bool) (table : MemberTable) (t : HostType) : MemberTable :=
  let table := ((Declared.all t t.members.methods).filter fun m =>
    m.item.isStatic == isStatic && isExposed m.item.name m.item.hidden).foldl addMethod table
  let table := ((Declared.all t t.members.fields).filter fun f =>
    f.item.isStatic == isStatic && isExposed f.item.name f.item.hidden).foldl addField table
  let table := ((Declared.all t t.members.properties).filter fun p =>
    p.item.isStatic == isStatic && isExposed p.item.name p.item.hidden).foldl addProperty table
  let table := ((Declared.all t t.members.events).filter fun e =>
    e.item.isStatic == isStatic && isExposed e.item.name e.item.hidden).foldl addEvent table
  if isStatic then t.nested.foldl addNested table else table

end MemberTable

structure Metadata where
  type : HostType
  constructors : List (Declared Method)
  instances : MemberTable
  statics : MemberTable
  operators : List (Declared (Operator × Method))

namespace Metadata

/-- Collects the members of a type along its chain of bases. Extension functions join the methods
of instances, behind all declared overloads. -/
def build (extensions : String → List (Declared Method)) (t : HostType) : Metadata where
  type := t
  constructors := (Declared.all t t.members.constructors).filter (!·.item.hidden)
  instances :=
    let declared := t.chain.foldl (MemberTable.addClass false) {}
    (t.chain.flatMap fun s => (extensions s.fullName).filter fun m =>
      isExposed m.item.name m.item.hidden).foldl MemberTable.addMethod declared
  statics := t.chain.foldl (MemberTable.addClass true) {}
  operators := t.chain.flatMap fun s => Declared.all s s.members.operators

def members (m : Metadata) (isStatic : Bool) : MemberTable :=
  if isStatic then m.statics else m.instances

def operator (m : Metadata) (op : Operator) : List (Declared Method) :=
  m.operators.filterMap fun d =>
    if d.item.1 == op then some ⟨d.owner, d.index, d.item.2⟩ else none

end Metadata

end ScriptBridge
