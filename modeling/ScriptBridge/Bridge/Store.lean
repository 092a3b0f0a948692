import ScriptBridge.Bridge.EventSource
import ScriptBridge.Bridge.Marshal

/-!
# Host data

The data behind host objects and behind classes with static members, and the log of what host
members did. Data of an object is borrowed while host code works on it: shared by any number of
readers, or by one writer alone.
-/

namespace ScriptBridge.Bridge

open Script

/-- A value as it was when it was logged. -/
inductive Snapshot
  | nil
  | bool (b : Bool)
  | int (i : Int64)
  | unsigned (u : UInt64)
  | float (x : Float)
  | big (n : Int)
  | str (s : String)
  | array (items : List Snapshot)
  | table (entries : List (Snapshot × Snapshot))
  /-- A table nested too deep. -/
  | deep
  | function
  | thread
  /-- An object; its number cannot be read while its data is being written. -/
  | object (id : Option Nat) (className : String)
  | type (name : String)
deriving Inhabited

inductive HookKind
  | call | ret | line | count
deriving DecidableEq, Repr

def HookKind.text : HookKind → String
  | call => "call"
  | ret => "ret"
  | line => "line"
  | count => "count"

inductive LogEntry
  | call (label className : String) (self : Snapshot) (args : List Snapshot)
      (typeArgs : List String)
  | get (name : String) (self : Snapshot) (index : Option (List Snapshot))
  | set (name : String) (self : Snapshot) (index : Option (List Snapshot)) (value : Snapshot)
  | subscribe (name : String) (self : Snapshot)
  | unsubscribe (name : String) (self : Snapshot)
  | hook (kind : HookKind) (line : Option Nat)

/-- Data fields, the cells of properties by name and index, and the sources of events. -/
structure Record where
  fields : Named HostValue := []
  cells : List ((String × List HostValue) × HostValue) := []
  events : Named EventSource := []
deriving Inhabited

namespace Record

def field (r : Record) (name : String) : HostValue :=
  (r.fields.find? name).getD .nil

def setNamed {α : Type} (entries : Named α) (name : String) (item : α) : Named α :=
  match entries with
  | [] => [(name, item)]
  | (other, old) :: rest =>
    if other == name then (name, item) :: rest else (other, old) :: setNamed rest name item

def setField (r : Record) (name : String) (v : HostValue) : Record :=
  { r with fields := setNamed r.fields name v }

def isCell (name : String) (index : List HostValue)
    (cell : (String × List HostValue) × HostValue) : Bool :=
  cell.1.1 == name && HostValue.sameAll cell.1.2 index

def cell? (r : Record) (name : String) (index : List HostValue) : Option HostValue :=
  (r.cells.find? (isCell name index)).map (·.2)

def setCell (r : Record) (name : String) (index : List HostValue) (v : HostValue) : Record :=
  { r with cells := r.cells.filter (!isCell name index ·) ++ [((name, index), v)] }

/-- The source of an event; nobody has subscribed to one that is not there yet. -/
def source (r : Record) (event : String) : EventSource :=
  (r.events.find? event).getD {}

def setSource (r : Record) (event : String) (source : EventSource) : Record :=
  { r with events := setNamed r.events event source }

end Record

/-- An object's class and data, and who has borrowed it. -/
structure Instance where
  cls : HostType
  data : Record
  readers : Nat := 0
  writing : Bool := false
deriving Inhabited

/-- Objects by number, counted from 1, static data by class, and the log, newest entry first. -/
structure Store where
  instances : Array Instance := #[]
  statics : Named Record := []
  log : List LogEntry := []
deriving Inhabited

inductive Holder
  | object (o : HostObject)
  | cls (name : String)
deriving Inhabited

namespace Store

def instance? (s : Store) (o : HostObject) : Option Instance :=
  s.instances[o.id - 1]?

def setInstance (s : Store) (o : HostObject) (i : Instance) : Store :=
  { s with instances := s.instances.setIfInBounds (o.id - 1) i }

def isWriting (s : Store) (o : HostObject) : Bool :=
  ((s.instance? o).map (·.writing)).getD false

def isBorrowed (s : Store) (o : HostObject) : Bool :=
  ((s.instance? o).map fun i => i.writing || 0 < i.readers).getD false

/-- A new object of a class with some data. -/
def newObject (s : Store) (cls : HostType) (fields : Named HostValue) : HostObject × Store :=
  (⟨s.instances.size + 1, cls⟩,
    { s with instances := s.instances.push { cls, data := { fields } } })

def record (s : Store) : Holder → Record
  | .object o => ((s.instance? o).map (·.data)).getD {}
  | .cls name => (s.statics.find? name).getD {}

def update (s : Store) (holder : Holder) (f : Record → Record) : Store :=
  match holder with
  | .object o =>
    match s.instance? o with
    | some i => s.setInstance o { i with data := f i.data }
    | none => s
  | .cls name =>
    { s with statics := Record.setNamed s.statics name (f (s.record (.cls name))) }

/-- Puts a source in the place of the one that an event has. -/
def setSource (s : Store) (holder : Holder) (event : String) (source : EventSource) : Store :=
  s.update holder (·.setSource event source)

/-- Data can be read unless a writer has borrowed it. -/
def checkReadable (s : Store) (o : HostObject) : Except HostFailure Unit :=
  if s.isWriting o then .error (.failed (o.cls.name ++ " is already mutably borrowed")) else .ok ()

/-- Data can be changed only while nobody has borrowed it. -/
def checkWritable (s : Store) (o : HostObject) : Except HostFailure Unit :=
  if s.isBorrowed o then .error (.failed (o.cls.name ++ " is already borrowed")) else .ok ()

def checkBorrow (s : Store) (o : HostObject) : BorrowMode → Except HostFailure Unit
  | .shared => s.checkReadable o
  | .exclusive => s.checkWritable o

/-- Data that is borrowed for a moment. -/
def reach (s : Store) (mode : BorrowMode) (holder : Holder) : Except HostFailure Record := do
  if let .object o := holder then s.checkBorrow o mode
  return s.record holder

/-- Data that is read while it is borrowed shared. -/
def read (s : Store) (holder : Holder) : Except HostFailure Record :=
  s.reach .shared holder

/-- Data that is changed while it is borrowed by one writer. -/
def write (s : Store) (holder : Holder) (f : Record → Record) : Except HostFailure Store := do
  let _ ← s.reach .exclusive holder
  return s.update holder f

/-- Borrows an object's data until it is given back. -/
def borrow (s : Store) (o : HostObject) (mode : BorrowMode) : Except HostFailure Store := do
  s.checkBorrow o mode
  match s.instance? o, mode with
  | some i, .shared => return s.setInstance o { i with readers := i.readers + 1 }
  | some i, .exclusive => return s.setInstance o { i with writing := true }
  | none, _ => return s

def giveBack (s : Store) (o : HostObject) (mode : BorrowMode) : Store :=
  match s.instance? o, mode with
  | some i, .shared => s.setInstance o { i with readers := i.readers - 1 }
  | some i, .exclusive => s.setInstance o { i with writing := false }
  | none, _ => s

/-- The static data that classes start with. -/
def ofTypes (types : List HostType) : Store where
  statics := types.map fun t =>
    (t.home, { fields := t.members.fields.filterMap fun f =>
      if f.isStatic then f.initial.map fun v => (f.name, v.value) else none })

/-- How an object prints, with objects in its data printed so many levels deep. -/
def displayWithin (s : Store) : Nat → HostObject → String
  | 0, o => o.cls.name
  | levels + 1, o =>
    match o.cls.members.display with
    | none => o.cls.name
    | some d =>
      if s.isWriting o then d.name ++ "(?)"
      else
        let data := s.record (.object o)
        let texts := d.fields.map fun name => (data.field name).text (s.displayWithin levels)
        d.name ++ "(" ++ ", ".intercalate texts ++ ")"

/-- How an object prints: as its class has it, or by the name of the class. -/
def display (s : Store) (o : HostObject) : String :=
  s.displayWithin (s.instances.size + 1) o

/-- The picture of a value, given one of tables. -/
def snapshotWith (s : Store) (table : Nat → Snapshot) : HostValue → Snapshot
  | .nil => .nil
  | .bool b => .bool b
  | .int i => .int i
  | .unsigned u => .unsigned u
  | .float x => .float x
  | .big n => .big n
  | .str t => .str t
  | .array items => .array (items.map (snapshotWith s table))
  | .table id => table id
  | .function _ => .function
  | .thread _ => .thread
  | .object o => .object (if s.isWriting o then none else some o.id) o.cls.fullName
  | .type t => .type t.fullName

/-- The picture of a table, so many levels deep. -/
def snapshotTable (s : Store) (h : Heap) : (levels id : Nat) → Snapshot
  | 0, _ => .deep
  | levels + 1, id =>
    .table ((h.table id).entries.map fun (k, v) =>
      (s.snapshotWith (s.snapshotTable h levels) (pull h k),
        s.snapshotWith (s.snapshotTable h levels) (pull h v)))

/-- The picture of a value; tables are followed eight levels deep. -/
def snapshot (s : Store) (h : Heap) (v : HostValue) : Snapshot :=
  s.snapshotWith (s.snapshotTable h 8) v

def snapshotSelf (s : Store) (h : Heap) : Option HostObject → Snapshot
  | some o => s.snapshot h (.object o)
  | none => .nil

def addLog (s : Store) (entry : LogEntry) : Store :=
  { s with log := entry :: s.log }

end Store

end ScriptBridge.Bridge
