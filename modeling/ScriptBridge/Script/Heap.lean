import ScriptBridge.Script.Value
import ScriptBridge.Host.Target
import ScriptBridge.Host.MemberTable
import ScriptBridge.Handle
import ScriptBridge.Error

/-!
# The script heap

Tables, variables, closures and userdata, each reached by number. Userdata stand for what the
bridge hands to scripts; those for host objects and types hold a handle that keeps the value
pinned.
-/

namespace ScriptBridge.Script

/-- Entries in the order in which the keys came up; a key occurs once and has a value other than
nil. -/
structure Table where
  entries : List (Value × Value) := []
  metatable : Option Nat := none
deriving Inhabited

namespace Table

def get (t : Table) (k : Value) : Value :=
  (t.entries.lookup k.key).getD .nil

def erase (entries : List (Value × Value)) (k : Value) : List (Value × Value) :=
  entries.filter (·.1 != k)

def insert : List (Value × Value) → Value → Value → List (Value × Value)
  | [], k, v => [(k, v)]
  | (k', v') :: rest, k, v => if k' == k then (k, v) :: rest else (k', v') :: insert rest k v

/-- Stores a value under a key; storing nil removes the entry. -/
def set (t : Table) (k v : Value) : Table :=
  { t with entries := if v.isNil then erase t.entries k.key else insert t.entries k.key v }

/-- A border of a table: there is a value under it, unless it is zero, and none under the number
that follows. There are so many integer keys and no more. -/
structure IsBorder (t : Table) (n : Nat) : Prop where
  most : n ≤ UInt64.size
  filled : n ≠ 0 → (t.get (.int (Int64.ofNat n))).isNil = false
  open_ : n < UInt64.size → (t.get (.int (Int64.ofNat (n + 1)))).isNil = true

/-- The largest `n`, counting on from `i`, with values under all keys up to it. -/
def borderFrom (t : Table) : (fuel i : Nat) → Nat
  | 0, i => i
  | fuel + 1, i =>
    if (t.get (.int (Int64.ofNat (i + 1)))).isNil then i else borderFrom t fuel (i + 1)

theorem isBorder_borderFrom (t : Table) (fuel i : Nat) (all : i + fuel = UInt64.size)
    (filled : i ≠ 0 → (t.get (.int (Int64.ofNat i))).isNil = false) :
    t.IsBorder (t.borderFrom fuel i) := by
  induction fuel generalizing i with
  | zero => exact ⟨Nat.le_of_eq all, filled, fun more => absurd all (Nat.ne_of_lt more)⟩
  | succ fuel ih =>
    unfold borderFrom
    split
    · rename_i none
      exact ⟨all ▸ Nat.le_add_right i _, filled, fun _ => none⟩
    · rename_i some
      exact ih (i + 1) (by omega) fun _ => Bool.eq_false_iff.2 some

/-- Which border of a table its length is. -/
structure Border where
  of : Table → Nat
  isBorder : ∀ t : Table, t.IsBorder (of t)

/-- The smallest border is the length. -/
def Border.smallest : Border where
  of t := t.borderFrom UInt64.size 0
  isBorder t := t.isBorder_borderFrom UInt64.size 0 (Nat.zero_add _) fun h => absurd rfl h

instance : Inhabited Border :=
  ⟨.smallest⟩

/-- A table of the values under 1, 2, …; nils leave their key without a value. -/
def ofList (vs : List Value) : Table where
  entries := (vs.zipIdx.filter (!·.1.isNil)).map fun (v, i) => (.int (Int64.ofNat (i + 1)), v)

/-- The values under 1 up to a number. -/
def upTo (t : Table) (n : Nat) : List Value :=
  (List.range n).map fun i => t.get (.int (Int64.ofNat (i + 1)))

end Table

/-- A variable in scope and the cell that holds its value. -/
abbrev Variables := List (String × Nat)

structure Closure where
  params : List String
  isVariadic : Bool
  body : List Stmt
  captured : Variables
deriving Inhabited

/-- A value that the script heap keeps alive on the host. -/
inductive Pinned
  | object (o : HostObject)
  | type (t : HostType)
deriving Inhabited

inductive Userdata
  | object (h : Handle)
  | type (h : Handle)
  /-- Overloads bound to the instance or type they were read from. -/
  | methods (target : Target) (name : String) (overloads : List (Declared Method))
  | event (target : Target) (e : Declared Event)
  /-- An indexed property. -/
  | indexer (target : Target) (p : Declared Property)
  | failure (e : ScriptError)
  /-- Something that the bridge knows nothing of. -/
  | foreign
  /-- Collected. -/
  | released
deriving Inhabited

structure Heap where
  tables : Array Table := #[]
  cells : Array Value := #[]
  closures : Array Closure := #[]
  userdata : Array Userdata := #[]
  handles : HandleTable Pinned := {}
  /-- How the engine measures tables. -/
  border : Table.Border := .smallest
deriving Inhabited

namespace Heap

def table (h : Heap) (id : Nat) : Table :=
  h.tables[id]?.getD {}

def setTable (h : Heap) (id : Nat) (t : Table) : Heap :=
  { h with tables := h.tables.setIfInBounds id t }

def newTable (h : Heap) (t : Table) : Nat × Heap :=
  (h.tables.size, { h with tables := h.tables.push t })

/-- The length of a table. -/
def length (h : Heap) (id : Nat) : Nat :=
  h.border.of (h.table id)

/-- The values of a table under 1 up to its length. -/
def sequence (h : Heap) (id : Nat) : List Value :=
  (h.table id).upTo (h.length id)

def rawGet (h : Heap) (id : Nat) (k : Value) : Value :=
  (h.table id).get k

def rawSet (h : Heap) (id : Nat) (k v : Value) : Heap :=
  h.setTable id ((h.table id).set k v)

def cell (h : Heap) (id : Nat) : Value :=
  h.cells[id]?.getD .nil

def setCell (h : Heap) (id : Nat) (v : Value) : Heap :=
  { h with cells := h.cells.setIfInBounds id v }

def newCell (h : Heap) (v : Value) : Nat × Heap :=
  (h.cells.size, { h with cells := h.cells.push v })

/-- Brings variables into scope, each in a new cell. -/
def declare (h : Heap) (scope : Variables) : List (String × Value) → Variables × Heap
  | [] => (scope, h)
  | (name, v) :: rest =>
    let (id, h) := h.newCell v
    declare h ((name, id) :: scope) rest

def closure (h : Heap) (id : Nat) : Closure :=
  h.closures[id]?.getD default

def newClosure (h : Heap) (c : Closure) : Nat × Heap :=
  (h.closures.size, { h with closures := h.closures.push c })

def userdatum (h : Heap) (id : Nat) : Userdata :=
  h.userdata[id]?.getD .released

def newUserdata (h : Heap) (u : Userdata) : Value × Heap :=
  (.userdata h.userdata.size, { h with userdata := h.userdata.push u })

/-- What a userdata pins, while its handle is live. -/
def pinned? (h : Heap) (u : Userdata) : Option Pinned :=
  match u with
  | .object handle => h.handles.resolve? handle
  | .type handle => h.handles.resolve? handle
  | _ => none

/-- The object or type that a userdata stands for. -/
def target? (h : Heap) (u : Userdata) : Option Target :=
  match u, h.pinned? u with
  | .object _, some (.object o) => some (.object o)
  | .type _, some (.type t) => some (.type t)
  | _, _ => none

/-- Collects a userdata; its handle is released. -/
def finalize (h : Heap) (id : Nat) : Heap :=
  let handles := match h.userdatum id with
    | .object handle => h.handles.unpin handle
    | .type handle => h.handles.unpin handle
    | _ => h.handles
  { h with handles, userdata := h.userdata.setIfInBounds id .released }

/-- The metamethod of a table for an event. -/
def metamethod (h : Heap) (id : Nat) (event : String) : Value :=
  match (h.table id).metatable with
  | some m => h.rawGet m (.ofString event)
  | none => .nil

end Heap

end ScriptBridge.Script
