import ScriptBridge.Machine.State

/-!
# Garbage collection

Userdata that scripts and the host can no longer reach are collected, and the handles of those
that stand for objects or types are released. Objects belong to the host: one lives as long as
something refers to it, and while it lives so do the tables, functions and threads in its data.
-/

namespace ScriptBridge.Machine

open Script Bridge

/-- References to the script engine inside a host value. -/
def references : HostValue → List Value
  | .array items => items.flatMap references
  | .table id => [.table id]
  | .function r => [.function r]
  | .thread id => [.thread id]
  | _ => []

def objects : HostValue → List Nat
  | .array items => items.flatMap objects
  | .object o => [o.id]
  | _ => []

/-- The values that data holds; handlers are held as functions. -/
def recordValues (r : Record) : List HostValue :=
  r.fields.map (·.2) ++ r.cells.flatMap (fun (key, v) => v :: key.2)
    ++ r.events.flatMap fun (_, source) => source.snapshot.map .function

/-- The objects that a userdata keeps alive. -/
def userdataObjects (h : Heap) (u : Userdata) : List Nat :=
  let target : Option Target := match u with
    | .methods target _ _ => some target
    | .event target _ => some target
    | .indexer target _ => some target
    | u => h.target? u
  match target with
  | some (.object o) => [o.id]
  | _ => []

/-- Objects that the host, the static data and the userdata refer to. -/
def objectRoots (w : World) (held : List HostValue) : List Nat :=
  held.flatMap objects
    ++ (w.store.statics.flatMap fun (_, r) => (recordValues r).flatMap objects)
    ++ (w.heap.userdata.toList.flatMap (userdataObjects w.heap))

def instanceValues (s : Store) (id : Nat) : List HostValue :=
  ((s.instances[id - 1]?).map fun i => recordValues i.data).getD []

/-- Drops the objects that nothing left refers to, until all are referred to. Objects that refer
to each other stay. -/
def dropUnreferenced (s : Store) (roots : List Nat) : Nat → List Nat → List Nat
  | 0, living => living
  | fuel + 1, living =>
    let referred := roots ++ living.flatMap fun id => (instanceValues s id).flatMap objects
    let left := living.filter referred.contains
    if left.length == living.length then living else dropUnreferenced s roots fuel left

def livingObjects (w : World) (held : List HostValue) : List Nat :=
  let all := (List.range w.store.instances.size).map (· + 1)
  dropUnreferenced w.store (objectRoots w held) (all.length + 1) all

/-- What scripts hold through their variables. -/
def scopeValues (h : Heap) (scope : Scope) : List Value :=
  scope.varargs ++ scope.bindings.map fun (_, cell) => h.cell cell

/-- What a waiting frame holds. -/
def frameValues (h : Heap) : Frame → List Value
  | .collect done _ scope => done ++ scopeValues h scope
  | .lastOf done => done
  | .callee _ scope => scopeValues h scope
  | .apply f => [f]
  | .receiver _ _ scope => scopeValues h scope
  | .method object _ scope => object :: scopeValues h scope
  | .applyTo f object => [f, object]
  | .indexKey _ scope => scopeValues h scope
  | .indexWith object => [object]
  | .right _ _ scope => scopeValues h scope
  | .operate _ a => [a]
  | .junction _ _ scope => scopeValues h scope
  | .entryKey table _ _ scope => .table table :: scopeValues h scope
  | .entryValue table key _ scope => .table table :: key :: scopeValues h scope
  | .bind _ rest => scopeValues h rest.scope
  | .assign _ rest => scopeValues h rest.scope
  | .storeKey _ _ rest => scopeValues h rest.scope
  | .storeValue object _ rest => object :: scopeValues h rest.scope
  | .storeTo object key rest => object :: key :: scopeValues h rest.scope
  | .discard rest => scopeValues h rest.scope
  | .branch _ _ rest => scopeValues h rest.scope
  | .forFirst _ _ _ rest => scopeValues h rest.scope
  | .forLast _ first _ rest => first :: scopeValues h rest.scope
  | .counting _ _ _ _ rest => scopeValues h rest.scope
  | .stepping _ _ _ _ rest => scopeValues h rest.scope
  | .whileTest _ _ rest => scopeValues h rest.scope
  | .whileBody _ _ rest => scopeValues h rest.scope
  | .next rest => scopeValues h rest.scope
  | .emitting _ _ _ rest arg => arg :: rest.map .function
  | _ => []

/-- What a value keeps alive directly. -/
def children (w : World) : Value → List Value
  | .table id =>
    let t := w.heap.table id
    (t.metatable.toList.map .table) ++ t.entries.flatMap fun (k, v) => [k, v]
  | .function (.closure id) => (w.heap.closure id).captured.map fun (_, cell) => w.heap.cell cell
  | .function (.builtin (.wrapped thread)) => [.thread thread]
  | .thread id =>
    match w.thread id with
    | .fresh f => [f]
    | .suspended stack _ => stack.flatMap (frameValues w.heap)
    | .failed stack => stack.flatMap (frameValues w.heap)
    | _ => []
  | _ => []

structure Marks where
  tables : Array Bool
  closures : Array Bool
  threads : Array Bool
  userdata : Array Bool

namespace Marks

def empty (w : World) : Marks where
  tables := .replicate w.heap.tables.size false
  closures := .replicate w.heap.closures.size false
  threads := .replicate w.threads.size false
  userdata := .replicate w.heap.userdata.size false

/-- Marks a value; nothing when it was marked or needs no mark. -/
def add? (marks : Marks) : Value → Option Marks
  | .table id =>
    if marks.tables[id]?.getD true then none
    else some { marks with tables := marks.tables.setIfInBounds id true }
  | .function (.closure id) =>
    if marks.closures[id]?.getD true then none
    else some { marks with closures := marks.closures.setIfInBounds id true }
  | .function (.builtin (.wrapped id)) =>
    if marks.threads[id]?.getD true then none else some marks
  | .thread id =>
    if marks.threads[id]?.getD true then none
    else some { marks with threads := marks.threads.setIfInBounds id true }
  | .userdata id =>
    if marks.userdata[id]?.getD true then none
    else some { marks with userdata := marks.userdata.setIfInBounds id true }
  | _ => none

end Marks

/-- Marks what is reachable from the pending values; every new mark takes one unit of fuel. -/
def mark (w : World) : (fuel : Nat) → List Value → Marks → Marks
  | _, [], marks => marks
  | 0, _, marks => marks
  | fuel + 1, v :: pending, marks =>
    match marks.add? v with
    | none => mark w (fuel + 1) pending marks
    | some marks => mark w fuel (children w v ++ pending) marks
termination_by fuel pending => (fuel, pending.length)

/-- The script values that the host and the global variables hold. -/
def valueRoots (w : World) (held : List HostValue) : List Value :=
  let data := (livingObjects w held).flatMap (instanceValues w.store)
    ++ w.store.statics.flatMap fun (_, r) => recordValues r
  .table w.globals :: (w.strings.toList.map .table)
    ++ (w.coroutines.map fun (_, thread) => .thread thread)
    ++ (held ++ data).flatMap references

/-- One cycle: userdata that are not reached are collected, the newest first. -/
def collectOnce (w : World) (held : List HostValue) : World :=
  let fuel := 2 * (w.heap.tables.size + w.heap.closures.size + w.threads.size
    + w.heap.userdata.size) + 1
  let marks := mark w fuel (valueRoots w held) (.empty w)
  let dead := (List.range w.heap.userdata.size).filter fun id =>
    !(marks.userdata[id]?.getD true)
  { w with heap := dead.foldr (fun id h => h.finalize id) w.heap }

/-- Collects twice, so that what the first cycle released is gone after the second. -/
def collectGarbage (w : World) (held : List HostValue) : World :=
  collectOnce (collectOnce w held) held

end ScriptBridge.Machine
