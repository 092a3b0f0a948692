import ScriptBridge.Session.Basic

/-!
# Table views

The host's access to a table of the scripts: raw, without metamethods, with keys and values
marshalled on the way.
-/

namespace ScriptBridge.Session.TableView

open Script Bridge Machine

def create (w : World) : Nat × World :=
  let (id, heap) := w.heap.newTable {}
  (id, { w with heap })

def size (w : World) (table : Nat) : Nat :=
  (w.heap.table table).entries.length

def isEmpty (w : World) (table : Nat) : Bool :=
  size w table == 0

def sequenceSize (w : World) (table : Nat) : Nat :=
  w.heap.length table

/-- The value under a key, nil where there is none. -/
def get (w : World) (table : Nat) (key : HostValue) : Answer HostValue :=
  match w.push key with
  | (.error e, w) => (.error e, w)
  | (.ok key, w) => (.ok (w.pull (w.heap.rawGet table key)), w)

def rawStore (w : World) (table : Nat) (key v : Value) : World :=
  { w with heap := w.heap.rawSet table key v }

/-- The engine stores nothing under nil or NaN. -/
def checkKey (key : Value) : Except BridgeError Unit :=
  if key.isKey then .ok ()
  else if key.isNil then .error (.script (.runtime "table index is nil"))
  else .error (.script (.runtime "table index is NaN"))

def set (w : World) (table : Nat) (key v : HostValue) : Answer Unit :=
  match w.push key with
  | (.error e, w) => (.error e, w)
  | (.ok key, w) =>
    match w.push v with
    | (.error e, w) => (.error e, w)
    | (.ok v, w) =>
      match checkKey key with
      | .error e => (.error e, w)
      | .ok _ => (.ok (), rawStore w table key v)

/-- Removes a key and gives the value it had. -/
def remove (w : World) (table : Nat) (key : HostValue) : Answer HostValue :=
  match w.push key with
  | (.error e, w) => (.error e, w)
  | (.ok key, w) =>
    match checkKey key with
    | .error e => (.error e, w)
    | .ok _ => (.ok (w.pull (w.heap.rawGet table key)), rawStore w table key .nil)

/-- Whether the value under a key is pulled as something other than nil. -/
def contains (w : World) (table : Nat) (key : HostValue) : Answer Bool :=
  match get w table key with
  | (.ok v, w) => (.ok !v.isNil, w)
  | (.error e, w) => (.error e, w)

def pairs (w : World) (table : Nat) : List (HostValue × HostValue) :=
  (w.heap.table table).entries.map fun (k, v) => (w.pull k, w.pull v)

def keys (w : World) (table : Nat) : List HostValue :=
  (pairs w table).map (·.1)

def values (w : World) (table : Nat) : List HostValue :=
  (pairs w table).map (·.2)

def toList (w : World) (table : Nat) : List HostValue :=
  pullAll w.heap (w.heap.sequence table)

def clear (w : World) (table : Nat) : World :=
  { w with heap := w.heap.setTable table { w.heap.table table with entries := [] } }

end ScriptBridge.Session.TableView
