import ScriptBridge.Script.Heap

/-!
# Moving values across the boundary

`pull` reads a script value for the host and never fails; `push` makes a script value of a host
value. Primitives are copied, references are kept, an array becomes a new table, and an object or
type becomes a userdata that pins it.
-/

namespace ScriptBridge.Bridge

open Script

/-- Userdata that stand for no object or type are pulled as nil. -/
def pull (h : Heap) : Value → HostValue
  | .nil => .nil
  | .bool b => .bool b
  | .int i => .int i
  | .float x => .float x
  | .str bytes => .str (Text.decode bytes)
  | .table id => .table id
  | .function r => .function r
  | .thread id => .thread id
  | .userdata id =>
    match h.target? (h.userdatum id) with
    | some (.object o) => .object o
    | some (.type t) => .type t
    | none => .nil

def pullAll (h : Heap) (vs : List Value) : List HostValue :=
  vs.map (pull h)

def pushObject (h : Heap) (o : HostObject) : Value × Heap :=
  let (handle, handles) := h.handles.pin (.object o)
  { h with handles }.newUserdata (.object handle)

def pushType (h : Heap) (t : HostType) : Value × Heap :=
  let (handle, handles) := h.handles.pin (.type t)
  { h with handles }.newUserdata (.type handle)

mutual

/-- What was made before a failure stays in the heap. -/
def push (h : Heap) : HostValue → Except BridgeError Value × Heap
  | .nil => (.ok .nil, h)
  | .bool b => (.ok (.bool b), h)
  | .int i => (.ok (.int i), h)
  | .unsigned u =>
    if u.toNat < Number.twoTo 63 then (.ok (.int (Int64.ofInt u.toNat)), h)
    else (.error (.unsupportedValueKind
      ("unsigned integer " ++ toString u.toNat ++ " exceeds the Lua integer range")), h)
  | .float x => (.ok (.float x), h)
  | .big n =>
    (.error (.unsupportedValueKind ("bigint " ++ toString n ++ " has no Lua representation")), h)
  | .str s => (.ok (.ofString s), h)
  | .array items =>
    match pushAll h items with
    | (.ok vs, h) =>
      let (id, h) := h.newTable (.ofList vs)
      (.ok (.table id), h)
    | (.error e, h) => (.error e, h)
  | .table id => (.ok (.table id), h)
  | .function r => (.ok (.function r), h)
  | .thread id => (.ok (.thread id), h)
  | .object o => let (v, h) := pushObject h o; (.ok v, h)
  | .type t => let (v, h) := pushType h t; (.ok v, h)

/-- Pushes in order and stops at the first failure. -/
def pushAll (h : Heap) : List HostValue → Except BridgeError (List Value) × Heap
  | [] => (.ok [], h)
  | item :: rest =>
    match push h item with
    | (.error e, h) => (.error e, h)
    | (.ok v, h) =>
      match pushAll h rest with
      | (.error e, h) => (.error e, h)
      | (.ok vs, h) => (.ok (v :: vs), h)

end

/-- Whether so many values may be moved at once. -/
def checkTransfer (limit needed : Nat) : Except BridgeError Unit :=
  if limit < needed then .error (.insufficientStackSpace needed limit) else .ok ()

def pushMany (limit : Nat) (h : Heap) (vs : List HostValue) :
    Except BridgeError (List Value) × Heap :=
  match checkTransfer limit vs.length with
  | .error e => (.error e, h)
  | .ok _ => pushAll h vs

def pullMany (limit : Nat) (h : Heap) (vs : List Value) : Except BridgeError (List HostValue) :=
  match checkTransfer limit vs.length with
  | .error e => .error e
  | .ok _ => .ok (pullAll h vs)

end ScriptBridge.Bridge
