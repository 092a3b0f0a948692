import ScriptBridge.Machine.Expression

/-!
# Member access

Reading and assigning members of tables, strings and userdata. Objects and types are reached
through dispatch; member names are strings, or numbers in their text form.
-/

namespace ScriptBridge.Machine

open Script Bridge

/-- The member name that a key stands for: strings have to be valid text. -/
def memberName? : Value → Option String
  | .str bytes => String.fromUTF8? bytes
  | .int i => some (toString i.toInt)
  | .float x => some (Number.scriptText x)
  | _ => none

/-- Makes a userdata for something bound to a target. -/
def giveUserdata (m : Machine) (u : Userdata) : Machine :=
  let (v, heap) := m.heap.newUserdata u
  (m.withHeap heap).give v

def read (m : Machine) : Except BridgeError ReadPlan → Machine
  | .error e => m.raiseBridge e
  | .ok (.bound u) => giveUserdata m u
  | .ok (.type t) => deliver m (.type t)
  | .ok (.run code) => m.go (.host code .value)

def readMember (m : Machine) (target : Target) (key : Value) : Machine :=
  match memberName? key with
  | none => m.raiseConversion
  | some name =>
    let m := m.remember target.cls
    read m (planRead m.world.registry target name)

def writeMember (m : Machine) (target : Target) (key v : Value) : Machine :=
  match memberName? key with
  | none => m.raiseConversion
  | some name =>
    let m := m.remember target.cls
    runPlanned m .nothing
      (planWrite m.world.coercer m.world.registry target name (m.world.pull v))

/-- The methods that event and indexer proxies have. -/
def proxyMethod? : Userdata → Value → Option Builtin
  | .event .., key =>
    if key == .ofString "add" then some .subscribe
    else if key == .ofString "remove" then some .unsubscribe
    else none
  | .indexer .., key =>
    if key == .ofString "get" then some .indexerGet
    else if key == .ofString "set" then some .indexerSet
    else none
  | _, _ => none

/-- Reads a member of a userdata: its own methods come first, and an event has nothing else. -/
def indexUserdata (m : Machine) (id : Nat) (key : Value) : Machine :=
  let u := m.heap.userdatum id
  match proxyMethod? u key with
  | some b => m.give (.function (.builtin b))
  | none =>
    match u with
    | .object _ | .type _ =>
      match m.heap.target? u with
      | some target => readMember m target key
      | none => m.raiseError (.callback .foreignReceiver)
    | .indexer target p =>
      runPlanned m .value (planIndexGet m.world.coercer target p [m.world.pull key])
    | .event .. => m.give .nil
    | _ => m.raiseText "attempt to index a userdata value"

def index (m : Machine) (object key : Value) (budget : Nat) : Machine :=
  match budget with
  | 0 => m.raiseText "'__index' chain too long; possibly a loop"
  | budget + 1 =>
    match object with
    | .table id =>
      match m.heap.rawGet id key with
      | .nil =>
        match m.heap.metamethod id "__index" with
        | .nil => m.give .nil
        | .function r => m.push .single (.call (.function r) [object, key])
        | other => m.go (.index other key budget)
      | v => m.give v
    | .str _ =>
      match m.world.strings with
      | some id => m.go (.index (.table id) key budget)
      | none => m.raiseText "attempt to index a string value"
    | .userdata id => indexUserdata m id key
    | v => m.raiseText ("attempt to index a " ++ v.typeName ++ " value")

/-- Stores into a table without metamethods. -/
def storeRaw (m : Machine) (id : Nat) (key v : Value) : Machine :=
  if key.isKey then (m.withHeap (m.heap.rawSet id key v)).go (.values [])
  else m.raiseText "index is nil or NaN"

def storeUserdata (m : Machine) (id : Nat) (key v : Value) : Machine :=
  let u := m.heap.userdatum id
  match u with
  | .object _ | .type _ =>
    match m.heap.target? u with
    | some target => writeMember m target key v
    | none => m.raiseError (.callback .foreignReceiver)
  | .indexer target p =>
    runPlanned m .nothing
      (planIndexSet m.world.coercer target p [m.world.pull key] (m.world.pull v))
  | _ => m.raiseText "attempt to index a userdata value"

def store (m : Machine) (object key v : Value) (budget : Nat) : Machine :=
  match budget with
  | 0 => m.raiseText "'__newindex' chain too long; possibly a loop"
  | budget + 1 =>
    match object with
    | .table id =>
      if !(m.heap.rawGet id key).isNil then storeRaw m id key v
      else match m.heap.metamethod id "__newindex" with
        | .nil => storeRaw m id key v
        | .function r => m.go (.call (.function r) [object, key, v])
        | other => m.go (.store other key v budget)
    | .userdata id => storeUserdata m id key v
    | v => m.raiseText ("attempt to index a " ++ v.typeName ++ " value")

end ScriptBridge.Machine
