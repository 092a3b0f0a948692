import ScriptBridge.Session.Basic

/-!
# Global variables by path

A dotted path leads from the global variables through tables, objects and types. Reading goes on
to nil where there is nothing; assigning makes the tables that are missing on the way.
-/

namespace ScriptBridge.Session

open Script Bridge Machine

/-- The segments of a dotted path; there is always one. -/
def splitPath : List Char → List (List Char)
  | [] => [[]]
  | '.' :: rest => [] :: splitPath rest
  | c :: rest =>
    match splitPath rest with
    | segment :: segments => (c :: segment) :: segments
    | [] => [[c]]

def segments (path : String) : List String :=
  (splitPath path.toList).map String.ofList

/-- Cuts a path at its last dot: what comes before it, where there is one, and what comes after. -/
def cutPath : List Char → Option (List Char) × List Char
  | [] => (none, [])
  | c :: rest =>
    match cutPath rest with
    | (some front, name) => (some (c :: front), name)
    | (none, name) => if c = '.' then (some [], name) else (none, c :: name)

/-- The path before the last dot, if there is a dot. -/
def parentPath? (path : String) : Option String :=
  (cutPath path.toList).1.map String.ofList

/-- The segments of what comes before the last dot. -/
def parents (path : String) : List String :=
  match parentPath? path with
  | some front => segments front
  | none => []

/-- What comes after the last dot. -/
def lastSegment (path : String) : String :=
  String.ofList (cutPath path.toList).2

def notATable (path segment : String) : BridgeError :=
  .typeMismatch "table" ("non-table at '" ++ segment ++ "' in '" ++ path ++ "'")

/-- Whether a userdata stands for an object or a type. -/
def isTarget (w : World) (id : Nat) : Bool :=
  (w.heap.target? (w.heap.userdatum id)).isSome

def readSegment (w : World) (current : Value) (segment : String) : Answer Value :=
  runValue (start w (.index current (.ofString segment) metatableBudget))

/-- Whether a path can go on from a value. -/
def leadsOn (w : World) : Value → Bool
  | .table _ => true
  | .userdata id => isTarget w id
  | _ => false

/-- Follows a path; it ends in nil where it cannot go on. -/
def walk (w : World) (current : Value) : List String → Answer Value
  | [] => (.ok current, w)
  | segment :: rest =>
    if leadsOn w current then
      match readSegment w current segment with
      | (.ok next, w) => walk w next rest
      | (.error e, w) => (.error e, w)
    else (.ok .nil, w)

def getGlobal (w : World) (path : String) : Answer HostValue :=
  match walk w (.table w.globals) (segments path) with
  | (.ok v, w) => (.ok (w.pull v), w)
  | (.error e, w) => (.error e, w)

/-- Stores into a table as a script does. -/
def storeSegment (w : World) (table : Nat) (segment : String) (v : Value) : Answer Unit :=
  match runValues (start w (.store (.table table) (.ofString segment) v metatableBudget)) with
  | (.ok _, w) => (.ok (), w)
  | (.error e, w) => (.error e, w)

/-- The value under a segment, or a new table where there is none. -/
def openSegment (w : World) (path : String) (current : Value) (segment : String) : Answer Value :=
  match current with
  | .table id =>
    match readSegment w current segment with
    | (.ok .nil, w) =>
      let (created, heap) := w.heap.newTable {}
      match storeSegment { w with heap } id segment (.table created) with
      | (.ok _, w) => (.ok (.table created), w)
      | (.error e, w) => (.error e, w)
    | answer => answer
  | .userdata id =>
    if isTarget w id then readSegment w current segment
    else (.error (notATable path segment), w)
  | _ => (.error (notATable path segment), w)

def openSegments (w : World) (path : String) (current : Value) : List String → Answer Value
  | [] => (.ok current, w)
  | segment :: rest =>
    match openSegment w path current segment with
    | (.ok next, w) => openSegments w path next rest
    | (.error e, w) => (.error e, w)

/-- Assigns a member of an object or type by the host. -/
def assignMember (w : World) (target : Target) (name : String) (v : HostValue) : Answer Unit :=
  let w := w.remember target.cls
  match planWrite w.coercer w.registry target name v with
  | .error e => (.error e, w)
  | .ok code =>
    match runValues (start w (.host code .nothing)) with
    | (.ok _, w) => (.ok (), w)
    | (.error e, w) => (.error e, w)

/-- Assigns the last segment of a path. -/
def assignLast (w : World) (path : String) (current : Value) (name : String) (v : HostValue) :
    Answer Unit :=
  match current with
  | .table id =>
    match w.push v with
    | (.ok v, w) => storeSegment w id name v
    | (.error e, w) => (.error e, w)
  | .userdata id =>
    match w.heap.target? (w.heap.userdatum id) with
    | some target => assignMember w target name v
    | none => (.error (notATable path name), w)
  | _ => (.error (notATable path name), w)

def setGlobal (w : World) (path : String) (v : HostValue) : Answer Unit :=
  match openSegments w path (.table w.globals) (parents path) with
  | (.error e, w) => (.error e, w)
  | (.ok current, w) => assignLast w path current (lastSegment path) v

def registered (w : World) (fullName : String) : Except BridgeError HostType :=
  match w.registry.descriptor? fullName with
  | some t => .ok t
  | none => .error (.unknownMember "type registry" fullName)

/-- Makes a type a global variable under its short name. -/
def installType (w : World) (t : HostType) : World :=
  let (v, heap) := pushType w.heap t
  { w with heap := heap.rawSet w.globals (.ofString t.name) v }

def importType (w : World) (fullName : String) : Answer HostType :=
  match registered w fullName with
  | .ok t => (.ok t, installType w t)
  | .error e => (.error e, w)

/-- Imports all types of a namespace and tells how many there are. -/
def importNamespace (w : World) (ns : String) : Nat × World :=
  let types := w.registry.inNamespace ns
  (types.length, types.foldl installType w)

/-- The table at the end of a path, made where it is missing; it may lead through tables only. -/
def ensureTable (w : World) (path : String) (table : Nat) : List String → Answer Nat
  | [] => (.ok table, w)
  | segment :: rest =>
    match openSegment w path (.table table) segment with
    | (.ok (.table next), w) => ensureTable w path next rest
    | (.ok _, w) => (.error (notATable path segment), w)
    | (.error e, w) => (.error e, w)

/-- Makes a static method group of a type a global function. -/
def registerFunction (w : World) (path typeName method : String) : Answer Unit :=
  match registered w typeName with
  | .error e => (.error e, w)
  | .ok t =>
    let w := w.remember t
    match (w.registry.metadata t).statics.methodGroup? method with
    | none => (.error (.unknownMember t.fullName method), w)
    | some overloads =>
      let (f, heap) := w.heap.newUserdata (.methods (.type t) method overloads)
      let w := { w with heap }
      match ensureTable w ((parentPath? path).getD "") w.globals (parents path) with
      | (.error e, w) => (.error e, w)
      | (.ok table, w) => storeSegment w table (lastSegment path) f

end ScriptBridge.Session
