import ScriptBridge.Machine.Step
import ScriptBridge.Machine.Collector
import ScriptBridge.Script.Source

/-!
# Sessions

A session is a world that scripts run in: made with options and a registry of host types, given
scripts to run and functions to call. Every operation hands back an answer and the world after it.
-/

namespace ScriptBridge.Session

open Script Bridge Machine

/-- What an operation gives, and the world after it. -/
abbrev Answer (α : Type) := Except BridgeError α × World

/-- Functions that every session has. -/
def baseFunctions : List (String × Builtin) :=
  [("pcall", .pcall), ("error", .error), ("tostring", .tostring), ("type", .type),
    ("rawequal", .rawequal), ("setmetatable", .setmetatable), ("print", .print)]

def libraries : List (String × List (String × Builtin)) :=
  let others (names : List String) := names.map fun name => (name, Builtin.other name)
  [("string", others ["byte", "char", "find", "format", "gmatch", "gsub", "len", "lower", "match",
      "rep", "reverse", "sub", "upper"]),
    ("math", ("type", .mathType) :: others ["abs", "ceil", "floor", "max", "min"]),
    ("coroutine", [("create", .coroutineCreate), ("wrap", .coroutineWrap),
      ("yield", .coroutineYield)]),
    ("table", others ["concat", "insert", "remove", "sort", "unpack"]),
    ("os", others ["clock", "time"]),
    ("io", others ["write"]),
    ("utf8", others ["char", "len"]),
    ("package", [])]

def functionTable (functions : List (String × Builtin)) : Table where
  entries := functions.map fun (name, b) => (.ofString name, .function (.builtin b))

def openLibrary (w : World) (library : String × List (String × Builtin)) : World :=
  let (id, heap) := w.heap.newTable (functionTable library.2)
  let heap := heap.rawSet w.globals (.ofString library.1) (.table id)
  { w with heap, strings := if library.1 == "string" then some id else w.strings }

/-- A new session. The types give the static data that there is from the start. -/
def create (options : Options) (registry : Registry) (types : List HostType)
    (engine : Engine := .standard) : World :=
  let (globals, heap) := Heap.newTable { border := engine.border } (functionTable baseFunctions)
  let w : World := { options, engine, registry, heap, store := .ofTypes types, globals }
  if options.openStdLibs then libraries.foldl openLibrary w else w

def runValues (run : Machine.Outcome × World) : Answer (List Value) :=
  match run with
  | (.returned vs, w) => (.ok vs, w)
  | (.raised v, w) => (.error (.script (w.scriptError v)), w)
  | (.resumed .., w) | (.exhausted, w) => (.error (.script (.runtime "interrupted")), w)

def runValue (run : Machine.Outcome × World) : Answer Value :=
  match runValues run with
  | (.ok vs, w) => (.ok (vs.headD .nil), w)
  | (.error e, w) => (.error e, w)

/-- Pulls the values that a run returned. -/
def pullRun (run : Machine.Outcome × World) : Answer (List HostValue) :=
  match runValues run with
  | (.ok vs, w) => (w.pullMany vs, w)
  | (.error e, w) => (.error e, w)

/-- A chunk as a function. -/
def compile (w : World) : Chunk → Answer Routine
  | .malformed => (.error (.script .malformedChunk), w)
  | .block body =>
    let (id, heap) :=
      w.heap.newClosure { params := [], isVariadic := true, body, captured := [] }
    (.ok (.closure id), { w with heap })

def callPlain (w : World) (f : Routine) : Answer (List HostValue) :=
  pullRun (start w (.call (.function f) []))

/-- Runs a chunk; one that is a single call gives the results of the call. -/
def runChunk (w : World) (chunk : Chunk) : Answer (List HostValue) :=
  let chunk := match chunk with
    | .block stmts => .block (asExpression stmts)
    | .malformed => .malformed
  match compile w chunk with
  | (.ok f, w) => callPlain w f
  | (.error e, w) => (.error e, w)

/-- Makes a built-in function a global variable. -/
def defineFunction (w : World) (name : String) (b : Builtin) : World :=
  { w with heap := w.heap.rawSet w.globals (.ofString name) (.function (.builtin b)) }

/-- Makes something that the bridge knows nothing of a global variable. -/
def defineForeign (w : World) (name : String) : World :=
  let (v, heap) := w.heap.newUserdata .foreign
  { w with heap := heap.rawSet w.globals (.ofString name) v }

/-- Runs a script file; there is none when its chunk is missing. -/
def runFile (w : World) : Option Chunk → Answer (List HostValue)
  | some chunk => runChunk w chunk
  | none => (.error (.io "no such file"), w)

def callFunction (w : World) (f : Routine) (args : List HostValue) : Answer (List HostValue) :=
  match w.pushMany args with
  | (.error e, w) => (.error e, w)
  | (.ok args, w) => pullRun (start w (.call (.function f) args))

def setHook (w : World) (hook : Hook) : World :=
  { w with hook := some hook }

def removeHook (w : World) : World :=
  { w with hook := none }

/-- The number of objects and types that scripts keep pinned. -/
def pinnedHandles (w : World) : Nat :=
  w.heap.handles.size

/-- A script function over no variables. -/
def makeFunction (w : World) (params : List String) (isVariadic : Bool) (body : List Stmt) :
    Routine × World :=
  let (id, heap) := w.heap.newClosure { params, isVariadic, body, captured := [] }
  (.closure id, { w with heap })

end ScriptBridge.Session
