import ScriptBridge.Session.Basic

/-!
# Coroutines of the host

The host makes a coroutine from anything that can be called and resumes it with arguments.
-/

namespace ScriptBridge.Session

open Script Bridge Machine

/-- A function that calls a value with its own arguments. -/
def wrapCallable (w : World) (f : Value) : Routine × World :=
  let (cell, heap) := w.heap.newCell f
  let (id, heap) := heap.newClosure
    { params := []
      isVariadic := true
      body := [.ret [.call (.name "f") [.varargs]]]
      captured := [("f", cell)] }
  (.closure id, { w with heap })

/-- A coroutine over a function, or over a table or type that can be called. -/
def createCoroutine (w : World) (callable : HostValue) : Answer Nat :=
  let create (f : Routine) (w : World) : Answer Nat :=
    let (id, w) := w.newThread (.function f)
    (.ok id, w)
  match callable with
  | .function r => create r w
  | .table id =>
    let (f, w) := wrapCallable w (.table id)
    create f w
  | .type t =>
    let (v, heap) := pushType w.heap t
    let (f, w) := wrapCallable { w with heap } v
    create f w
  | other => (.error (.typeMismatch "function" other.describe), w)

/-- Makes a coroutine known to bodies by name. -/
def nameCoroutine (w : World) (name : String) (thread : Nat) : World :=
  { w with coroutines := Record.setNamed w.coroutines name thread }

def forgetCoroutine (w : World) (name : String) : World :=
  { w with coroutines := w.coroutines.filter (·.1 != name) }

/-- Has the engine resume a coroutine. It takes no more arguments than fit on the stack of one. -/
def resumeThread (w : World) (thread : Nat) (args : List Value) :
    Except ScriptError (List Value) × World :=
  if w.engine.values < args.length then (.error .stackExhausted, w)
  else
    match start { w with active := thread :: w.active } (.resume thread args .session) with
    | (.resumed _ handed, w) => (w.receive handed, w)
    | (.raised v, w) => (.error (w.scriptError v), leave w thread)
    | (_, w) => (.error (.runtime "interrupted"), leave w thread)

def resume (w : World) (thread : Nat) (args : List HostValue) : Answer ResumeOutcome :=
  match w.checkResumable thread with
  | .error e => (.error e, w)
  | .ok _ =>
    match w.pushMany args with
    | (.error e, w) => (.error e, w)
    | (.ok args, w) =>
      match resumeThread w thread args with
      | (received, w) => (outcomeOf w thread received, w)

end ScriptBridge.Session
