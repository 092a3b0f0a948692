import ScriptBridge.Machine.Access
import ScriptBridge.Machine.Coroutine

/-!
# Calls

Calling closures, built-in functions, tables and the userdata that can be called; carrying out
host code; and what becomes of raised values.
-/

namespace ScriptBridge.Machine

open Script Bridge

/-- The arguments of a closure as variables, and its surplus arguments. -/
def bindArguments (heap : Heap) (c : Closure) (args : List Value) : Scope × Heap :=
  let (bindings, heap) :=
    heap.declare c.captured (c.params.zip (adjust c.params.length args))
  (⟨bindings, if c.isVariadic then args.drop c.params.length else []⟩, heap)

/-- The stack without what is left of a function that only waits to return. -/
def dropReturning : List Frame → Option (List Frame)
  | .ret :: rest => some (rest.dropWhile fun
    | .function _ => false
    | _ => true)
  | _ => none

/-- Runs a closure. A call whose values are returned takes the place of the caller. -/
def callClosure (m : Machine) (id : Nat) (args : List Value) : Machine :=
  let c := m.heap.closure id
  let (scope, heap) := bindArguments m.heap c args
  let m := m.withHeap heap
  match dropReturning m.stack with
  | some stack => { m with stack, control := .exec ⟨c.body, scope, 1⟩ }
  | none =>
    if m.world.engine.calls ≤ m.depth then m.raiseText "stack overflow"
    else
      { m with
        stack := .function m.depth :: m.stack
        depth := m.depth + 1
        control := .exec ⟨c.body, scope, 1⟩ }

def userdataText (w : World) (u : Userdata) : String :=
  match u, w.heap.target? u with
  | .object handle, some (.object o) =>
    match o.cls.members.display with
    | some _ => w.store.display o
    | none => o.cls.name ++ ": " ++ handle.text
  | .type _, some (.type t) => "class: " ++ t.fullName
  | .object handle, _ => "released: " ++ handle.text
  | .type handle, _ => "released: " ++ handle.text
  | .methods target name _, _ => "method: " ++ target.memberContext name
  | .event target e, _ => "event: " ++ target.memberContext e.item.name
  | .indexer target p, _ => "indexer: " ++ target.memberContext p.item.name
  | .failure e, _ => e.text
  | _, _ => "userdata"

/-- How a value prints when no metamethod says so. -/
def plainText (w : World) : Value → ByteArray
  | .nil => "nil".toUTF8
  | .bool b => (if b then "true" else "false").toUTF8
  | .userdata id => (userdataText w (w.heap.userdatum id)).toUTF8
  | v => match v.text? with
    | some bytes => bytes
    | none => v.typeName.toUTF8

/-- The message that a script is shown of a caught error. -/
def errorMessage (w : World) : Value → String
  | .userdata id =>
    match w.heap.userdatum id with
    | .failure e => Report.message (.script e)
    | _ => String.ofList Report.engineText
  | .str bytes => Report.clean (Text.decode bytes)
  | _ => String.ofList Report.engineText

/-- Raises an error for a method of a proxy that was called on something else. -/
def raiseForeign (m : Machine) : Machine :=
  m.raiseError (.callback (.badArgument .foreignReceiver))

/-- Subscribes or unsubscribes a handler through an event proxy. -/
def callEvent (m : Machine) (finish : Finish) (accessor : Declared Event → Routine → Accessor)
    (self : Value) (handler : Value) : Machine :=
  match self with
  | .userdata id =>
    match m.heap.userdatum id, handler with
    | .event target e, .function r =>
      m.go (.host (.access target e.item.name (accessor e r)) finish)
    | .event .., _ => m.raiseConversion
    | _, _ => raiseForeign m
  | _ => m.raiseConversion

/-- Reads or assigns through an indexer proxy. -/
def callIndexer (m : Machine) (finish : Finish)
    (plan : Target → Declared Property → List HostValue → Except BridgeError HostCode)
    (self : Value) (args : List Value) : Machine :=
  match self with
  | .userdata id =>
    match m.heap.userdatum id with
    | .indexer target p => runPlanned m finish do plan target p (← m.world.pullMany args)
    | _ => raiseForeign m
  | _ => m.raiseConversion

def setMetatable (m : Machine) : List Value → Machine
  | .table id :: .table metatable :: _ =>
    (m.withHeap (m.heap.setTable id { m.heap.table id with metatable := some metatable })).give
      (.table id)
  | .table id :: .nil :: _ =>
    (m.withHeap (m.heap.setTable id { m.heap.table id with metatable := none })).give (.table id)
  | _ => raisePlaced m (.ofString "bad argument to 'setmetatable'")

/-- Makes a text of a value, by its metamethod if it is a table that has one. -/
def toText (m : Machine) (v : Value) : Machine :=
  match v with
  | .table id =>
    match m.heap.metamethod id "__tostring" with
    | .nil => m.give (.str (plainText m.world v))
    | f => m.push .text (.call f [v])
  | v => m.give (.str (plainText m.world v))

/-- Raises a value; a text raised at a level above zero gets the caller's place. -/
def raiseLevel (m : Machine) (v level : Value) : Machine :=
  match level with
  | .int 0 => m.go (.raising v)
  | _ => raisePlaced m v

def badArgument (m : Machine) (name : String) : Machine :=
  raisePlaced m (.ofString ("bad argument #1 to '" ++ name ++ "'"))

def callBuiltin (m : Machine) (b : Builtin) (args : List Value) : Machine.Progress :=
  let arg (i : Nat) := args[i]?.getD .nil
  match b with
  | .coroutineYield => yield m args
  | .pcall => .running <|
    match args with
    | [] => badArgument m "pcall"
    | f :: args => m.push .protect (.call f args)
  | .error => .running (raiseLevel m (arg 0) (args[1]?.getD (.int 1)))
  | .tostring => .running <|
    match args with
    | [] => badArgument m "tostring"
    | v :: _ => toText m v
  | .type => .running <|
    match args with
    | [] => badArgument m "type"
    | v :: _ => m.give (.ofString v.typeName)
  | .rawequal => .running <|
    match args with
    | a :: b :: _ => m.give (.bool (a.rawEqual b))
    | _ => badArgument m "rawequal"
  | .setmetatable => .running (setMetatable m args)
  | .print => .running (m.go (.values []))
  | .coroutineCreate => .running <|
    match arg 0 with
    | .function r =>
      let (id, w) := m.world.newThread (.function r)
      (m.withWorld w).give (.thread id)
    | _ => badArgument m "create"
  | .coroutineWrap => .running <|
    match arg 0 with
    | .function r =>
      let (id, w) := m.world.newThread (.function r)
      (m.withWorld w).give (.function (.builtin (.wrapped id)))
    | _ => badArgument m "wrap"
  | .wrapped thread => .running (m.go (.resume thread args .wrapper))
  | .mathType => .running <|
    match args with
    | [] => badArgument m "type"
    | .int _ :: _ => m.give (.ofString "integer")
    | .float _ :: _ => m.give (.ofString "float")
    | _ => m.give .nil
  | .errorMessage => .running (m.give (.ofString (errorMessage m.world (arg 0))))
  | .subscribe => .running <|
    match args with
    | [] => m.raiseConversion
    | self :: _ => callEvent m .nothing .subscribe self (arg 1)
  | .unsubscribe => .running <|
    match args with
    | [] => m.raiseConversion
    | self :: _ => callEvent m .value .unsubscribe self (arg 1)
  | .indexerGet => .running <|
    match args with
    | [] => m.raiseConversion
    | self :: rest => callIndexer m .value (planIndexGet m.world.coercer) self rest
  | .indexerSet => .running <|
    match args with
    | [] => m.raiseConversion
    | self :: rest =>
      callIndexer m .nothing (fun target p args =>
        planIndexSet m.world.coercer target p args.dropLast (args.getLastD .nil)) self rest
  | .other name => .running (m.raiseText (name ++ " is not available"))

def closeType (m : Machine) (t : HostType) (args : List HostValue) : Machine :=
  match typeArguments t args with
  | .error e => m.raiseBridge e
  | .ok types =>
    match m.world.registry.close t types with
    | .error e => m.raiseBridge e
    | .ok (closed, registry) =>
      deliverAll (m.withWorld { m.world with registry }) [.type closed]

/-- Calls a class, which constructs an instance or closes a generic type, or a bound method. -/
def callUserdata (m : Machine) (id : Nat) (args : List Value) : Machine :=
  let u := m.heap.userdatum id
  match u with
  | .type _ =>
    match m.heap.target? u with
    | some (.type t) =>
      match m.world.pullMany args with
      | .error e => m.raiseBridge e
      | .ok args =>
        if t.isOpen then closeType m t args
        else
          let m := m.remember t
          runPlanned m (.results true) <|
            (planConstruct m.world.coercer m.world.registry t args).map .method
    | _ => m.raiseError (.callback .foreignReceiver)
  | .methods target name overloads =>
    match m.world.pullMany args with
    | .error e => m.raiseBridge e
    | .ok args =>
      match planCall m.world.options.stripSelfArgument m.world.coercer target name overloads
          args with
      | .error e => m.raiseBridge e
      | .ok inv => m.go (.host (.method inv) (.results inv.member.item.returns.isSome))
  | _ => m.raiseText "attempt to call a userdata value"

def call (m : Machine) (f : Value) (args : List Value) : Machine.Progress :=
  match f with
  | .function (.closure id) => .running (callClosure m id args)
  | .function (.builtin b) => callBuiltin m b args
  | .userdata id => .running (callUserdata m id args)
  | .table id =>
    match m.heap.metamethod id "__call" with
    | .nil => .running (m.raiseText "attempt to call a table value")
    | handler =>
      if 200 < args.length && handler == f then .running (m.raiseText "stack overflow")
      else .running (m.go (.call handler (f :: args)))
  | v => .running (m.raiseText ("attempt to call a " ++ v.typeName ++ " value"))

/-- Hands a host value on as the caller of the host code wants it. -/
def deliverAs (m : Machine) (finish : Finish) (v : HostValue) : Machine :=
  match finish with
  | .value => deliver m v
  | .nothing => m.go (.values [])
  | .results _ => deliverAll m [v]

/-- Hands on what a method body gave. -/
def deliverResults (m : Machine) (finish : Finish) (v : HostValue) (inv : Invocation) : Machine :=
  match finish with
  | .results withValue => deliverAll m (inv.results withValue v)
  | finish => deliverAs m finish v

/-- Raises the failure of host code under the name of the member. -/
def raiseFailure (m : Machine) (context : String) (failure : HostFailure) : Machine :=
  m.raiseBridge (.ofHost context failure (m.world.engine.trace failure))

/-- Runs host code; calls are logged and accessors run to their end. -/
def runHost (m : Machine) (code : HostCode) (finish : Finish) : Machine :=
  match code with
  | .method inv =>
    let store := m.world.store
    let m := m.withStore (store.addLog (inv.logEntry m.heap store))
    m.push (.guard inv.context finish) (.body inv.member.item.body inv)
  | .access target _ accessor =>
    match runAccessor m.heap m.world.store target.object? accessor with
    | (.ok v, store) => deliverAs (m.withStore store) finish v
    | (.error failure, store) => raiseFailure (m.withStore store) code.context failure

/-- The script value that a body hands to a handler; values that need more than copying are nil. -/
def handlerArgument : HostValue → Value
  | .bool b => .bool b
  | .int i => .int i
  | .float x => .float x
  | .str s => .ofString s
  | .table id => .table id
  | .function r => .function r
  | _ => .nil

/-- Calls a function from a body that waits in a frame. -/
def callFromBody (m : Machine) (frame : Frame) (f : Routine) (args : List Value) : Machine :=
  m.push frame (.call (.function f) args)

/-- Calls the next handler of an event, or ends with the number of handlers subscribed now. -/
def emitNext (m : Machine) (inv : Invocation) (holder : Holder) (event : String) (arg : Value) :
    List Routine → Machine
  | [] =>
    let count := ((m.world.store.record holder).source event).size
    m.go (.finished (.int (Int64.ofNat count)) inv)
  | f :: rest => callFromBody m (.emitting inv holder event rest arg) f [arg]

def resumeFromBody (m : Machine) (inv : Invocation) (name : String) : Machine :=
  match m.world.coroutines.find? name with
  | none => m.go (.failed (.failed "no coroutine"))
  | some thread =>
    match m.world.checkResumable thread with
    | .error e => m.go (.finished (.str e.text) inv)
    | .ok _ =>
      (m.withWorld { m.world with active := thread :: m.world.active }).go
        (.resume thread [] (.body inv))

def runBody (m : Machine) (b : Body) (inv : Invocation) : Machine :=
  let (step, store) := startBody m.world.store inv b
  let m := m.withStore store
  match step with
  | .finished v inv => m.go (.finished v inv)
  | .failed failure => m.go (.failed failure)
  | .emit holder event arg =>
    emitNext m inv holder event (handlerArgument arg) ((store.record holder).source event).snapshot
  | .callBack f args => callFromBody m (.callingBack inv) f (args.map handlerArgument)
  | .hold o mode body => m.push (.holding o mode) (.body body inv)
  | .sequence bodies => m.push (.steps bodies) (.finished .nil inv)
  | .coroutineStatus name =>
    let text := match m.world.coroutines.find? name with
      | some thread => (m.world.status thread).text
      | none => "missing"
    m.go (.finished (.str text) inv)
  | .resume name => resumeFromBody m inv name
  | .environment name =>
    let v := match m.world.environment.lookup name with
      | some text => HostValue.str text
      | none => .nil
    m.go (.finished v inv)

/-- Whether a frame takes care of raised values. -/
def Frame.catches : Frame → Bool
  | .protect | .resumed .. | .emitting .. | .callingBack _ => true
  | _ => false

/-- The depth of calls below some frames. -/
def depthBelow (depth : Nat) (frames : List Frame) : Nat :=
  frames.foldl (fun depth f => match f with
    | .function outer => outer
    | _ => depth) depth

/-- A value raised: the nearest frame that takes care of it gets it. -/
def raised (m : Machine) (v : Value) : Machine.Progress :=
  let (dropped, below) := m.stack.span (!·.catches)
  let m := { m with depth := depthBelow m.depth dropped }
  match below with
  | [] => .halted (.raised v) m.world
  | .resumed thread by_ outer around :: rest =>
    fail { m with stack := rest } thread by_ outer around dropped v
  | .protect :: rest => .running { m with stack := rest, control := .values [.bool false, v] }
  | _ :: rest =>
    .running { m with
      stack := rest, control := .failed (.failed (m.world.scriptError v).text) }

end ScriptBridge.Machine
