import ScriptBridge.Bridge.Body
import ScriptBridge.Options

/-!
# States of the script machine

A machine runs scripts and the host code they call. Its control says what happens next and its
stack of frames what happens after that; a coroutine that waits is the part of the stack above the
point where it was resumed. Host code that calls scripts keeps its place in frames too, so one
machine runs both.
-/

namespace ScriptBridge.Machine

open Script Bridge

/-- The variables in scope and the surplus arguments of the function. -/
structure Scope where
  bindings : Variables := []
  varargs : List Value := []
deriving Inhabited

/-- Statements still to run, and the line of the first one. -/
structure Rest where
  stmts : List Stmt
  scope : Scope
  line : Nat
deriving Inhabited

/-- What the caller of host code is handed. -/
inductive Finish
  | value
  | nothing
  /-- The value, if it is wanted, and the parameters handed back. -/
  | results (withValue : Bool)
deriving DecidableEq, Repr

/-- Who waits for a coroutine to yield or end. -/
inductive Resumer
  | wrapper
  | body (inv : Invocation)
  | session

/-- What the engine hands whoever resumed a coroutine: the values it yielded or returned, or the
value it raised. -/
abbrev Handed :=
  Except Value (List Value)

/-- What is done with the values that arrive. -/
inductive Frame
  /-- Takes one value and evaluates the other expressions. -/
  | collect (done : List Value) (rest : List Expr) (scope : Scope)
  /-- Puts all values behind those already there, the last of them first in the list. -/
  | lastOf (done : List Value)
  | single
  | callee (args : List Expr) (scope : Scope)
  | apply (f : Value)
  | receiver (method : String) (args : List Expr) (scope : Scope)
  | method (object : Value) (args : List Expr) (scope : Scope)
  | applyTo (f object : Value)
  | indexKey (key : Expr) (scope : Scope)
  | indexWith (object : Value)
  | right (op : BinaryOp) (b : Expr) (scope : Scope)
  | operate (op : BinaryOp) (a : Value)
  | junction (op : Junction) (b : Expr) (scope : Scope)
  | unary (op : UnaryOp)
  | entryKey (table : Nat) (value : Expr) (rest : List (Expr × Expr)) (scope : Scope)
  | entryValue (table : Nat) (key : Value) (rest : List (Expr × Expr)) (scope : Scope)
  | sequence
  /-- Turns a value into a boolean. -/
  | truth (negated : Bool)
  | bind (names : List String) (rest : Rest)
  | assign (name : String) (rest : Rest)
  | storeKey (key value : Expr) (rest : Rest)
  | storeValue (object : Value) (value : Expr) (rest : Rest)
  | storeTo (object key : Value) (rest : Rest)
  /-- Drops the values and goes on. -/
  | discard (rest : Rest)
  | ret
  | branch (yes no : List Stmt) (rest : Rest)
  | forFirst (name : String) (last : Expr) (body : List Stmt) (rest : Rest)
  | forLast (name : String) (first : Value) (body : List Stmt) (rest : Rest)
  /-- The loop variable's next value, while rounds are left. -/
  | counting (name : String) (next : Int64) (rounds : Nat) (body : List Stmt) (rest : Rest)
  | stepping (name : String) (next last : Float) (body : List Stmt) (rest : Rest)
  | whileTest (condition : Expr) (body : List Stmt) (rest : Rest)
  | whileBody (condition : Expr) (body : List Stmt) (rest : Rest)
  | next (rest : Rest)
  /-- A function running; the depth of calls around it. -/
  | function (outer : Nat)
  | protect
  /-- The text of a value, made by a script. -/
  | text
  /-- A coroutine running, and the depth of calls and the coroutine around it. -/
  | resumed (thread : Nat) (by_ : Resumer) (outer : Nat) (around : Option Nat)
  /-- A method body running: how its failures are named and what its caller is handed. -/
  | guard (context : String) (finish : Finish)
  | steps (rest : List Body)
  | holding (object : HostObject) (mode : BorrowMode)
  | emitting (inv : Invocation) (holder : Holder) (event : String) (rest : List Routine)
      (arg : Value)
  | callingBack (inv : Invocation)

/-- What happens next. -/
inductive Control
  | exec (rest : Rest)
  | evaluate (e : Expr) (scope : Scope)
  /-- Evaluates expressions; the values so far, the last of them first. -/
  | evaluateAll (done : List Value) (es : List Expr) (scope : Scope)
  | values (vs : List Value)
  | completed
  | returning (vs : List Value)
  | raising (v : Value)
  | call (f : Value) (args : List Value)
  | index (object key : Value) (budget : Nat)
  | store (object key v : Value) (budget : Nat)
  | host (code : HostCode) (finish : Finish)
  | body (b : Body) (inv : Invocation)
  | finished (v : HostValue) (inv : Invocation)
  | failed (failure : HostFailure)
  | resume (thread : Nat) (args : List Value) (by_ : Resumer)

inductive Thread
  /-- Not started yet. -/
  | fresh (f : Value)
  /-- Waiting inside a yield, with the depth of its calls. -/
  | suspended (stack : List Frame) (depth : Nat)
  | active
  | finished
  /-- Ended by an error; what is left of its stack. -/
  | failed (stack : List Frame)

instance : Inhabited Thread := ⟨.finished⟩

/-- What the engine tells of a coroutine. -/
inductive ThreadStatus
  | resumable | running | finished | error
deriving DecidableEq, Repr

/-- A coroutine that has not started or that waits in a yield can be resumed. -/
def Thread.status : Thread → ThreadStatus
  | .fresh _ | .suspended .. => .resumable
  | .active => .running
  | .finished => .finished
  | .failed _ => .error

structure HookMask where
  call : Bool := false
  ret : Bool := false
  line : Bool := false
  /-- Every so many steps. -/
  count : Option Nat := none
deriving DecidableEq, Repr, Inhabited

/-- Adds an event every so many steps, and one at each step for zero. -/
def HookMask.every (mask : HookMask) (n : Nat) : HookMask :=
  { mask with count := some (max n 1) }

structure Hook where
  mask : HookMask
  quiet : Bool
  abortAt : Option Nat
  seen : Nat := 0
deriving Inhabited

/-- What a session takes from the engine as it is. -/
structure Engine where
  /-- How many functions may run inside each other. -/
  calls : Nat := 190000
  /-- How many pieces of host code may wait for scripts inside each other. -/
  hostCalls : Nat := 60
  /-- How many values fit on the stack of a coroutine. -/
  values : Nat := 1000000
  /-- How many steps a run may take. -/
  steps : Nat := Number.tenTo 12
  enough : 1000 ≤ steps := by decide
  /-- The trace captured where a piece of host code failed. -/
  trace : HostFailure → Option String := fun _ => none
  border : Table.Border := .smallest

/-- The engine as it comes. -/
def Engine.standard : Engine :=
  {}

instance : Inhabited Engine :=
  ⟨.standard⟩

/-- Everything that outlives a run. -/
structure World where
  options : Options
  engine : Engine := .standard
  registry : Registry
  heap : Heap
  store : Store := {}
  threads : Array Thread := #[]
  /-- The coroutines being resumed by the host, innermost first. -/
  active : List Nat := []
  /-- Coroutines that bodies know by name. -/
  coroutines : Named Nat := []
  environment : List (String × String) := []
  hook : Option Hook := none
  /-- The table of global variables. -/
  globals : Nat
  strings : Option Nat := none
deriving Inhabited

namespace World

def coercer (w : World) : Coercer :=
  coerce w.options.maxCoercionDepth w.heap

def push (w : World) (v : HostValue) : Except BridgeError Value × World :=
  let (result, heap) := Bridge.push w.heap v
  (result, { w with heap })

def pushMany (w : World) (vs : List HostValue) : Except BridgeError (List Value) × World :=
  let (result, heap) := Bridge.pushMany w.options.maxTransferValues w.heap vs
  (result, { w with heap })

def pull (w : World) (v : Value) : HostValue :=
  Bridge.pull w.heap v

def pullMany (w : World) (vs : List Value) : Except BridgeError (List HostValue) :=
  Bridge.pullMany w.options.maxTransferValues w.heap vs

def thread (w : World) (id : Nat) : Thread :=
  w.threads[id]?.getD .finished

def setThread (w : World) (id : Nat) (t : Thread) : World :=
  { w with threads := w.threads.setIfInBounds id t }

def newThread (w : World) (f : Value) : Nat × World :=
  (w.threads.size, { w with threads := w.threads.push (.fresh f) })

/-- Where a coroutine of the host stands. -/
def status (w : World) (thread : Nat) : CoroutineStatus :=
  match w.active with
  | innermost :: rest =>
    if innermost == thread then .running
    else if rest.contains thread then .normal
    else halted
  | [] => halted
where
  halted := match (w.thread thread).status with
    | .resumable => .suspended
    | .running => .running
    | _ => .dead

/-- Whether the host may resume a coroutine. -/
def checkResumable (w : World) (thread : Nat) : Except BridgeError Unit :=
  match w.status thread with
  | .suspended => .ok ()
  | .dead => .error .deadCoroutine
  | status => .error (.coroutineNotSuspended status)

/-- Keeps what is exposed of a type once it was asked for. -/
def remember (w : World) (t : HostType) : World :=
  { w with registry := w.registry.remember t }

def failureValue (w : World) (e : ScriptError) : Value × World :=
  let (v, heap) := w.heap.newUserdata (.failure e)
  (v, { w with heap })

/-- The error that a raised value is to the host. -/
def scriptError (w : World) : Value → ScriptError
  | .userdata id =>
    match w.heap.userdatum id with
    | .failure e => e
    | _ => .runtime "error object is a userdata value"
  | .str bytes => .runtime (Text.decode bytes)
  | v => .runtime ("error object is a " ++ v.typeName ++ " value")

/-- What reaches the host of what a coroutine hands over: the values have to fit on its stack. -/
def receive (w : World) : Handed → Except ScriptError (List Value)
  | .ok vs => if w.engine.values < vs.length then .error .stackExhausted else .ok vs
  | .error v => .error (w.scriptError v)

end World

end ScriptBridge.Machine

namespace ScriptBridge

open Machine Script Bridge

/-- A machine at work. -/
structure Machine where
  world : World
  control : Control
  stack : List Frame := []
  /-- How many functions are running. -/
  depth : Nat := 0
  /-- The running coroutine, if it is not the main thread. -/
  thread : Option Nat := none

namespace Machine

/-- How a run ends. -/
inductive Outcome
  | returned (vs : List Value)
  | raised (v : Value)
  | resumed (thread : Nat) (handed : Handed)
  /-- The steps allowed were not enough. -/
  | exhausted

/-- A machine after one step. -/
inductive Progress
  | running (m : Machine)
  | halted (o : Outcome) (w : World)

@[inline]
def go (m : Machine) (c : Control) : Machine :=
  { m with control := c }

@[inline]
def withWorld (m : Machine) (w : World) : Machine :=
  { m with world := w }

@[inline]
def withHeap (m : Machine) (heap : Heap) : Machine :=
  { m with world := { m.world with heap } }

@[inline]
def withStore (m : Machine) (store : Store) : Machine :=
  { m with world := { m.world with store } }

@[inline]
def remember (m : Machine) (t : HostType) : Machine :=
  m.withWorld (m.world.remember t)

@[inline]
def push (m : Machine) (f : Frame) (c : Control) : Machine :=
  { m with stack := f :: m.stack, control := c }

@[inline]
def heap (m : Machine) : Heap :=
  m.world.heap

@[inline]
def give (m : Machine) (v : Value) : Machine :=
  m.go (.values [v])

/-- Raises an error with a text of the engine. -/
def raiseText (m : Machine) (text : String) : Machine :=
  m.go (.raising (.ofString text))

def raiseError (m : Machine) (e : ScriptError) : Machine :=
  let (v, w) := m.world.failureValue e
  (m.withWorld w).go (.raising v)

/-- Raises a bridge error out of host code that a script called. -/
def raiseBridge (m : Machine) (e : BridgeError) : Machine :=
  m.raiseError (.callback e.raise)

/-- Raises an error for an argument of a wrong script type. -/
def raiseConversion (m : Machine) : Machine :=
  m.raiseError (.callback (.badArgument .conversion))

end Machine

end ScriptBridge
