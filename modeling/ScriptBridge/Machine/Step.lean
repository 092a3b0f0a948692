import ScriptBridge.Machine.Call

/-!
# Steps

One step of the machine, and runs of many. A step looks at the control first, and where values
have arrived or a block has ended at the frame on top of the stack.
-/

namespace ScriptBridge.Machine

open Script Bridge

/-- Lets a hook see an event: it is logged, and the last one that the hook allows fails. -/
def fireHook (m : Machine) (kind : HookKind) (line : Nat) (hook : Hook) : Except Machine Machine :=
  let hook := { hook with seen := hook.seen + 1 }
  let store := if hook.quiet then m.world.store
    else m.world.store.addLog (.hook kind (some line))
  let m := m.withWorld { m.world with hook := some hook, store }
  if hook.abortAt == some hook.seen then
    .error (m.raiseBridge (.config "E:budget exhausted"))
  else .ok m

/-- Fires the hook for an event that it is set to see; hooks watch the main thread only. -/
def fire (kind : HookKind) (line : Nat) (m : Machine) : Except Machine Machine :=
  match m.world.hook, m.thread with
  | some hook, none =>
    let wanted := match kind with
      | .call => hook.mask.call
      | .ret => hook.mask.ret
      | .line => hook.mask.line
      | .count => hook.mask.count.isSome
    if wanted then fireHook m kind line hook else .ok m
  | _, _ => .ok m

/-- The events of a statement or of a round of a loop. -/
def tick (m : Machine) (line : Nat) (k : Machine → Machine) : Machine :=
  match (fire .line line m).bind (fire .count line) with
  | .ok m => k m
  | .error m => m

def execute (m : Machine) (stmt : Stmt) (rest : Rest) : Machine :=
  let scope := rest.scope
  match stmt with
  | .locals names values => m.push (.bind names rest) (.evaluateAll [] values scope)
  | .assign name value => m.push (.assign name rest) (.evaluate value scope)
  | .store e key value => m.push (.storeKey key value rest) (.evaluate e scope)
  | .run e => m.push (.discard rest) (.evaluate e scope)
  | .ret values => m.push .ret (.evaluateAll [] values scope)
  | .ifElse condition yes no => m.push (.branch yes no rest) (.evaluate condition scope)
  | .for_ name first last body => m.push (.forFirst name last body rest) (.evaluate first scope)
  | .while_ condition body => m.push (.whileTest condition body rest) (.evaluate condition scope)

def exec (m : Machine) (rest : Rest) : Machine :=
  match rest.stmts with
  | [] => m.go .completed
  | stmt :: stmts =>
    tick m rest.line fun m => execute m stmt { rest with stmts, line := rest.line + 1 }

def block (m : Machine) (frame : Frame) (body : List Stmt) (scope : Scope) (line : Nat) : Machine :=
  m.push frame (.exec ⟨body, scope, line⟩)

/-- The scope of a loop's body, its variable in a new cell. -/
def loopScope (m : Machine) (name : String) (v : Value) (scope : Scope) : Scope × Machine :=
  let (bindings, heap) := m.heap.declare scope.bindings [(name, v)]
  ({ scope with bindings }, m.withHeap heap)

def countOn (m : Machine) (name : String) (next : Int64) (rounds : Nat) (body : List Stmt)
    (rest : Rest) : Machine :=
  match rounds with
  | 0 => m.go (.exec rest)
  | rounds + 1 =>
    tick m rest.line fun m =>
      let (scope, m) := loopScope m name (.int next) rest.scope
      block m (.counting name (next + 1) rounds body rest) body scope rest.line

def stepOn (m : Machine) (name : String) (next last : Float) (body : List Stmt) (rest : Rest) :
    Machine :=
  if next ≤ last then
    tick m rest.line fun m =>
      let (scope, m) := loopScope m name (.float next) rest.scope
      block m (.stepping name (next + 1.0) last body rest) body scope rest.line
  else m.go (.exec rest)

/-- Starts a loop: over integers when it starts at one, its end rounded down. Numerals count as
numbers. -/
def startLoop (m : Machine) (name : String) (first last : Value) (body : List Stmt)
    (rest : Rest) : Machine :=
  match first, last.toNumber? with
  | .int i, some (.int j) => countOn m name i (j.toInt - i.toInt + 1).toNat body rest
  | .int i, some (.float y) =>
    match Number.read y with
    | .notANumber => m.go (.exec rest)
    | .infinite negative =>
      countOn m name i (if negative then 0 else ((Number.twoTo 63 : Int) - i.toInt).toNat) body rest
    | .finite negative n q =>
      let floor : Int :=
        if 0 ≤ q then Number.signed negative (n * Number.twoTo q.toNat)
        else Int.fdiv (Number.signed negative n) (Number.twoTo (-q).toNat)
      countOn m name i (min floor ((Number.twoTo 63 : Int) - 1) - i.toInt + 1).toNat body rest
  | a, b =>
    match a.toNumber?.bind Value.number?, b.bind Value.number? with
    | some x, some y => stepOn m name x y body rest
    | _, _ => m.raiseText "'for' limits must be numbers"

/-- Assigns a variable; a name that is not in scope is a global one. -/
def assign (m : Machine) (name : String) (v : Value) (scope : Scope) : Machine :=
  match scope.bindings.lookup name with
  | some cell => m.withHeap (m.heap.setCell cell v)
  | none => m.withHeap (m.heap.rawSet m.world.globals (.ofString name) v)

/-- Hands values to the frame that was on top of the stack. -/
def receive (m : Machine) (vs : List Value) : Frame → Machine.Progress
  | .collect done rest scope => .running (m.go (.evaluateAll (first vs :: done) rest scope))
  | .lastOf done => .running (m.go (.values (done.reverse ++ vs)))
  | .single => .running (m.give (first vs))
  | .callee args scope => .running (m.push (.apply (first vs)) (.evaluateAll [] args scope))
  | .apply f => .running (m.go (.call f vs))
  | .receiver method args scope =>
    let object := first vs
    .running (m.push (.method object args scope)
      (.index object (.ofString method) metatableBudget))
  | .method object args scope =>
    .running (m.push (.applyTo (first vs) object) (.evaluateAll [] args scope))
  | .applyTo f object => .running (m.go (.call f (object :: vs)))
  | .indexKey key scope => .running (m.push (.indexWith (first vs)) (.evaluate key scope))
  | .indexWith object => .running (m.go (.index object (first vs) metatableBudget))
  | .right op b scope => .running (m.push (.operate op (first vs)) (.evaluate b scope))
  | .operate op a => .running (operate m op a (first vs))
  | .junction op b scope => .running (join m op (first vs) b scope)
  | .unary op => .running (operateUnary m op (first vs))
  | .entryKey table value rest scope =>
    .running (m.push (.entryValue table (first vs) rest scope) (.evaluate value scope))
  | .entryValue table key rest scope =>
    .running (fillEntry m table key (first vs) rest scope)
  | .sequence =>
    let (id, heap) := m.heap.newTable (.ofList vs)
    .running ((m.withHeap heap).give (.table id))
  | .truth negated => .running (m.give (.bool ((first vs).isTruthy != negated)))
  | .bind names rest =>
    let (bindings, heap) :=
      m.heap.declare rest.scope.bindings (names.zip (adjust names.length vs))
    .running ((m.withHeap heap).go
      (.exec { rest with scope := { rest.scope with bindings } }))
  | .assign name rest => .running ((assign m name (first vs) rest.scope).go (.exec rest))
  | .storeKey key value rest =>
    .running (m.push (.storeValue (first vs) value rest) (.evaluate key rest.scope))
  | .storeValue object value rest =>
    .running (m.push (.storeTo object (first vs) rest) (.evaluate value rest.scope))
  | .storeTo object key rest =>
    .running (m.push (.discard rest) (.store object key (first vs) metatableBudget))
  | .discard rest => .running (m.go (.exec rest))
  | .ret => .running (m.go (.returning vs))
  | .branch yes no rest =>
    .running (block m (.next rest) (if (first vs).isTruthy then yes else no) rest.scope rest.line)
  | .forFirst name last body rest =>
    .running (m.push (.forLast name (first vs) body rest) (.evaluate last rest.scope))
  | .forLast name start body rest => .running (startLoop m name start (first vs) body rest)
  | .whileTest condition body rest =>
    .running <|
      if (first vs).isTruthy then
        tick m rest.line fun m =>
          block m (.whileBody condition body rest) body rest.scope rest.line
      else m.go (.exec rest)
  | .function outer => .running ({ m with depth := outer }.go (.values vs))
  | .protect => .running (m.go (.values (.bool true :: vs)))
  | .text =>
    .running <|
      match first vs with
      | .str bytes => m.give (.str bytes)
      | _ => m.raiseText "'__tostring' must return a string"
  | .resumed thread by_ outer around => finish m thread by_ outer around vs
  | .emitting inv holder event rest arg => .running (emitNext m inv holder event arg rest)
  | .callingBack inv => .running (m.go (.finished (m.world.pull (first vs)) inv))
  | _ => .running (m.go (.values vs))

def afterBlock (m : Machine) : Frame → Machine
  | .next rest => m.go (.exec rest)
  | .counting name next rounds body rest => countOn m name next rounds body rest
  | .stepping name next last body rest => stepOn m name next last body rest
  | .whileBody condition body rest =>
    m.push (.whileTest condition body rest) (.evaluate condition rest.scope)
  | .function outer => { m with depth := outer }.go (.values [])
  | _ => m.go .completed

/-- Takes the values of a return statement out of the function. -/
def returnFrom (m : Machine) (vs : List Value) : Frame → Machine
  | .function outer =>
    match fire .ret 0 m with
    | .ok m => { m with depth := outer }.go (.values vs)
    | .error m => m
  | _ => m.go (.returning vs)

/-- Hands the value of a body to what waits for it. -/
def afterBody (m : Machine) (v : HostValue) (inv : Invocation) : Frame → Machine
  | .steps [] => m.go (.finished v inv)
  | .steps (b :: rest) => m.push (.steps rest) (.body b inv)
  | .holding o mode => (m.withStore (m.world.store.giveBack o mode)).go (.finished v inv)
  | .guard _ finish => deliverResults m finish v inv
  | _ => m.go (.finished v inv)

/-- Takes a failure out of a body; what was borrowed is given back. -/
def afterFailure (m : Machine) (failure : HostFailure) : Frame → Machine
  | .holding o mode => (m.withStore (m.world.store.giveBack o mode)).go (.failed failure)
  | .guard context _ => raiseFailure m context failure
  | _ => m.go (.failed failure)

/-- Takes the top frame off the stack, or halts. -/
def popped (m : Machine) (empty : Machine.Outcome) (k : Machine → Frame → Machine.Progress) :
    Machine.Progress :=
  match m.stack with
  | [] => .halted empty m.world
  | f :: stack => k { m with stack } f

/-- How many pieces of host code wait for scripts. -/
def hostDepth (stack : List Frame) : Nat :=
  stack.countP (·.isHostWait)

/-- Whether host code has called a function with too much host code waiting already. -/
def overflows (m : Machine) : Bool :=
  match m.stack with
  | [] => false
  | f :: _ => f.isHostWait && m.world.engine.hostCalls < hostDepth m.stack

/-- Calls a value; the hook sees the call. -/
def callHooked (m : Machine) (f : Value) (args : List Value) : Machine.Progress :=
  if overflows m then .running (m.raiseText "stack overflow")
  else
    match fire .call 0 m with
    | .ok m => call m f args
    | .error m => .running m

def step (m : Machine) : Machine.Progress :=
  match m.control with
  | .exec rest => .running (exec m rest)
  | .evaluate e scope => .running (evaluate m scope e)
  | .evaluateAll done es scope => .running (evaluateAll m done scope es)
  | .values vs => popped m (.returned vs) fun m f => receive m vs f
  | .completed => popped m (.returned []) fun m f => .running (afterBlock m f)
  | .returning vs => popped m (.returned vs) fun m f => .running (returnFrom m vs f)
  | .raising v => raised m v
  | .call f args => callHooked m f args
  | .index object key budget => .running (index m object key budget)
  | .store object key v budget => .running (store m object key v budget)
  | .host code finish => .running (runHost m code finish)
  | .body b inv => .running (runBody m b inv)
  | .finished v inv => popped m (.returned []) fun m f => .running (afterBody m v inv f)
  | .failed failure => popped m (.returned []) fun m f => .running (afterFailure m failure f)
  | .resume thread args by_ => .running (resume m thread args by_)

/-- Runs a machine until it halts, for so many steps at most. -/
def run : Nat → Machine → Machine.Outcome × World
  | 0, m => (.exhausted, m.world)
  | fuel + 1, m =>
    match step m with
    | .running m => run fuel m
    | .halted o w => (o, w)

/-- Runs some work from an empty stack. -/
def start (w : World) (c : Control) : Machine.Outcome × World :=
  run w.engine.steps { world := w, control := c }

end ScriptBridge.Machine
