import ScriptBridge.Machine.State

/-!
# Expressions

Evaluating expressions: variables, tables, closures and operators. Operators on tables go to their
metamethods, operators on objects to the overloads of their classes.
-/

namespace ScriptBridge.Machine

open Script Bridge

/-- How many metatables a member access may pass through. -/
def metatableBudget : Nat :=
  2000

def first (vs : List Value) : Value :=
  vs.headD .nil

/-- The value of a variable; a name that is not in scope is a global one. -/
def lookup (w : World) (scope : Scope) (name : String) : Value :=
  match scope.bindings.lookup name with
  | some cell => w.heap.cell cell
  | none => w.heap.rawGet w.globals (.ofString name)

/-- A closure keeps the variables that its body mentions. -/
def makeClosure (m : Machine) (scope : Scope) (params : List String) (isVariadic : Bool)
    (body : List Stmt) : Machine :=
  let names := freeNames params body
  let captured := scope.bindings.filter fun (name, _) => names.contains name
  let (id, heap) := m.heap.newClosure { params, isVariadic, body, captured }
  (m.withHeap heap).give (.function (.closure id))

/-- Goes on filling a new table. -/
def fillTable (m : Machine) (id : Nat) (scope : Scope) : List (Expr × Expr) → Machine
  | [] => m.give (.table id)
  | (key, value) :: rest => m.push (.entryKey id value rest scope) (.evaluate key scope)

def evaluate (m : Machine) (scope : Scope) : Expr → Machine
  | .nil => m.give .nil
  | .bool b => m.give (.bool b)
  | .int i => m.give (.int i)
  | .float x => m.give (.float x)
  | .str bytes => m.give (.str bytes)
  | .name n => m.give (lookup m.world scope n)
  | .varargs => m.go (.values scope.varargs)
  | .single e => m.push .single (.evaluate e scope)
  | .index e key => m.push (.indexKey key scope) (.evaluate e scope)
  | .call f args => m.push (.callee args scope) (.evaluate f scope)
  | .invoke receiver method args =>
    m.push (.receiver method args scope) (.evaluate receiver scope)
  | .binary op a b => m.push (.right op b scope) (.evaluate a scope)
  | .junction op a b => m.push (.junction op b scope) (.evaluate a scope)
  | .unary op a => m.push (.unary op) (.evaluate a scope)
  | .table entries =>
    let (id, heap) := m.heap.newTable {}
    fillTable (m.withHeap heap) id scope entries
  | .sequence items => m.push .sequence (.evaluateAll [] items scope)
  | .function params isVariadic body => makeClosure m scope params isVariadic body

/-- Evaluates expressions in order; all but the last one give one value each. Nothing is left on
the stack for a single one, so that a function that returns the values of a call is not waiting. -/
def evaluateAll (m : Machine) (done : List Value) (scope : Scope) : List Expr → Machine
  | [] => m.go (.values done.reverse)
  | [e] =>
    if done.isEmpty then m.go (.evaluate e scope)
    else m.push (.lastOf done) (.evaluate e scope)
  | e :: rest => m.push (.collect done rest scope) (.evaluate e scope)

def fillEntry (m : Machine) (id : Nat) (key value : Value) (rest : List (Expr × Expr))
    (scope : Scope) : Machine :=
  if key.isKey then fillTable (m.withHeap (m.heap.rawSet id key value)) id scope rest
  else m.raiseText "index is nil or NaN"

/-- Hands the value that host code gave to the script that called it. -/
def deliver (m : Machine) (v : HostValue) : Machine :=
  match m.world.push v with
  | (.ok value, w) => (m.withWorld w).give value
  | (.error e, w) => (m.withWorld w).raiseBridge e

def deliverAll (m : Machine) (vs : List HostValue) : Machine :=
  match m.world.pushMany vs with
  | (.ok values, w) => (m.withWorld w).go (.values values)
  | (.error e, w) => (m.withWorld w).raiseBridge e

/-- Runs host code that was planned, or raises why it was not. -/
def runPlanned (m : Machine) (finish : Finish) : Except BridgeError HostCode → Machine
  | .ok code => m.go (.host code finish)
  | .error e => m.raiseBridge e

/-- Looks up what is exposed of the classes of operands. -/
def consult (m : Machine) (operands : List HostValue) : Machine :=
  operands.foldl (fun m v =>
    match v with
    | .object o => m.remember o.cls
    | _ => m) m

def applyOperator (m : Machine) (op : Operator) (a b : Value) : Machine :=
  match m.world.pullMany [a, b] with
  | .error e => m.raiseBridge e
  | .ok operands =>
    let m := consult m (operands.take op.arity)
    runPlanned m .value
      ((planOperator m.world.coercer m.world.registry op operands).map .method)

/-- What an operand offers for an operator. -/
inductive Metamethod
  | none
  | script (f : Value)
  | host

def metamethodOf (w : World) (event : String) : Value → Metamethod
  | .table id =>
    match w.heap.metamethod id event with
    | .nil => .none
    | f => .script f
  | .userdata id =>
    match w.heap.userdatum id with
    | .object _ => .host
    | _ => .none
  | _ => .none

/-- The first operand's metamethod, or else the second's. -/
def metamethodOfEither (w : World) (event : String) (a b : Value) : Metamethod :=
  match metamethodOf w event a with
  | .none => metamethodOf w event b
  | found => found

/-- The operator that classes can overload. -/
def overloadable? : BinaryOp → Option Operator
  | .add => some .add
  | .sub => some .sub
  | .mul => some .mul
  | .div => some .div
  | _ => none

/-- Arithmetic: numbers, then metamethods, then numerals where there is a string library. -/
def arithmetic (m : Machine) (op : BinaryOp) (a b : Value) : Machine :=
  match a.arithmetic? op b with
  | some v => m.give v
  | none =>
    match metamethodOfEither m.world op.event a b, overloadable? op with
    | .script f, _ => m.push .single (.call f [a, b])
    | .host, some operator => applyOperator m operator a b
    | _, _ =>
      match m.world.strings, a.toNumber?, b.toNumber? with
      | some _, some x, some y =>
        match x.arithmetic? op y with
        | some v => m.give v
        | none => m.raiseText "attempt to perform arithmetic"
      | _, _, _ => m.raiseText "attempt to perform arithmetic"

def concatenate (m : Machine) (a b : Value) : Machine :=
  match a.text?, b.text? with
  | some x, some y => m.give (.str (x ++ y))
  | _, _ =>
    match metamethodOfEither m.world "__concat" a b with
    | .script f => m.push .single (.call f [a, b])
    | _ => m.raiseText "attempt to concatenate"

/-- Whether a userdata compares by what it stands for. -/
def comparesByTarget (w : World) : Value → Bool
  | .userdata id =>
    match w.heap.userdatum id with
    | .object _ | .type _ => true
    | _ => false
  | _ => false

/-- Equality; two different tables may have a metamethod, and proxies of objects and types compare
what they stand for. -/
def equate (m : Machine) (negated : Bool) (a b : Value) : Machine :=
  if a.rawEqual b then m.give (.bool !negated)
  else match a, b with
    | .table _, .table _ =>
      match metamethodOfEither m.world "__eq" a b with
      | .script f => m.push (.truth negated) (.call f [a, b])
      | _ => m.give (.bool negated)
    | .userdata _, .userdata _ =>
      if comparesByTarget m.world a || comparesByTarget m.world b then
        m.give (.bool (((m.world.pull a).same (m.world.pull b)) != negated))
      else m.give (.bool negated)
    | _, _ => m.give (.bool negated)

/-- Order of numbers and strings, or a metamethod's answer. -/
def compare (m : Machine) (event : String) (decided : Option Bool) (a b : Value) : Machine :=
  match decided with
  | some r => m.give (.bool r)
  | none =>
    match metamethodOfEither m.world event a b with
    | .script f => m.push (.truth false) (.call f [a, b])
    | _ => m.raiseText "attempt to compare"

def operate (m : Machine) (op : BinaryOp) (a b : Value) : Machine :=
  match op with
  | .add | .sub | .mul | .div => arithmetic m op a b
  | .concat => concatenate m a b
  | .eq => equate m false a b
  | .ne => equate m true a b
  | .lt => compare m "__lt" (a.less? b) a b
  | .gt => compare m "__lt" (b.less? a) b a
  | .le => compare m "__le" (a.lessEqual? b) a b
  | .ge => compare m "__le" (b.lessEqual? a) b a

def negate (m : Machine) (a : Value) : Machine :=
  match a.negate? with
  | some v => m.give v
  | none =>
    match metamethodOf m.world "__unm" a with
    | .script f => m.push .single (.call f [a, a])
    | .host => applyOperator m .neg a a
    | .none =>
      match m.world.strings, a.toNumber?.bind Value.negate? with
      | some _, some v => m.give v
      | _, _ => m.raiseText "attempt to perform arithmetic"

/-- The length of a string or table. -/
def length (m : Machine) (a : Value) : Machine :=
  match a with
  | .str bytes => m.give (.int (Int64.ofNat bytes.size))
  | .table id =>
    match metamethodOf m.world "__len" a with
    | .script f => m.push .single (.call f [a])
    | _ => m.give (.int (Int64.ofNat (m.heap.length id)))
  | _ => m.raiseText "attempt to get length"

def operateUnary (m : Machine) (op : UnaryOp) (a : Value) : Machine :=
  match op with
  | .neg => negate m a
  | .not => m.give (.bool !a.isTruthy)
  | .length => length m a

/-- The second operand decides only where the first one does not. -/
def join (m : Machine) (op : Junction) (a : Value) (b : Expr) (scope : Scope) : Machine :=
  let decided := match op with
    | .and => !a.isTruthy
    | .or => a.isTruthy
  if decided then m.give a else m.push .single (.evaluate b scope)

end ScriptBridge.Machine
