import ScriptBridge.Bridge.Dispatch
import ScriptBridge.Bridge.Store
import ScriptBridge.Host.Conversion

/-!
# Host code

Running accessors and method bodies. Each is logged first. An accessor runs to its end at once; a
body may stop at a point where scripts have to run, and tells what it waits for.
-/

namespace ScriptBridge.Bridge

open Script

def panicFailure : Panic → HostFailure
  | .fixed => .panicked (some "static boom")
  | .composed message => .panicked (some message)
  | .other => .panicked none

/-- The failure of an argument that is missing or out of range. -/
def argumentFailure (message : String) : HostFailure :=
  .failed ("Argument error: " ++ message)

def conversionFailure (e : ConversionError) : HostFailure :=
  .failed e.message

def ofConversion {α : Type} : Except ConversionError α → Except HostFailure α
  | .ok a => .ok a
  | .error e => .error (conversionFailure e)

/-- The data an accessor works on: that of the target, or of the class that declares a static
member. -/
def holderOf (target : Option HostObject) (owner : HostType) : Holder :=
  match target with
  | some o => .object o
  | none => .cls owner.home

/-- What reading comes to when the accessor is not a plain one. -/
def readThrough (a : Access) (plain strict : Except HostFailure HostValue) :
    Except HostFailure HostValue :=
  match a with
  | .plain => plain
  | .strict => strict
  | .give v => .ok v.value
  | .fail message => .error (.failed message)
  | .failArgument message => .error (argumentFailure message)
  | .panic p => .error (panicFailure p)

/-- What writing comes to when the accessor is not a plain one. -/
def writeThrough (a : Access) (plain : Except HostFailure Store) (s : Store) :
    Except HostFailure Store :=
  match a with
  | .plain | .strict => plain
  | .give _ => .ok s
  | .fail message => .error (.failed message)
  | .failArgument message => .error (argumentFailure message)
  | .panic p => .error (panicFailure p)

def written (s : Store) : Except HostFailure Store → Except HostFailure HostValue × Store
  | .ok s => (.ok .nil, s)
  | .error e => (.error e, s)

def runAccessor (h : Heap) (s : Store) (target : Option HostObject) :
    Accessor → Except HostFailure HostValue × Store
  | .getField f =>
    match f.item.source with
    | .constant v => (.ok v.value, s)
    | .accessor get =>
      let s := s.addLog (.get f.item.name (s.snapshotSelf h target) none)
      let stored := (s.read (holderOf target f.owner)).map (·.field f.item.name)
      (readThrough get stored stored, s)
  | .setField f v =>
    let s := s.addLog (.set f.item.name (s.snapshotSelf h target) none (s.snapshot h v))
    let stored := s.write (holderOf target f.owner) (·.setField f.item.name v)
    written s (writeThrough (f.item.set.getD .plain) stored s)
  | .getProperty p get index =>
    let s := s.addLog (.get p.item.name (s.snapshotSelf h target)
      (some (index.map (s.snapshot h))))
    let cell? := (s.read (holderOf target p.owner)).map (·.cell? p.item.name index)
    let stored := cell?.map (·.getD .nil)
    let strict := cell?.bind fun
      | some v => .ok v
      | none => .error (argumentFailure "no such cell")
    (readThrough get stored strict, s)
  | .setProperty p set index v =>
    let s := s.addLog (.set p.item.name (s.snapshotSelf h target)
      (some (index.map (s.snapshot h))) (s.snapshot h v))
    let stored := s.write (holderOf target p.owner) (·.setCell p.item.name index v)
    written s (writeThrough set stored s)
  | .subscribe e handler =>
    let s := s.addLog (.subscribe e.item.name (s.snapshotSelf h target))
    let holder := holderOf target e.owner
    let stored := (s.reach e.item.borrow holder).map fun r =>
      s.setSource holder e.item.name ((r.source e.item.name).add handler)
    written s (writeThrough (e.item.refusal.getD .plain) stored s)
  | .unsubscribe e handler =>
    let s := s.addLog (.unsubscribe e.item.name (s.snapshotSelf h target))
    let holder := holderOf target e.owner
    match s.reach e.item.borrow holder with
    | .error failure => (.error failure, s)
    | .ok r =>
      let (found, source) := (r.source e.item.name).remove handler
      (.ok (.bool found), s.setSource holder e.item.name source)

/-- Where a body stands after its next piece of work. -/
inductive BodyStep
  | finished (value : HostValue) (inv : Invocation)
  | failed (failure : HostFailure)
  /-- The handlers of an event are to be called with one value. -/
  | emit (holder : Holder) (event : String) (arg : HostValue)
  | callBack (f : Routine) (args : List HostValue)
  /-- A body is to run while the object is borrowed. -/
  | hold (o : HostObject) (mode : BorrowMode) (body : Body)
  | sequence (bodies : List Body)
  | coroutineStatus (name : String)
  | resume (name : String)
  | environment (name : String)

namespace Invocation

def slot (inv : Invocation) (i : Nat) : HostValue :=
  inv.slots[i]?.getD .nil

def operand (inv : Invocation) : Operand → HostValue
  | .slot i => inv.slot i
  | .literal v => v.value

/-- Assigns a slot; slots up to it come into being as nil. -/
def setSlot (inv : Invocation) (i : Nat) (v : HostValue) : Invocation :=
  let slots := inv.slots ++ List.replicate (i + 1 - inv.slots.length) .nil
  { inv with slots := slots.set i v }

def instance_ (inv : Invocation) : Except HostFailure HostObject :=
  match inv.target with
  | some o => .ok o
  | none => .error (argumentFailure (inv.cls.name ++ " requires an instance"))

/-- A data field of an object in a slot. -/
def fieldOf (inv : Invocation) (s : Store) (i : Nat) (name : String) :
    Except HostFailure HostValue := do
  let o ← ofConversion (inv.slot i).toObject
  return (← s.read (.object o)).field name

/-- A summand as a double. -/
def term (inv : Invocation) (s : Store) : Term → Except HostFailure Float
  | .operand o => ofConversion (inv.operand o).toDouble
  | .fieldOf i name => do ofConversion (← inv.fieldOf s i name).toDouble

def sum (inv : Invocation) (s : Store) (terms : List Term) : Except HostFailure Float :=
  terms.foldlM (fun total t => return total + (← inv.term s t)) 0.0

def typeArgument (inv : Invocation) (i : Nat) : Except HostFailure HostType :=
  match inv.typeArgs[i]? with
  | some t => .ok t
  | none => .error (argumentFailure ("missing type argument " ++ toString i))

/-- What is recorded of the call before it runs. -/
def logEntry (inv : Invocation) (h : Heap) (s : Store) : LogEntry :=
  .call inv.member.item.label inv.cls.fullName (s.snapshotSelf h inv.target)
    (inv.slots.map (s.snapshot h)) (inv.typeArgs.map (·.fullName))

end Invocation

/-- Adds an integer to a data field, a missing one counting as zero. -/
def addToField (s : Store) (o : HostObject) (name : String) (v : HostValue) :
    Except HostFailure (HostValue × Store) := do
  let amount ← ofConversion v.toInt64
  s.checkWritable o
  let before ← match (s.record (.object o)).fields.find? name with
    | some old => ofConversion old.toInt64
    | none => pure 0
  let total := before.toInt + amount.toInt
  if IntKind.i64.holds total then
    let result := HostValue.int (Int64.ofInt total)
    return (result, s.update (.object o) (·.setField name result))
  else .error (.failed "counter overflow")

/-- A body that runs to its end: its value, the call's state and the store. -/
abbrev BodyEnd := Except HostFailure (HostValue × Invocation × Store)

def ended (s : Store) : BodyEnd → BodyStep × Store
  | .ok (v, inv, s) => (.finished v inv, s)
  | .error failure => (.failed failure, s)

/-- Runs a body to its end, or to the point where it waits for scripts. -/
def startBody (s : Store) (inv : Invocation) : Body → BodyStep × Store
  | .idle => (.finished .nil inv, s)
  | .give o => (.finished (inv.operand o) inv, s)
  | .slots => (.finished (.array inv.slots) inv, s)
  | .slotCount =>
    (.finished (.array [.int (Int64.ofNat inv.slots.length), .bool inv.slots.isEmpty]) inv, s)
  | .construct fields =>
    let (o, s) := s.newObject inv.cls (fields.map fun (name, v) => (name, inv.operand v))
    (.finished (.object o) inv, s)
  | .constructSums fields => ended s do
    let sums ← fields.mapM fun (name, terms) => return (name, HostValue.float (← inv.sum s terms))
    let (o, s) := s.newObject inv.cls sums
    return (.object o, inv, s)
  | .getData name => ended s do
    let o ← inv.instance_
    return ((← s.read (.object o)).field name, inv, s)
  | .setData name v => ended s do
    let o ← inv.instance_
    return (.nil, inv, ← s.write (.object o) (·.setField name (inv.operand v)))
  | .addData name v => ended s do
    let o ← inv.instance_
    let (total, s) ← addToField s o name (inv.operand v)
    return (total, inv, s)
  | .fieldOf i name => ended s do
    return (← inv.fieldOf s i name, inv, s)
  | .assign sets result =>
    let value := inv.operand result
    let values := sets.map fun (i, o) => (i, inv.operand o)
    (.finished value (values.foldl (fun inv (i, v) => inv.setSlot i v) inv), s)
  | .convert i representation => ended s do
    return (← ofConversion (representation.convert (inv.slot i)), inv, s)
  | .typeArgumentName i => ended s do
    return (.str (← inv.typeArgument i).fullName, inv, s)
  | .typeArgument i => ended s do
    return (.type (← inv.typeArgument i), inv, s)
  | .typeArgumentNames =>
    (.finished (.array (inv.typeArgs.map fun t => .str t.fullName)) inv, s)
  | .targetClassName => ended s do
    return (.str (← inv.instance_).cls.fullName, inv, s)
  | .target => ended s do
    return (.object (← inv.instance_), inv, s)
  | .invokedClass => (.finished (.type inv.cls) inv, s)
  | .borrowAsInteger => ended s do
    let o ← inv.instance_
    .error (conversionFailure (.mismatch "i64" o.cls.name))
  | .emit event o =>
    match inv.target with
    | none => (.emit (.cls inv.cls.fullName) event (inv.operand o), s)
    | some target =>
      match s.read (.object target) with
      | .ok _ => (.emit (.object target) event (inv.operand o), s)
      | .error failure => (.failed failure, s)
  | .callBack i args =>
    match ofConversion (inv.slot i).toFunction with
    | .ok f => (.callBack f (args.map inv.operand), s)
    | .error failure => (.failed failure, s)
  | .hold mode body =>
    match inv.instance_ with
    | .error failure => (.failed failure, s)
    | .ok o =>
      match s.borrow o mode with
      | .ok s => (.hold o mode body, s)
      | .error failure => (.failed failure, s)
  | .sequence bodies => (.sequence bodies, s)
  | .fail message => (.failed (.failed message), s)
  | .failArgument message => (.failed (argumentFailure message), s)
  | .panic p => (.failed (panicFailure p), s)
  | .coroutineStatus name => (.coroutineStatus name, s)
  | .resume name => (.resume name, s)
  | .environment i =>
    match inv.slot i with
    | .str name => (.environment name, s)
    | v => (.failed (conversionFailure (.mismatch "string" v.describe)), s)

end ScriptBridge.Bridge
