import ScriptBridge.Bridge.Overload
import ScriptBridge.Host.Registry

/-!
# Dispatch

Member reads, writes, calls, construction and operators are first planned: the member is looked
up, the overload selected, the values coerced. Only a plan that was found is carried out, and it
names exactly one piece of host code to run.
-/

namespace ScriptBridge.Bridge

open Script

structure Invocation where
  member : Declared Method
  group : String
  /-- The type the member was resolved on. -/
  cls : HostType
  target : Option HostObject
  slots : List HostValue
  typeArgs : List HostType

namespace Invocation

/-- How error messages name the call. -/
def context (inv : Invocation) : String :=
  inv.cls.name ++ "." ++ inv.group

/-- The final values of the parameters that are handed back. -/
def handedBack (inv : Invocation) : List HostValue :=
  (inv.member.item.params.zipIdx.filter (·.1.isHandedBack)).map fun (_, i) =>
    (inv.slots[i]?).getD .nil

/-- What the caller gets: the returned value, if it is wanted, and the parameters handed back. -/
def results (inv : Invocation) (withValue : Bool) (value : HostValue) : List HostValue :=
  if withValue then value :: inv.handedBack else inv.handedBack

end Invocation

inductive Accessor
  | getField (f : Declared Field)
  | setField (f : Declared Field) (value : HostValue)
  | getProperty (p : Declared Property) (get : Access) (index : List HostValue)
  | setProperty (p : Declared Property) (set : Access) (index : List HostValue)
      (value : HostValue)
  | subscribe (e : Declared Event) (handler : Routine)
  | unsubscribe (e : Declared Event) (handler : Routine)

/-- The one piece of host code that a plan runs. -/
inductive HostCode
  | method (inv : Invocation)
  | access (target : Target) (name : String) (accessor : Accessor)

/-- How error messages name the code. -/
def HostCode.context : HostCode → String
  | method inv => inv.context
  | access target name _ => target.memberContext name

/-- What reading a member comes to: something bound to the target, a type, or code to run. -/
inductive ReadPlan
  | bound (u : Userdata)
  | type (t : HostType)
  | run (code : HostCode)

def unknownMember (target : Target) (name : String) : BridgeError :=
  .unknownMember target.cls.fullName name

def readOnlyMember (target : Target) (name : String) : BridgeError :=
  .readOnlyMember target.cls.fullName name

def describeAll (args : List HostValue) : String :=
  ", ".intercalate (args.map (·.describe))

def noMatchingOverload (t : HostType) (member : String) (args : List HostValue) : BridgeError :=
  .noMatchingOverload t.fullName member (describeAll args)

/-- The member of a target that a name stands for. -/
def findMember (r : Registry) (target : Target) (name : String) : Except BridgeError Member :=
  match ((r.metadata target.cls).members target.isStatic).lookup name with
  | some member => .ok member
  | none => .error (unknownMember target name)

def planRead (r : Registry) (target : Target) (name : String) : Except BridgeError ReadPlan := do
  match ← findMember r target name with
  | .event e => return .bound (.event target e)
  | .field f => return .run (.access target name (.getField f))
  | .methods group overloads => return .bound (.methods target group overloads)
  | .property p =>
    if p.item.isIndexed then return .bound (.indexer target p)
    else match p.item.get with
      | some get => return .run (.access target name (.getProperty p get []))
      | none => .error (unknownMember target name)
  | .nested t => return .type t

/-- Plans to assign a member: fields that are not constant and plain properties, where they have a
setter, take the value coerced to their kind. -/
def planWrite (c : Coercer) (r : Registry) (target : Target) (name : String) (value : HostValue) :
    Except BridgeError HostCode := do
  match ← findMember r target name with
  | .field f =>
    match f.item.set, f.item.isConstant with
    | some _, false => return .access target name (.setField f (← c value f.item.kind))
    | _, _ => .error (readOnlyMember target name)
  | .property p =>
    if p.item.isIndexed then .error (readOnlyMember target name)
    else match p.item.set with
      | some set => return .access target name (.setProperty p set [] (← c value p.item.kind))
      | none => .error (readOnlyMember target name)
  | _ => .error (readOnlyMember target name)

/-- Index arguments, one for each index parameter and of its kind. -/
def coerceIndex (c : Coercer) (target : Target) (p : Property) (args : List HostValue) :
    Except BridgeError (List HostValue) :=
  if args.length != p.indexParams.length then
    .error (noMatchingOverload target.cls p.name args)
  else (p.indexParams.zip args).mapM fun (param, a) => c a param.kind

def planIndexGet (c : Coercer) (target : Target) (p : Declared Property) (args : List HostValue) :
    Except BridgeError HostCode := do
  match p.item.get with
  | none => .error (unknownMember target p.item.name)
  | some get =>
    return .access target p.item.name (.getProperty p get (← coerceIndex c target p.item args))

def planIndexSet (c : Coercer) (target : Target) (p : Declared Property) (args : List HostValue)
    (value : HostValue) : Except BridgeError HostCode := do
  match p.item.set with
  | none => .error (readOnlyMember target p.item.name)
  | some set =>
    let index ← coerceIndex c target p.item args
    return .access target p.item.name (.setProperty p set index (← c value p.item.kind))

/-- The overload that a call on a bound method group selects. A first argument that is the target
itself is dropped, unless the call matches only with it. -/
def selectCall (strip : Bool) (c : Coercer) (target : Target) (overloads : List (Declared Method))
    (args : List HostValue) : Option Resolved :=
  match strip, args with
  | true, a :: rest =>
    if target.isSame a then
      (select c overloads rest target.object?).or (select c overloads args target.object?)
    else select c overloads args target.object?
  | _, _ => select c overloads args target.object?

/-- The arguments that an error message lists. -/
def listedArgs (strip : Bool) (target : Target) : List HostValue → List HostValue
  | a :: rest => if strip && target.isSame a then rest else a :: rest
  | [] => []

def planCall (strip : Bool) (c : Coercer) (target : Target) (group : String)
    (overloads : List (Declared Method)) (args : List HostValue) :
    Except BridgeError Invocation :=
  match selectCall strip c target overloads args with
  | some found => .ok ⟨found.member, group, target.cls, target.object?, found.slots, found.typeArgs⟩
  | none => .error (noMatchingOverload target.cls group (listedArgs strip target args))

def planConstruct (c : Coercer) (r : Registry) (t : HostType) (args : List HostValue) :
    Except BridgeError Invocation :=
  match resolve c (r.metadata t).constructors args none with
  | some found => .ok ⟨found.member, "new", t, none, found.slots, found.typeArgs⟩
  | none => .error (noMatchingOverload t "new" args)

/-- The types over which a call closes an open generic type. -/
def typeArguments (t : HostType) (args : List HostValue) : Except BridgeError (List HostType) :=
  args.mapM fun
    | .type a => .ok a
    | a => .error (.invalidTypeArgument t.fullName ("expected a type, got " ++ a.describe))

/-- Operator overloads collected so far, and the class of the first operand that brought one. -/
structure OperatorCandidates where
  overloads : List (Declared Method) := []
  owner : Option HostType := none

/-- Adds the overloads of an operand's class that are not there yet. -/
def OperatorCandidates.add (r : Registry) (op : Operator) (found : OperatorCandidates) :
    HostValue → OperatorCandidates
  | .object o =>
    ((r.metadata o.cls).operator op).foldl (fun found m =>
      if found.overloads.any m.isSame then found
      else ⟨found.overloads ++ [m], found.owner.or (some o.cls)⟩) found
  | _ => found

def operatorNotSupported (op : Operator) (operands : List HostValue) : BridgeError :=
  let describe (i : Nat) := (operands[i]?.map (·.describe)).getD "-"
  .operatorNotSupported op.symbol (describe 0) (describe 1)

/-- Plans to apply an operator to its operands; surplus operands are dropped. -/
def planOperator (c : Coercer) (r : Registry) (op : Operator) (operands : List HostValue) :
    Except BridgeError Invocation :=
  let operands := operands.take op.arity
  let found := operands.foldl (·.add r op) ({} : OperatorCandidates)
  match found.owner with
  | none => .error (operatorNotSupported op operands)
  | some owner =>
    match resolve c found.overloads operands none with
    | some selected =>
      .ok ⟨selected.member, op.metamethod, owner, none, selected.slots, selected.typeArgs⟩
    | none => .error (noMatchingOverload owner op.metamethod operands)

end ScriptBridge.Bridge
