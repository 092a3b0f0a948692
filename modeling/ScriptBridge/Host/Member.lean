import ScriptBridge.Kind

/-!
# Host members

Declarations of what a class offers to scripts: methods with their parameters, fields,
properties, events and operators. What a member does is data too: a method has a `Body`, an
accessor an `Access`, so running one is a matter of interpreting it.
-/

namespace ScriptBridge

inductive Literal
  | nil
  | bool (b : Bool)
  | int (i : Int64)
  | unsigned (u : UInt64)
  | float (x : Float)
  | big (n : Int)
  | str (s : String)
  | array (items : List Literal)
deriving Inhabited

mutual

def Literal.decEq (a b : Literal) : Decidable (a = b) :=
  if h : a.ctorIdx = b.ctorIdx then
    match a, b, h with
    | .nil, .nil, _ => isTrue rfl
    | .bool x, .bool y, _ => decidable_of_iff (x = y) (by simp)
    | .int i, .int j, _ => decidable_of_iff (i = j) (by simp)
    | .unsigned u, .unsigned v, _ => decidable_of_iff (u = v) (by simp)
    | .float x, .float y, _ => decidable_of_iff (x = y) (by simp)
    | .big m, .big n, _ => decidable_of_iff (m = n) (by simp)
    | .str s, .str t, _ => decidable_of_iff (s = t) (by simp)
    | .array xs, .array ys, _ =>
      match Literal.decEqAll xs ys with
      | isTrue same => isTrue (by rw [same])
      | isFalse other => isFalse (by simpa using other)
  else isFalse fun same => h (congrArg Literal.ctorIdx same)

def Literal.decEqAll : (as bs : List Literal) → Decidable (as = bs)
  | [], [] => isTrue rfl
  | a :: as, b :: bs =>
    match Literal.decEq a b, Literal.decEqAll as bs with
    | isTrue first, isTrue rest => isTrue (by rw [first, rest])
    | isFalse first, _ => isFalse (by simp [first])
    | _, isFalse rest => isFalse (by simp [rest])
  | [], _ :: _ | _ :: _, [] => isFalse (by simp)

end

instance : DecidableEq Literal := Literal.decEq

/-- The value an omitted argument takes. -/
inductive DefaultValue
  | nil
  | bool (b : Bool)
  | int (i : Int64)
  | float (x : Float)
  | str (s : String)
deriving DecidableEq, Inhabited

/-- How a parameter takes part in a call: read, read and handed back, handed back only, or
absorbing all remaining arguments. -/
inductive ParamMode
  | input | ref | out | variadic
deriving DecidableEq, Repr

structure Param where
  name : String
  kind : Kind
  mode : ParamMode
  default : Option DefaultValue
deriving DecidableEq

namespace Param

def isOptional (p : Param) : Bool :=
  p.default.isSome

def takesArgument (p : Param) : Bool :=
  p.mode == .input || p.mode == .ref

/-- Whether the parameter's final value is handed back to the caller. -/
def isHandedBack (p : Param) : Bool :=
  p.mode == .ref || p.mode == .out

def text (p : Param) : String :=
  let mark := match p.mode with
    | .input => ""
    | .ref => "ref "
    | .out => "out "
    | .variadic => "..."
  mark ++ p.name ++ ": " ++ p.kind.text ++ if p.isOptional then "?" else ""

end Param

/-- The host representations that a value can be converted to and back from. -/
inductive Representation
  | value
  | bool
  | int (width : IntKind)
  /-- Sizes and positions, which are 64 bits wide. -/
  | size
  | f32
  | f64
  | bigint
  | string
  | object
  | function
  | type
  | table
  | thread
  | list (element : Representation)
  | optional (element : Representation)
deriving DecidableEq, Repr

/-- Something a body reads: an argument slot or a constant. -/
inductive Operand
  | slot (index : Nat)
  | literal (value : Literal)
deriving DecidableEq

/-- A summand: an operand, or a data field of an object argument. -/
inductive Term
  | operand (o : Operand)
  | fieldOf (slot : Nat) (field : String)
deriving DecidableEq

inductive Panic
  | fixed
  | composed (message : String)
  | other
deriving DecidableEq, Repr

/-- Whether borrowed data may be shared. -/
inductive BorrowMode
  | shared | exclusive
deriving DecidableEq, Repr

/-- What a method does when it is invoked. -/
inductive Body
  | idle
  | give (o : Operand)
  /-- All argument slots as an array. -/
  | slots
  | slotCount
  /-- A new instance of the invoked class with these data fields. -/
  | construct (fields : List (String × Operand))
  /-- A new instance whose data fields are sums. -/
  | constructSums (fields : List (String × List Term))
  | getData (field : String)
  | setData (field : String) (o : Operand)
  /-- Adds to an integer data field and returns the sum. -/
  | addData (field : String) (o : Operand)
  | fieldOf (slot : Nat) (field : String)
  /-- Reads all operands, then assigns the slots in order. -/
  | assign (sets : List (Nat × Operand)) (result : Operand)
  | convert (slot : Nat) (representation : Representation)
  | typeArgumentName (index : Nat)
  | typeArgument (index : Nat)
  | typeArgumentNames
  | targetClassName
  | target
  | invokedClass
  /-- Borrows the target's data as something that it is not. -/
  | borrowAsInteger
  | emit (event : String) (o : Operand)
  | callBack (slot : Nat) (args : List Operand)
  | hold (mode : BorrowMode) (body : Body)
  | sequence (bodies : List Body)
  | fail (message : String)
  | failArgument (message : String)
  | panic (p : Panic)
  | coroutineStatus (name : String)
  | resume (name : String)
  | environment (slot : Nat)
deriving Inhabited

mutual

def Body.decEq (a b : Body) : Decidable (a = b) :=
  if h : a.ctorIdx = b.ctorIdx then
    match a, b, h with
    | .idle, .idle, _ => isTrue rfl
    | .give x, .give y, _ => decidable_of_iff (x = y) (by simp)
    | .slots, .slots, _ => isTrue rfl
    | .slotCount, .slotCount, _ => isTrue rfl
    | .construct x, .construct y, _ => decidable_of_iff (x = y) (by simp)
    | .constructSums x, .constructSums y, _ => decidable_of_iff (x = y) (by simp)
    | .getData x, .getData y, _ => decidable_of_iff (x = y) (by simp)
    | .setData a x, .setData b y, _ => decidable_of_iff (a = b ∧ x = y) (by simp)
    | .addData a x, .addData b y, _ => decidable_of_iff (a = b ∧ x = y) (by simp)
    | .fieldOf a x, .fieldOf b y, _ => decidable_of_iff (a = b ∧ x = y) (by simp)
    | .assign a x, .assign b y, _ => decidable_of_iff (a = b ∧ x = y) (by simp)
    | .convert a x, .convert b y, _ => decidable_of_iff (a = b ∧ x = y) (by simp)
    | .typeArgumentName x, .typeArgumentName y, _ => decidable_of_iff (x = y) (by simp)
    | .typeArgument x, .typeArgument y, _ => decidable_of_iff (x = y) (by simp)
    | .typeArgumentNames, .typeArgumentNames, _ => isTrue rfl
    | .targetClassName, .targetClassName, _ => isTrue rfl
    | .target, .target, _ => isTrue rfl
    | .invokedClass, .invokedClass, _ => isTrue rfl
    | .borrowAsInteger, .borrowAsInteger, _ => isTrue rfl
    | .emit a x, .emit b y, _ => decidable_of_iff (a = b ∧ x = y) (by simp)
    | .callBack a x, .callBack b y, _ => decidable_of_iff (a = b ∧ x = y) (by simp)
    | .fail x, .fail y, _ => decidable_of_iff (x = y) (by simp)
    | .failArgument x, .failArgument y, _ => decidable_of_iff (x = y) (by simp)
    | .panic x, .panic y, _ => decidable_of_iff (x = y) (by simp)
    | .coroutineStatus x, .coroutineStatus y, _ => decidable_of_iff (x = y) (by simp)
    | .resume x, .resume y, _ => decidable_of_iff (x = y) (by simp)
    | .environment x, .environment y, _ => decidable_of_iff (x = y) (by simp)
    | .hold a x, .hold b y, _ =>
      match Body.decEq x y with
      | isTrue same => decidable_of_iff (a = b) (by simp [same])
      | isFalse other => isFalse (by simp [other])
    | .sequence xs, .sequence ys, _ =>
      match Body.decEqAll xs ys with
      | isTrue same => isTrue (by rw [same])
      | isFalse other => isFalse (by simpa using other)
  else isFalse fun same => h (congrArg Body.ctorIdx same)

def Body.decEqAll : (as bs : List Body) → Decidable (as = bs)
  | [], [] => isTrue rfl
  | a :: as, b :: bs =>
    match Body.decEq a b, Body.decEqAll as bs with
    | isTrue first, isTrue rest => isTrue (by rw [first, rest])
    | isFalse first, _ => isFalse (by simp [first])
    | _, isFalse rest => isFalse (by simp [rest])
  | [], _ :: _ | _ :: _, [] => isFalse (by simp)

end

instance : DecidableEq Body := Body.decEq

structure Method where
  name : String
  params : List Param
  returns : Option Kind
  isStatic : Bool
  hidden : Bool
  isExtension : Bool
  typeParams : Nat
  /-- The name under which an invocation is logged. -/
  label : String
  body : Body
deriving DecidableEq, Inhabited

namespace Method

def isGeneric (m : Method) : Bool :=
  0 < m.typeParams

/-- How many arguments a call cannot leave out. -/
def requiredArguments (m : Method) : Nat :=
  m.params.countP fun p => p.takesArgument && !p.isOptional

/-- The method with its type parameters replaced by the given kinds. -/
def instantiate (kinds : List Kind) (m : Method) : Method :=
  { m with
    params := m.params.map fun p => { p with kind := p.kind.substitute kinds }
    returns := m.returns.map (·.substitute kinds)
    typeParams := 0 }

def signature (m : Method) : String :=
  let generics := if m.isGeneric then
      "<" ++ ", ".intercalate ((List.range m.typeParams).map fun n => "T" ++ toString n) ++ ">"
    else ""
  let result := match m.returns with
    | some kind => " -> " ++ kind.text
    | none => ""
  m.name ++ generics ++ "(" ++ ", ".intercalate (m.params.map Param.text) ++ ")" ++ result

end Method

/-- What an accessor does once it has been logged. -/
inductive Access
  /-- Reads or stores the value. -/
  | plain
  /-- Reads the value, failing where none was stored. -/
  | strict
  | give (value : Literal)
  | fail (message : String)
  | failArgument (message : String)
  | panic (p : Panic)
deriving DecidableEq

inductive FieldSource
  | constant (value : DefaultValue)
  | accessor (get : Access)
deriving DecidableEq

structure Field where
  name : String
  kind : Kind
  isStatic : Bool
  isConstant : Bool
  hidden : Bool
  source : FieldSource
  set : Option Access
  /-- What a static field starts with. -/
  initial : Option Literal := none
deriving DecidableEq

/-- A property is computed by accessors; one with index parameters is reached through them. -/
structure Property where
  name : String
  kind : Kind
  isStatic : Bool
  hidden : Bool
  indexParams : List Param
  get : Option Access
  set : Option Access
deriving DecidableEq

def Property.isIndexed (p : Property) : Bool :=
  !p.indexParams.isEmpty

structure Event where
  name : String
  isStatic : Bool
  hidden : Bool
  /-- Set when subscribing is refused. -/
  refusal : Option Access
  /-- How the accessors borrow the data that the handlers are kept with. -/
  borrow : BorrowMode := .exclusive
deriving DecidableEq

/-- The operators a class can overload. -/
inductive Operator
  | add | sub | mul | div | neg
deriving DecidableEq, Repr

namespace Operator

/-- The name of the event that the script language raises for the operator. -/
def metamethod : Operator → String
  | add => "__add"
  | sub => "__sub"
  | mul => "__mul"
  | div => "__div"
  | neg => "__unm"

def arity : Operator → Nat
  | neg => 1
  | _ => 2

def symbol : Operator → String
  | add => "+"
  | sub => "-"
  | mul => "*"
  | div => "/"
  | neg => "unary -"

def all : List Operator :=
  [add, sub, mul, div, neg]

end Operator

/-- How instances print: a name and the text of some data fields. -/
structure Display where
  name : String
  fields : List String
deriving DecidableEq

structure Members where
  constructors : List Method := []
  methods : List Method := []
  fields : List Field := []
  properties : List Property := []
  events : List Event := []
  operators : List (Operator × Method) := []
  display : Option Display := none
deriving DecidableEq, Inhabited

namespace Field

def substitute (kinds : List Kind) (f : Field) : Field :=
  { f with kind := f.kind.substitute kinds }

end Field

namespace Property

def substitute (kinds : List Kind) (p : Property) : Property :=
  { p with
    kind := p.kind.substitute kinds
    indexParams := p.indexParams.map fun i => { i with kind := i.kind.substitute kinds } }

end Property

/-- Replaces the placeholders of a class's type parameters in a method, leaving its own type
parameters alone. -/
def Method.substitute (kinds : List Kind) (m : Method) : Method :=
  { m.instantiate kinds with typeParams := m.typeParams }

/-- The members of a closed form: every declared kind with its placeholders replaced. -/
def Members.substitute (kinds : List Kind) (ms : Members) : Members :=
  { ms with
    constructors := ms.constructors.map (·.substitute kinds)
    methods := ms.methods.map (·.substitute kinds)
    fields := ms.fields.map (·.substitute kinds)
    properties := ms.properties.map (·.substitute kinds)
    operators := ms.operators.map fun (op, m) => (op, m.substitute kinds) }

end ScriptBridge
