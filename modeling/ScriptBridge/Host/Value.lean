import ScriptBridge.Host.Type
import ScriptBridge.Script.Routine
import ScriptBridge.Number.Decimal

/-!
# Host values

Values as the host sees them. Tables, functions and threads stay with the script engine and are
held by reference; objects and types are held by the host. `HostValue.same` is the equality of
host values: numbers by value within a family, references by identity.
-/

namespace ScriptBridge

inductive HostValue
  | nil
  | bool (b : Bool)
  | int (i : Int64)
  | unsigned (u : UInt64)
  | float (x : Float)
  | big (n : Int)
  | str (s : String)
  | array (items : List HostValue)
  | table (id : Nat)
  | function (r : Routine)
  | thread (id : Nat)
  | object (o : HostObject)
  | type (t : HostType)
deriving Inhabited

namespace HostValue

def typeName : HostValue → String
  | nil => "nil"
  | bool _ => "boolean"
  | int _ => "integer"
  | unsigned _ => "unsigned"
  | float _ => "number"
  | big _ => "bigint"
  | str _ => "string"
  | array _ => "array"
  | table _ => "table"
  | function _ => "function"
  | thread _ => "thread"
  | object _ => "object"
  | type _ => "type"

/-- How error messages name the value: by class for objects, by kind otherwise. -/
def describe : HostValue → String
  | object o => o.cls.name
  | type t => "type " ++ t.name
  | v => v.typeName

def isNil : HostValue → Bool
  | nil => true
  | _ => false

/-- Everything but nil and false is true. -/
def isTruthy : HostValue → Bool
  | nil | bool false => false
  | _ => true

/-- Whether the value refers to something that has an identity of its own. -/
def isReference : HostValue → Bool
  | object _ | type _ | function _ | table _ => true
  | _ => false

def asBool? : HostValue → Option Bool
  | bool b => some b
  | _ => none

def integer? : HostValue → Option Int
  | int i => some i.toInt
  | unsigned u => some u.toNat
  | _ => none

/-- The integer when it fits 64 signed bits. -/
def asInt? : HostValue → Option Int64
  | int i => some i
  | unsigned u => if u.toNat < Number.twoTo 63 then some (Int64.ofInt u.toNat) else none
  | _ => none

/-- A fixed-width number as a double. -/
def asFloat? : HostValue → Option Float
  | float x => some x
  | int i => some (Number.ofInt i.toInt)
  | unsigned u => some (Number.ofInt u.toNat)
  | _ => none

def asStr? : HostValue → Option String
  | str s => some s
  | _ => none

def asObject? : HostValue → Option HostObject
  | object o => some o
  | _ => none

def asType? : HostValue → Option HostType
  | type t => some t
  | _ => none

def asFunction? : HostValue → Option Routine
  | function r => some r
  | _ => none

/-- The integer `n`, unsigned only when it does not fit 64 signed bits. -/
def ofInteger (n : Int) : HostValue :=
  if n < (Number.twoTo 63 : Int) then int (Int64.ofInt n) else unsigned (UInt64.ofNat n.toNat)

mutual

def same : HostValue → HostValue → Bool
  | nil, nil => true
  | bool a, bool b => a == b
  | int a, int b => a == b
  | unsigned a, unsigned b => a == b
  | int a, unsigned b => a.toInt == b.toNat
  | unsigned a, int b => b.toInt == a.toNat
  | float a, float b => a == b
  | big a, big b => a == b
  | str a, str b => a == b
  | array a, array b => sameAll a b
  | table a, table b => a == b
  | function a, function b => a == b
  | thread a, thread b => a == b
  | object a, object b => a.id == b.id
  | type a, type b => a.equal b
  | _, _ => false

/-- Equality of sequences, element by element. -/
def sameAll : List HostValue → List HostValue → Bool
  | [], [] => true
  | a :: as, b :: bs => a.same b && sameAll as bs
  | _, _ => false

end

/-- Text of a value; `display` prints objects, and references to the script engine print by their
kind alone. -/
def text (display : HostObject → String) : HostValue → String
  | nil => "nil"
  | bool b => if b then "true" else "false"
  | int i => toString i.toInt
  | unsigned u => toString u.toNat
  | float x => Number.hostText x
  | big n => toString n
  | str s => s
  | array items => "[" ++ ", ".intercalate (items.map (text display)) ++ "]"
  | object o => display o
  | type t => "type: " ++ t.name
  | v => v.typeName

end HostValue

def Literal.value : Literal → HostValue
  | nil => .nil
  | bool b => .bool b
  | int i => .int i
  | unsigned u => .unsigned u
  | float x => .float x
  | big n => .big n
  | str s => .str s
  | array items => .array (items.map value)

def DefaultValue.value : DefaultValue → HostValue
  | nil => .nil
  | bool b => .bool b
  | int i => .int i
  | float x => .float x
  | str s => .str s

end ScriptBridge
