import ScriptBridge.Script.Routine
import ScriptBridge.Script.Tree
import ScriptBridge.Number.Decimal
import ScriptBridge.Number.Reader
import ScriptBridge.Text.Utf8

/-!
# Script values

Values as scripts see them: strings are bytes; tables, functions, threads and userdata are
references. Here are the operators that need nothing but the values: equality, order, arithmetic
and conversion between numbers and strings.
-/

namespace ScriptBridge.Script

/-- Strings are compared byte by byte. -/
local instance (priority := 2000) bytesDecidableEq : DecidableEq ByteArray :=
  ByteArray.instDecidableEq

inductive Value
  | nil
  | bool (b : Bool)
  | int (i : Int64)
  | float (x : Float)
  | str (bytes : ByteArray)
  | table (id : Nat)
  | function (r : Routine)
  | thread (id : Nat)
  | userdata (id : Nat)
deriving DecidableEq, Inhabited

namespace Value

def ofString (s : String) : Value :=
  .str s.toUTF8

def isTruthy : Value → Bool
  | nil | bool false => false
  | _ => true

def isNil : Value → Bool
  | nil => true
  | _ => false

def typeName : Value → String
  | nil => "nil"
  | bool _ => "boolean"
  | int _ | float _ => "number"
  | str _ => "string"
  | table _ => "table"
  | function _ => "function"
  | thread _ => "thread"
  | userdata _ => "userdata"

/-- Equality without metamethods; an integer equals a float of the same value. -/
def rawEqual : Value → Value → Bool
  | float x, float y => x == y
  | int i, float x => Number.compareInt i.toInt x == some .eq
  | float x, int i => Number.compareInt i.toInt x == some .eq
  | a, b => a == b

/-- The form in which a value is a table key: a float with an integer value becomes that integer. -/
def key : Value → Value
  | float x =>
    match (Number.integer? x).bind Number.toInt64? with
    | some i => int i
    | none => float x
  | v => v

/-- Whether a table can have the key. -/
def isKey : Value → Bool
  | nil => false
  | float x => !Number.isNaN x
  | _ => true

def text? : Value → Option ByteArray
  | int i => some (toString i.toInt).toUTF8
  | float x => some (Number.scriptText x).toUTF8
  | str bytes => some bytes
  | _ => none

def number? : Value → Option Float
  | int i => some (Number.ofInt i.toInt)
  | float x => some x
  | _ => none

/-- A number, or the number that a string reads as. -/
def toNumber? : Value → Option Value
  | int i => some (int i)
  | float x => some (float x)
  | str bytes =>
    match Number.readNumeral? (Text.decode bytes).toList with
    | some (.int i) => some (int i)
    | some (.float x) => some (float x)
    | none => none
  | _ => none

/-- Arithmetic on numbers: integers wrap around, division is always floating point. -/
def arithmetic? (op : BinaryOp) : Value → Value → Option Value
  | int i, int j =>
    match op with
    | .add => some (int (i + j))
    | .sub => some (int (i - j))
    | .mul => some (int (i * j))
    | .div => some (float (Number.ofInt i.toInt / Number.ofInt j.toInt))
    | _ => none
  | a, b => do
    let x ← a.number?
    let y ← b.number?
    match op with
    | .add => some (float (x + y))
    | .sub => some (float (x - y))
    | .mul => some (float (x * y))
    | .div => some (float (x / y))
    | _ => none

def negate? : Value → Option Value
  | int i => some (int (-i))
  | float x => some (float (-x))
  | _ => none

/-- Lexicographic order of bytes. -/
def bytesLess : List UInt8 → List UInt8 → Bool
  | [], [] => false
  | [], _ :: _ => true
  | _ :: _, [] => false
  | a :: as, b :: bs => if a == b then bytesLess as bs else a < b

/-- Whether one number or string comes before another; nothing for other values. -/
def less? : Value → Value → Option Bool
  | int i, int j => some (i < j)
  | float x, float y => some (x < y)
  | int i, float x => some (Number.compareInt i.toInt x == some .lt)
  | float x, int i => some (Number.compareInt i.toInt x == some .gt)
  | str a, str b => some (bytesLess a.toList b.toList)
  | _, _ => none

/-- Whether one number or string is not above another; nothing for other values. -/
def lessEqual? : Value → Value → Option Bool
  | int i, int j => some (i ≤ j)
  | float x, float y => some (x ≤ y)
  | int i, float x =>
    some (Number.compareInt i.toInt x == some .lt || Number.compareInt i.toInt x == some .eq)
  | float x, int i =>
    some (Number.compareInt i.toInt x == some .gt || Number.compareInt i.toInt x == some .eq)
  | str a, str b => some (!bytesLess b.toList a.toList)
  | _, _ => none

end Value

def BinaryOp.event : BinaryOp → String
  | add => "__add"
  | sub => "__sub"
  | mul => "__mul"
  | div => "__div"
  | concat => "__concat"
  | eq | ne => "__eq"
  | lt | gt => "__lt"
  | le | ge => "__le"

/-- Cuts or fills a list of values to a length. -/
def adjust (n : Nat) (vs : List Value) : List Value :=
  vs.take n ++ List.replicate (n - vs.length) .nil

end ScriptBridge.Script
