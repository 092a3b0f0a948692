import ScriptBridge.Host.Value

/-!
# Conversion to and from host representations

A host member reads an argument in the representation it works with and hands values back.
`Representation.convert` does both: it fails where the value has no such representation, and
otherwise gives the value that the representation is handed back as.
-/

namespace ScriptBridge

/-- Why a value has no representation of some type. -/
inductive ConversionError
  | mismatch (expected got : String)
  | outOfRange (number : Int) (expected : String)
  /-- An infinity or NaN, by its text. -/
  | notIntegral (text : String)
deriving DecidableEq, Repr

def ConversionError.message : ConversionError → String
  | mismatch expected got => "Type mismatch: expected " ++ expected ++ ", got " ++ got
  | outOfRange n expected =>
    "Argument error: " ++ toString n ++ " is out of range for " ++ expected
  | notIntegral text => "Argument error: " ++ text ++ " has no integer value"

/-- Reads an integer in the range of a width; errors call it by the given name. -/
def readInteger (k : IntKind) (name : String) (v : HostValue) :
    Except ConversionError { n : Int // k.holds n = true } :=
  match v.integer? with
  | some n => if h : k.holds n = true then .ok ⟨n, h⟩ else .error (.outOfRange n name)
  | none => .error (.mismatch name v.describe)

namespace Representation

/-- What error messages call the representation. -/
def expected : Representation → String
  | value => "value"
  | bool => "bool"
  | int k => k.text
  | size => "usize"
  | f32 => "f32"
  | f64 => "f64"
  | bigint => "bigint"
  | string => "string"
  | object => "object"
  | function => "function"
  | type => "type"
  | table => "table"
  | thread => "thread"
  | list _ => "array"
  | optional r => r.expected

def convert : Representation → HostValue → Except ConversionError HostValue
  | value, v => .ok v
  | bool, .bool b => .ok (.bool b)
  | int k, v => (readInteger k k.text v).map fun n => .ofInteger n.1
  | size, v => (readInteger .u64 "usize" v).map fun n => .ofInteger n.1
  | f32, v =>
    match v.asFloat? with
    | some x => .ok (.float (Number.toSingle x))
    | none => .error (.mismatch "f32" v.describe)
  | f64, v =>
    match v.asFloat? with
    | some x => .ok (.float x)
    | none => .error (.mismatch "f64" v.describe)
  | bigint, .big n => .ok (.big n)
  | bigint, .float x =>
    match Number.integerPart? x with
    | some n => .ok (.big n)
    | none => .error (.notIntegral (Number.hostText x))
  | bigint, v =>
    match v.integer? with
    | some n => .ok (.big n)
    | none => .error (.mismatch "bigint" v.describe)
  | string, .str s => .ok (.str s)
  | object, .object o => .ok (.object o)
  | function, .function r => .ok (.function r)
  | type, .type t => .ok (.type t)
  | table, .table id => .ok (.table id)
  | thread, .thread id => .ok (.thread id)
  | list r, .array items => .array <$> items.mapM r.convert
  | optional _, .nil => .ok .nil
  | optional r, v => r.convert v
  | r, v => .error (.mismatch r.expected v.describe)

end Representation

def HostValue.toInt64 (v : HostValue) : Except ConversionError Int64 :=
  match v.integer? with
  | some n => if IntKind.i64.holds n then .ok (Int64.ofInt n) else .error (.outOfRange n "i64")
  | none => .error (.mismatch "i64" v.describe)

def HostValue.toDouble (v : HostValue) : Except ConversionError Float :=
  match v.asFloat? with
  | some x => .ok x
  | none => .error (.mismatch "f64" v.describe)

def HostValue.toObject (v : HostValue) : Except ConversionError HostObject :=
  match v with
  | .object o => .ok o
  | v => .error (.mismatch "object" v.describe)

def HostValue.toFunction (v : HostValue) : Except ConversionError Routine :=
  match v with
  | .function r => .ok r
  | v => .error (.mismatch "function" v.describe)

end ScriptBridge
