import ScriptBridge.Bridge.Marshal
import ScriptBridge.Text.Blank

/-!
# Coercion to a declared kind

Arguments and assigned values are turned into values of the declared kind where they denote one:
numbers and numerals into numeric kinds that can hold them exactly or approximate them, tables into
arrays. Everything else must be of the kind already.
-/

namespace ScriptBridge.Bridge

open Script

/-- An integer as a value of a numeric kind. -/
def ofInteger? (kind : Kind) (n : Int) : Option HostValue :=
  match kind with
  | .f32 => some (.float (Number.singleOfInt n))
  | .f64 => some (.float (Number.ofInt n))
  | .bigint => some (.big n)
  | .int k => if k.holds n then some (.ofInteger n) else none
  | _ => none

/-- A float as a value of a numeric kind: only integral ones are integers, and big integers drop
the fraction. -/
def ofFloat? (kind : Kind) (x : Float) : Option HostValue :=
  match kind with
  | .f32 => some (.float (Number.toSingle x))
  | .f64 => some (.float x)
  | .bigint => (Number.integerPart? x).map .big
  | .int k => (Number.integer? x).bind (ofInteger? (.int k))
  | _ => none

/-- An integer of any size as a value of a fixed width, by way of 128 bits. -/
def ofWide? (kind : Kind) (n : Int) : Option HostValue :=
  if Number.fitsInt128 n then ofInteger? kind n else none

/-- A big integer as a value of a numeric kind; single precision is reached through double. -/
def ofBig? (kind : Kind) (n : Int) : Option HostValue :=
  match kind with
  | .bigint => some (.big n)
  | .f32 | .f64 => ofFloat? kind (Number.ofInt n)
  | _ => ofWide? kind n

/-- The number that a text denotes for a numeric kind. -/
def ofNumeral? (kind : Kind) (cs : List Char) : Option HostValue :=
  match kind with
  | .f32 | .f64 => (Number.readDouble? cs).bind (ofFloat? kind)
  | .bigint => (Number.readBigInteger? cs).map .big
  | _ => (Number.readInteger? cs).bind (ofWide? kind)

def coerceNumeric? (kind : Kind) : HostValue → Option HostValue
  | .int i => ofInteger? kind i.toInt
  | .unsigned u => ofInteger? kind u.toNat
  | .float x => ofFloat? kind x
  | .big n => ofBig? kind n
  | .str s => ofNumeral? kind (Text.trim s.toList)
  | _ => none

def mismatch (kind : Kind) (v : HostValue) : BridgeError :=
  .typeMismatch kind.text v.describe

def ofOption (kind : Kind) (v : HostValue) : Option HostValue → Except BridgeError HostValue
  | some w => .ok w
  | none => .error (mismatch kind v)

/-- Arrays may nest below the limit. -/
def checkDepth (limit depth : Nat) : Except BridgeError Unit :=
  if limit ≤ depth then
    .error (.typeMismatch "array" ("table nested deeper than " ++ toString limit))
  else .ok ()

/-- Coerces a value that stands at a nesting depth; at most `limit` levels of arrays are made. -/
def coerceAt (limit : Nat) (h : Heap) : Kind → Nat → HostValue → Except BridgeError HostValue
  | .any, _, v => .ok v
  | .placeholder _, _, v => .ok v
  | .array element, depth, .array items => do
    checkDepth limit depth
    return .array (← items.mapM (coerceAt limit h element (depth + 1)))
  | .array element, depth, .table id => do
    checkDepth limit depth
    let items := pullAll h (h.sequence id)
    return .array (← items.mapM (coerceAt limit h element (depth + 1)))
  | kind, _, .nil => if kind.acceptsNil then .ok .nil else .error (mismatch kind .nil)
  | .bool, _, .bool b => .ok (.bool b)
  | .string, _, .str s => .ok (.str s)
  | .table, _, .table id => .ok (.table id)
  | .function, _, .function r => .ok (.function r)
  | .thread, _, .thread id => .ok (.thread id)
  | .type, _, .type t => .ok (.type t)
  | .object name, _, .object o =>
    if o.cls.isSubtypeOf name then .ok (.object o) else .error (mismatch (.object name) (.object o))
  | .int k, _, v => ofOption (.int k) v (coerceNumeric? (.int k) v)
  | .f32, _, v => ofOption .f32 v (coerceNumeric? .f32 v)
  | .f64, _, v => ofOption .f64 v (coerceNumeric? .f64 v)
  | .bigint, _, v => ofOption .bigint v (coerceNumeric? .bigint v)
  | kind, _, v => .error (mismatch kind v)

def coerce (limit : Nat) (h : Heap) (v : HostValue) (kind : Kind) : Except BridgeError HostValue :=
  coerceAt limit h kind 0 v

end ScriptBridge.Bridge
