import ScriptBridge.Number.Power

/-!
# Declared kinds

The kind of a parameter, field or property says which values it takes. Fixed-width integer kinds
come with their range; a placeholder stands for the n-th type argument until `substitute`
replaces it.
-/

namespace ScriptBridge

inductive IntKind
  | i8 | i16 | i32 | i64 | u8 | u16 | u32 | u64
deriving DecidableEq, Repr

namespace IntKind

def signed : IntKind → Bool
  | i8 | i16 | i32 | i64 => true
  | u8 | u16 | u32 | u64 => false

def bits : IntKind → Nat
  | i8 | u8 => 8
  | i16 | u16 => 16
  | i32 | u32 => 32
  | i64 | u64 => 64

def low (k : IntKind) : Int :=
  if k.signed then -(Number.twoTo (k.bits - 1) : Int) else 0

def high (k : IntKind) : Int :=
  (Number.twoTo (if k.signed then k.bits - 1 else k.bits) : Int) - 1

def holds (k : IntKind) (n : Int) : Bool :=
  k.low ≤ n && n ≤ k.high

def text : IntKind → String
  | i8 => "i8" | i16 => "i16" | i32 => "i32" | i64 => "i64"
  | u8 => "u8" | u16 => "u16" | u32 => "u32" | u64 => "u64"

end IntKind

/-- What a parameter, field or property is declared to hold. -/
inductive Kind
  | any
  | bool
  | int (width : IntKind)
  | f32
  | f64
  | bigint
  | string
  | array (element : Kind)
  | table
  | function
  | thread
  | type
  /-- An instance of the named class or of one derived from it. -/
  | object (className : String)
  /-- The n-th type argument. -/
  | placeholder (index : Nat)
deriving DecidableEq, Repr, Inhabited

namespace Kind

def isInteger : Kind → Bool
  | int _ => true
  | _ => false

def isFloat : Kind → Bool
  | f32 | f64 => true
  | _ => false

def isNumeric (k : Kind) : Bool :=
  k.isInteger || k.isFloat || k == bigint

/-- Whether nil is a value of the kind. -/
def acceptsNil : Kind → Bool
  | any | object _ | type | table | function | thread => true
  | _ => false

/-- The inclusive range of a fixed-width integer kind. -/
def range? : Kind → Option (Int × Int)
  | int k => some (k.low, k.high)
  | _ => none

/-- Replaces the placeholders that have an argument, at any depth of arrays. -/
def substitute (args : List Kind) : Kind → Kind
  | placeholder n => args.getD n (placeholder n)
  | array element => array (element.substitute args)
  | k => k

/-- Whether a placeholder is left. -/
def isOpen : Kind → Bool
  | placeholder _ => true
  | array element => element.isOpen
  | _ => false

def text : Kind → String
  | any => "any"
  | bool => "bool"
  | int k => k.text
  | f32 => "f32"
  | f64 => "f64"
  | bigint => "bigint"
  | string => "string"
  | array element => element.text ++ "[]"
  | table => "table"
  | function => "function"
  | thread => "thread"
  | type => "type"
  | object name => name
  | placeholder n => "T" ++ toString n

end Kind

end ScriptBridge
