import ScriptBridge.Number.Power

/-!
# Binary floating point, exactly

A double is read as `± significand · 2 ^ exponent`, and a ratio of natural numbers is rounded to
the nearest number of a binary format, ties going to the even significand. Everything is exact
integer arithmetic, so the conversions between integers, single and double precision can be
reasoned about.
-/

namespace ScriptBridge.Number

/-- What the bits of a double say. -/
inductive Reading
  | notANumber
  | infinite (negative : Bool)
  | finite (negative : Bool) (significand : Nat) (exponent : Int)
deriving DecidableEq, Repr

def read (x : Float) : Reading :=
  let bits : Nat := x.toBits.toNat
  let negative := decide (bits / twoTo 63 = 1)
  let field : Nat := bits / twoTo 52 % twoTo 11
  let fraction : Nat := bits % twoTo 52
  if field = twoTo 11 - 1 then
    if fraction = 0 then .infinite negative else .notANumber
  else if field = 0 then .finite negative fraction (-1074)
  else .finite negative (fraction + twoTo 52) ((field : Int) - 1075)

def isNaN (x : Float) : Bool :=
  match read x with
  | .notANumber => true
  | _ => false

def isFinite (x : Float) : Bool :=
  match read x with
  | .finite .. => true
  | _ => false

/-- A binary format: how many significant bits, the exponent of its smallest unit, and the first
power of two that overflows. -/
structure Format where
  precision : Nat
  unitExponent : Int
  overflowExponent : Int

def double : Format := ⟨53, -1074, 1024⟩

def single : Format := ⟨24, -149, 128⟩

def infinity (negative : Bool) : Float :=
  Float.ofBits (UInt64.ofNat ((if negative then twoTo 63 else 0) + (twoTo 11 - 1) * twoTo 52))

/-- The double `± m · 2 ^ q`, for `m < 2 ^ 53` and `-1074 ≤ q` within range. -/
def write (negative : Bool) (m : Nat) (q : Int) : Float :=
  let sign := if negative then twoTo 63 else 0
  if m = 0 then Float.ofBits (UInt64.ofNat sign)
  else
    let top := m.log2
    let exponent := (top : Int) + q
    if -1022 ≤ exponent then
      let fraction := m * twoTo (52 - top) - twoTo 52
      Float.ofBits (UInt64.ofNat (sign + (exponent + 1023).toNat * twoTo 52 + fraction))
    else
      Float.ofBits (UInt64.ofNat (sign + m * twoTo (q + 1074).toNat))

/-- `n / d` to the nearest integer, a half going to the even neighbour. -/
def roundDiv (n d : Nat) : Nat :=
  let quotient := n / d
  let twice := 2 * (n % d)
  if twice < d then quotient
  else if d < twice then quotient + 1
  else quotient + quotient % 2

/-- The exponent of the highest power of two not above `n / d`, for positive `n` and `d`. -/
def floorLog2 (n d : Nat) : Int :=
  let guess : Int := (n.log2 : Int) - d.log2
  let reached := if 0 ≤ guess then d * twoTo guess.toNat ≤ n else d ≤ n * twoTo (-guess).toNat
  if reached then guess else guess - 1

/-- The number of the format nearest to `± n / d`; infinite when it overflows. -/
def round (format : Format) (negative : Bool) (n d : Nat) : Float :=
  if n = 0 then write negative 0 0
  else
    let q := max format.unitExponent (floorLog2 n d - (format.precision - 1))
    let m := if 0 ≤ q then roundDiv n (d * twoTo q.toNat) else roundDiv (n * twoTo (-q).toNat) d
    if format.overflowExponent ≤ (m.log2 : Int) + q then infinity negative
    else if m = twoTo format.precision then write negative (twoTo (format.precision - 1)) (q + 1)
    else write negative m q

def ofInt (i : Int) : Float :=
  round double (i < 0) i.natAbs 1

/-- The single precision number nearest to an integer, as a double. -/
def singleOfInt (i : Int) : Float :=
  round single (i < 0) i.natAbs 1

/-- The single precision number nearest to a double, as a double. -/
def toSingle (x : Float) : Float :=
  match read x with
  | .finite negative m q =>
    if 0 ≤ q then round single negative (m * twoTo q.toNat) 1
    else round single negative m (twoTo (-q).toNat)
  | _ => x

def signed (negative : Bool) (n : Nat) : Int :=
  if negative then -n else n

/-- The integer part, dropping the fraction; nothing for the infinities and NaN. -/
def integerPart? (x : Float) : Option Int :=
  match read x with
  | .finite negative m q =>
    some (signed negative (if 0 ≤ q then m * twoTo q.toNat else m / twoTo (-q).toNat))
  | _ => none

/-- The integer a double equals, if it is one. -/
def integer? (x : Float) : Option Int :=
  match read x with
  | .finite negative m q =>
    if 0 ≤ q then some (signed negative (m * twoTo q.toNat))
    else if m % twoTo (-q).toNat = 0 then some (signed negative (m / twoTo (-q).toNat))
    else none
  | _ => none

/-- Order of an integer against a double by their exact values; NaN is unordered. -/
def compareInt (i : Int) (x : Float) : Option Ordering :=
  match read x with
  | .notANumber => none
  | .infinite negative => some (if negative then .gt else .lt)
  | .finite negative m q =>
    some (if 0 ≤ q then compare i (signed negative (m * twoTo q.toNat))
      else compare (i * twoTo (-q).toNat) (signed negative m))

end ScriptBridge.Number
