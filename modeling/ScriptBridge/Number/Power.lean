/-!
# Powers

The powers of two and ten that number formats are made of, and the ranges of 64-bit and 128-bit
integers.
-/

namespace ScriptBridge.Number

@[inline]
def twoTo (n : Nat) : Nat :=
  Nat.pow 2 n

@[inline]
def tenTo (n : Nat) : Nat :=
  Nat.pow 10 n

/-- Whether an integer is one of the signed integers of 64 bits. -/
def fitsInt64 (n : Int) : Bool :=
  -(twoTo 63 : Int) ≤ n && n < (twoTo 63 : Int)

def toInt64? (n : Int) : Option Int64 :=
  if fitsInt64 n then some (Int64.ofInt n) else none

/-- Whether an integer is one of the signed integers of 128 bits. -/
def fitsInt128 (n : Int) : Bool :=
  -(twoTo 127 : Int) ≤ n && n < (twoTo 127 : Int)

end ScriptBridge.Number
