import ScriptBridge.Number.Binary

/-!
# Decimal text of doubles

`shortest` finds the fewest significant digits that read back as the same double and, among
those, the ones nearest to it. `significant` rounds to a fixed number of digits. Both give
`0.d₁d₂… · 10 ^ point`, which `positional` and `general` lay out as text.
-/

namespace ScriptBridge.Number

/-- A positive decimal number `0.d₁d₂… · 10 ^ point`. -/
structure Decimal where
  digits : List Char
  point : Int
deriving DecidableEq, Repr

def dropTrailingZeros (digits : List Char) : List Char :=
  (digits.reverse.dropWhile (· == '0')).reverse

/-- The decimal number `n · 10 ^ power`. -/
def Decimal.ofGrid (n : Nat) (power : Int) : Decimal :=
  let digits := Nat.toDigits 10 n
  ⟨dropTrailingZeros digits, digits.length + power⟩

/-- The smallest `k` with `n / d < 10 ^ k`, for positive `n` and `d`. -/
def decimalPoint (n d : Nat) : Int :=
  let guess : Int := floorLog2 n d * 1233 / 4096
  let below (k : Int) : Bool :=
    if 0 ≤ k then n < d * tenTo k.toNat else n * tenTo (-k).toNat < d
  if below guess then guess else if below (guess + 1) then guess + 1 else guess + 2

/-- `n · 10 ^ power`, for powers that are not negative; other powers scale the other side. -/
def scale (n : Nat) (power : Int) : Nat :=
  n * tenTo power.toNat

/-- Tries the grids `10 ^ (point - digits)` from coarse to fine until one has a point between
`low` and `high`, all three numbers over the denominator `d`. -/
def shortestFrom (low value high d : Nat) (inclusive : Bool) (point : Int) :
    (tries digits : Nat) → Decimal
  | 0, digits =>
    let power : Int := digits - point
    .ofGrid (roundDiv (scale value power) (scale d (-power))) (-power)
  | tries + 1, digits =>
    let power : Int := digits - point
    let unit := scale d (-power)
    let target := scale value power
    let inside (c : Nat) : Bool :=
      if inclusive then scale low power ≤ c * unit && c * unit ≤ scale high power
      else scale low power < c * unit && c * unit < scale high power
    let below := target / unit
    let above := below + 1
    match inside below, inside above with
    | true, true => .ofGrid (if unit ≤ 2 * (target % unit) then above else below) (-power)
    | true, false => .ofGrid below (-power)
    | false, true => .ofGrid above (-power)
    | false, false => shortestFrom low value high d inclusive point tries (digits + 1)

/-- The fewest digits that read back as `m · 2 ^ q`, nearest to it among those. The numbers that
read back lie between the midpoints to both neighbours, the midpoints included when `m` is even;
below a power of two the lower neighbour is nearer. -/
def shortest (m : Nat) (q : Int) : Decimal :=
  let up := twoTo (q - 2).toNat
  let d := twoTo (2 - q).toNat
  let value := 4 * m * up
  let low := (4 * m - (if m = twoTo 52 ∧ -1074 < q then 1 else 2)) * up
  let high := (4 * m + 2) * up
  shortestFrom low value high d (m % 2 == 0) (decimalPoint value d) 17 1

/-- `n / d` to `count` significant digits, a half going to the even neighbour. -/
def significant (count n d : Nat) : Decimal :=
  let power : Int := count - decimalPoint n d
  .ofGrid (roundDiv (scale n power) (scale d (-power))) (-power)

def zeros (n : Nat) : List Char :=
  List.replicate n '0'

/-- Positional layout, however many zeros that takes. -/
def Decimal.positional (x : Decimal) : List Char :=
  if x.point ≤ 0 then '0' :: '.' :: zeros (-x.point).toNat ++ x.digits
  else
    let whole := x.point.toNat
    if x.digits.length ≤ whole then x.digits ++ zeros (whole - x.digits.length)
    else x.digits.take whole ++ '.' :: x.digits.drop whole

/-- One digit, a point and the rest, and a signed exponent of at least two digits. -/
def Decimal.exponential (x : Decimal) : List Char :=
  let exponent := x.point - 1
  let power := Nat.toDigits 10 exponent.natAbs
  let power := zeros (2 - power.length) ++ power
  let tail := x.digits.drop 1
  x.digits.take 1 ++ (if tail.isEmpty then [] else '.' :: tail)
    ++ 'e' :: (if exponent < 0 then '-' else '+') :: power

/-- Positional from `1e-4` up to `count` digits before the point, exponential otherwise. -/
def Decimal.general (count : Nat) (x : Decimal) : List Char :=
  if x.point - 1 < -4 ∨ (count : Int) ≤ x.point - 1 then x.exponential else x.positional

/-- Text of a double on the host side: shortest digits, never an exponent. -/
def hostText (x : Float) : String :=
  match read x with
  | .notANumber => "NaN"
  | .infinite negative => if negative then "-inf" else "inf"
  | .finite negative m q =>
    let sign := if negative then ['-'] else []
    String.ofList (sign ++ if m = 0 then ['0'] else (shortest m q).positional)

/-- Text of a double on the script side: fourteen significant digits, and `.0` after what would
otherwise read as an integer. -/
def scriptText (x : Float) : String :=
  match read x with
  | .notANumber => "nan"
  | .infinite negative => if negative then "-inf" else "inf"
  | .finite negative m q =>
    let sign := if negative then ['-'] else []
    let body :=
      if m = 0 then ['0']
      else (significant 14 (m * twoTo q.toNat) (twoTo (-q).toNat)).general 14
    let mark := if body.all Char.isDigit then ['.', '0'] else []
    String.ofList (sign ++ body ++ mark)

end ScriptBridge.Number
