import ScriptBridge.Number.Binary

/-!
# Reading numbers from text

Four grammars over lists of characters: signed decimal integers, big integers (which allow
underscores between digits), decimal floating point, and the numerals of the script language
(which add hexadecimal). A decimal is rounded correctly whatever its length.
-/

namespace ScriptBridge.Number

/-- The number written by ASCII decimal digits, if there is at least one and nothing else. -/
def readDigits? (cs : List Char) : Option Nat :=
  if cs.isEmpty || !cs.all Char.isDigit then none
  else some (cs.foldl (fun n c => 10 * n + (c.toNat - '0'.toNat)) 0)

/-- An optional sign and decimal digits. -/
def readInteger? : List Char → Option Int
  | '-' :: cs => (readDigits? cs).map fun n => -(n : Int)
  | '+' :: cs => (readDigits? cs).map Int.ofNat
  | cs => (readDigits? cs).map Int.ofNat

/-- Decimal digits in which underscores may follow the first digit. -/
def readSpacedDigits? : List Char → Option Nat
  | [] => none
  | '_' :: _ => none
  | cs => readDigits? (cs.filter (· != '_'))

/-- An optional sign and digits that underscores may separate. -/
def readBigInteger? : List Char → Option Int
  | '-' :: cs => (readSpacedDigits? cs).map fun n => -(n : Int)
  | '+' :: cs => (readSpacedDigits? cs).map Int.ofNat
  | cs => (readSpacedDigits? cs).map Int.ofNat

/-- The double nearest to `± m · 10 ^ e`. Numbers far outside the range of doubles are answered
without computing the power. -/
def ofDecimal (negative : Bool) (m : Nat) (e : Int) : Float :=
  if m = 0 then write negative 0 0
  else
    let size := (Nat.toDigits 10 m).length + e
    if 400 < size then infinity negative
    else if size < -400 then write negative 0 0
    else round double negative (m * tenTo e.toNat) (tenTo (-e).toNat)

/-- Splits off a sign. -/
def takeSign : List Char → Bool × List Char
  | '-' :: cs => (true, cs)
  | '+' :: cs => (false, cs)
  | cs => (false, cs)

/-- The exponent part: empty, or `e` and a signed integer. -/
def readExponent? : List Char → Option Int
  | [] => some 0
  | 'e' :: cs | 'E' :: cs => readInteger? cs
  | _ => none

/-- Digits with an optional point and exponent; at least one digit on one side of the point. -/
def readUnsignedDecimal? (negative : Bool) (cs : List Char) : Option Float :=
  let whole := cs.takeWhile Char.isDigit
  let rest := cs.dropWhile Char.isDigit
  let (fraction, rest) := match rest with
    | '.' :: rest => (rest.takeWhile Char.isDigit, rest.dropWhile Char.isDigit)
    | rest => ([], rest)
  match readDigits? (whole ++ fraction), readExponent? rest with
  | some m, some e => some (ofDecimal negative m (e - fraction.length))
  | _, _ => none

/-- Decimal floating point with an optional sign; infinities and NaN by name, in any case. -/
def readDouble? (cs : List Char) : Option Float :=
  let (negative, body) := takeSign cs
  match String.ofList (body.map Char.toLower) with
  | "inf" | "infinity" => some (infinity negative)
  | "nan" => some (Float.ofBits 0x7ff8000000000000)
  | _ => readUnsignedDecimal? negative body

def hexValue? (c : Char) : Option Nat :=
  if c.isDigit then some (c.toNat - '0'.toNat)
  else if 'a' ≤ c ∧ c ≤ 'f' then some (c.toNat - 'a'.toNat + 10)
  else if 'A' ≤ c ∧ c ≤ 'F' then some (c.toNat - 'A'.toNat + 10)
  else none

/-- The number written by hexadecimal digits, if there is at least one and nothing else. -/
def readHexDigits? (cs : List Char) : Option Nat :=
  if cs.isEmpty then none
  else cs.foldl (fun n c => do return 16 * (← n) + (← hexValue? c)) (some 0)

def readHexDouble? (negative : Bool) (cs : List Char) : Option Float :=
  let isHex (c : Char) := (hexValue? c).isSome
  let whole := cs.takeWhile isHex
  let rest := cs.dropWhile isHex
  let (fraction, rest) := match rest with
    | '.' :: rest => (rest.takeWhile isHex, rest.dropWhile isHex)
    | rest => ([], rest)
  let exponent? := match rest with
    | [] => some 0
    | 'p' :: cs | 'P' :: cs => readInteger? cs
    | _ => none
  match readHexDigits? (whole ++ fraction), exponent? with
  | some m, some e =>
    let e := e - 4 * (fraction.length : Int)
    let size := (m.log2 : Int) + e
    some (if 1100 < size then (if m = 0 then write negative 0 0 else infinity negative)
      else if size < -1200 then write negative 0 0
      else round double negative (m * twoTo e.toNat) (twoTo (-e).toNat))
  | _, _ => none

/-- White space as the script language's numerals know it. -/
def isSpace (c : Char) : Bool :=
  c == ' ' || ('\t' ≤ c && c ≤ '\r')

/-- A number read by the script language. -/
inductive Numeral
  | int (i : Int64)
  | float (x : Float)

/-- Numerals of the script language, with blanks around them: integers that fit 64 bits (all
hexadecimal ones wrap around), otherwise floating point. -/
def readNumeral? (cs : List Char) : Option Numeral :=
  let cs := ((cs.dropWhile isSpace).reverse.dropWhile isSpace).reverse
  let (negative, body) := takeSign cs
  match body with
  | '0' :: 'x' :: hex | '0' :: 'X' :: hex =>
    match readHexDigits? hex with
    | some n => some (.int (Int64.ofInt (if negative then -(n : Int) else n)))
    | none => (readHexDouble? negative hex).map .float
  | _ =>
    match readDigits? body with
    | some n =>
      let i : Int := if negative then -(n : Int) else n
      some (match toInt64? i with
        | some i => .int i
        | none => .float (ofInt i))
    | none => (readUnsignedDecimal? negative body).map .float

end ScriptBridge.Number
