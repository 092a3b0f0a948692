/-!
# Decoding UTF-8 with replacement

Script strings are bytes; text is read from them by replacing every maximal invalid part with
U+FFFD. A valid text decodes to itself.
-/

namespace ScriptBridge.Text

/-- An unfinished character: bytes still expected, the bits so far, and the range that the next
byte must lie in. -/
structure Pending where
  left : Nat
  bits : Nat
  low : Nat
  high : Nat

def replacement : Char := Char.ofNat 0xfffd

/-- What a byte does at the start of a character: a whole character, the start of a longer one,
or nothing valid. -/
inductive Lead
  | whole (c : Char)
  | opens (p : Pending)
  | invalid

/-- The first byte fixes the length, and for some lengths narrows the second byte, which excludes
overlong forms, surrogates and numbers above U+10FFFF. -/
def lead (b : Nat) : Lead :=
  if b < 0x80 then .whole (Char.ofNat b)
  else if 0xc2 ≤ b && b ≤ 0xdf then .opens ⟨1, b % 0x20, 0x80, 0xbf⟩
  else if b == 0xe0 then .opens ⟨2, 0, 0xa0, 0xbf⟩
  else if b == 0xed then .opens ⟨2, 0xd, 0x80, 0x9f⟩
  else if 0xe1 ≤ b && b ≤ 0xef then .opens ⟨2, b % 0x10, 0x80, 0xbf⟩
  else if b == 0xf0 then .opens ⟨3, 0, 0x90, 0xbf⟩
  else if 0xf1 ≤ b && b ≤ 0xf3 then .opens ⟨3, b % 8, 0x80, 0xbf⟩
  else if b == 0xf4 then .opens ⟨3, 4, 0x80, 0x8f⟩
  else .invalid

def decodeFrom : Option Pending → List UInt8 → List Char
  | none, [] => []
  | some _, [] => [replacement]
  | state, byte :: rest =>
    let b := byte.toNat
    let fresh (before : List Char) : List Char :=
      match lead b with
      | .whole c => before ++ c :: decodeFrom none rest
      | .opens p => before ++ decodeFrom (some p) rest
      | .invalid => before ++ replacement :: decodeFrom none rest
    match state with
    | none => fresh []
    | some p =>
      if p.low ≤ b && b ≤ p.high then
        let bits := p.bits * 0x40 + b % 0x40
        if p.left == 1 then Char.ofNat bits :: decodeFrom none rest
        else decodeFrom (some ⟨p.left - 1, bits, 0x80, 0xbf⟩) rest
      else fresh [replacement]

/-- The text of some bytes, invalid parts replaced. -/
def decode (bytes : ByteArray) : String :=
  match String.fromUTF8? bytes with
  | some text => text
  | none => String.ofList (decodeFrom none bytes.toList)

end ScriptBridge.Text
