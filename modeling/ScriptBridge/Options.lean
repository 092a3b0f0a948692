import ScriptBridge.Error
import ScriptBridge.Number.Reader

/-!
# Options

The options of a session, and their reader. An options text has one setting a line, `name = value`,
with blank lines and comments between; names may be quoted, values are integers and booleans.
`Options.read?` accepts every setting at most once and leaves the others at their defaults.
-/

namespace ScriptBridge

structure Options where
  /-- The most values moved across the boundary at once. -/
  maxTransferValues : Nat := 8000
  /-- How deep tables may nest where an array is expected. -/
  maxCoercionDepth : Nat := 32
  /-- Whether a first argument that is the target itself is dropped. -/
  stripSelfArgument : Bool := true
  /-- Whether scripts have the libraries or only the base functions. -/
  openStdLibs : Bool := true
deriving DecidableEq, Repr, Inhabited

namespace Options

inductive Setting
  | number (n : Int)
  | flag (b : Bool)
deriving DecidableEq, Repr

/-- Lines end with a line feed, or a carriage return and a line feed. -/
def splitLines : List Char → List (List Char)
  | [] => [[]]
  | '\r' :: '\n' :: rest => [] :: splitLines rest
  | '\n' :: rest => [] :: splitLines rest
  | c :: rest =>
    match splitLines rest with
    | line :: lines => (c :: line) :: lines
    | [] => [[c]]

def isGap (c : Char) : Bool :=
  c == ' ' || c == '\t'

def isNameChar (c : Char) : Bool :=
  c.isAlphanum || c == '_' || c == '-'

/-- Characters that a comment or a quoted name may hold. -/
def isPrintable (c : Char) : Bool :=
  c == '\t' || (' ' ≤ c && c.toNat != 0x7f)

/-- The character of a numeric escape; surrogates and numbers out of range have none. -/
def readCodePoint? (digits : List Char) : Option Char := do
  let n ← Number.readHexDigits? digits
  if h : n.isValidChar then some (Char.ofNatAux n h) else none

/-- A name in double quotes, behind the opening quote; the fuel bounds its length. -/
def readQuoted? : Nat → List Char → Option (List Char × List Char)
  | 0, _ => none
  | _, [] => none
  | _, '"' :: rest => some ([], rest)
  | n + 1, '\\' :: 'u' :: rest => do
    if rest.length < 4 then none
    let c ← readCodePoint? (rest.take 4)
    let (name, rest) ← readQuoted? n (rest.drop 4)
    return (c :: name, rest)
  | n + 1, '\\' :: 'U' :: rest => do
    if rest.length < 8 then none
    let c ← readCodePoint? (rest.take 8)
    let (name, rest) ← readQuoted? n (rest.drop 8)
    return (c :: name, rest)
  | n + 1, '\\' :: e :: rest => do
    let c ← match e with
      | 'b' => some '\x08'
      | 't' => some '\t'
      | 'n' => some '\n'
      | 'f' => some '\x0c'
      | 'r' => some '\r'
      | '"' => some '"'
      | '\\' => some '\\'
      | _ => none
    let (name, rest) ← readQuoted? n rest
    return (c :: name, rest)
  | n + 1, c :: rest => do
    if !isPrintable c then none
    let (name, rest) ← readQuoted? n rest
    return (c :: name, rest)

def readName? : List Char → Option (List Char × List Char)
  | '"' :: rest => readQuoted? (rest.length + 1) rest
  | '\'' :: rest =>
    let name := rest.takeWhile (· != '\'')
    match rest.dropWhile (· != '\'') with
    | _ :: rest => if name.all isPrintable then some (name, rest) else none
    | [] => none
  | cs =>
    let name := cs.takeWhile isNameChar
    if name.isEmpty then none else some (name, cs.dropWhile isNameChar)

/-- Underscores stand only between two digits. -/
def removeUnderscores? (isDigit : Char → Bool) : List Char → Option (List Char)
  | [] => none
  | [c] => if isDigit c then some [c] else none
  | c :: '_' :: rest => if isDigit c then (removeUnderscores? isDigit rest).map (c :: ·) else none
  | c :: rest => if isDigit c then (removeUnderscores? isDigit rest).map (c :: ·) else none

/-- Digits in a base, with underscores between them. -/
def readBase? (base : Nat) (cs : List Char) : Option Nat := do
  let isDigit (c : Char) := match Number.hexValue? c with
    | some d => d < base
    | none => false
  let digits ← removeUnderscores? isDigit cs
  return digits.foldl (fun n c => base * n + (Number.hexValue? c).getD 0) 0

def readDecimal? (cs : List Char) : Option Nat :=
  match cs with
  | ['0'] => some 0
  | '0' :: _ => none
  | _ => readBase? 10 cs

/-- An integer: decimal with an optional sign and no leading zero, or with a base mark. -/
def readNumber? : List Char → Option Int
  | '0' :: 'x' :: cs => (readBase? 16 cs).map Int.ofNat
  | '0' :: 'o' :: cs => (readBase? 8 cs).map Int.ofNat
  | '0' :: 'b' :: cs => (readBase? 2 cs).map Int.ofNat
  | '-' :: cs => (readDecimal? cs).map fun n => -(n : Int)
  | '+' :: cs => (readDecimal? cs).map Int.ofNat
  | cs => (readDecimal? cs).map Int.ofNat

def readSetting? (cs : List Char) : Option Setting :=
  if cs == "true".toList then some (.flag true)
  else if cs == "false".toList then some (.flag false)
  else do
    let n ← readNumber? cs
    if Number.fitsInt64 n then some (.number n) else none

/-- Whether nothing is left of a line but blanks and a comment. -/
def isRemainder (cs : List Char) : Bool :=
  match cs.dropWhile isGap with
  | [] => true
  | '#' :: comment => comment.all isPrintable
  | _ => false

def readLine? (line : List Char) : Option (Option (String × Setting)) :=
  if isRemainder line then some none
  else do
    let (name, rest) ← readName? (line.dropWhile isGap)
    let value ← match rest.dropWhile isGap with
      | '=' :: value => some (value.dropWhile isGap)
      | _ => none
    let isValueChar (c : Char) := !isGap c && c != '#'
    let setting ← readSetting? (value.takeWhile isValueChar)
    if isRemainder (value.dropWhile isValueChar) then
      return some (String.ofList name, setting)
    else none

/-- Applies one setting; nothing when the name is unknown or the value does not fit it. -/
def withSetting? (options : Options) : String × Setting → Option Options
  | ("max_transfer_values", .number n) =>
    if 0 ≤ n then some { options with maxTransferValues := n.toNat } else none
  | ("max_coercion_depth", .number n) =>
    if 0 ≤ n then some { options with maxCoercionDepth := n.toNat } else none
  | ("strip_self_argument", .flag b) => some { options with stripSelfArgument := b }
  | ("open_std_libs", .flag b) => some { options with openStdLibs := b }
  | _ => none

/-- The options that a text sets, before they are validated. -/
def read? (text : String) : Option Options := do
  let cs := match text.toList with
    | '\uFEFF' :: rest => rest
    | cs => cs
  let settings := (← (splitLines cs).mapM readLine?).filterMap id
  if !(settings.map (·.1)).Nodup then none
  settings.foldlM withSetting? {}

/-- Reads options; at least one value must be movable. -/
def parse (text : String) : Except BridgeError Options :=
  match read? text with
  | none => .error (.config "invalid options")
  | some options =>
    if options.maxTransferValues == 0 then
      .error (.config "max_transfer_values must be at least 1")
    else .ok options

end Options

end ScriptBridge
