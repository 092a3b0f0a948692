import ScriptBridge.Script.Source

/-!
# Reading written scripts

A script tree is written as nested lists in brackets, fields in braces, quoted text, integers and
the words for nothing, true and false, with blanks anywhere between. `Source.read?` accepts one
tree and nothing after it.
-/

namespace ScriptBridge.Script.Reader

def isGap (c : Char) : Bool :=
  c == ' ' || c == '\t' || c == '\n' || c == '\r'

def skipGaps (cs : List Char) : List Char :=
  cs.dropWhile isGap

/-- The unit that four hexadecimal digits write. -/
def unit? (cs : List Char) : Option Nat :=
  if cs.length < 4 then none else Number.readHexDigits? (cs.take 4)

def validChar? (n : Nat) : Option Char :=
  if h : n.isValidChar then some (Char.ofNatAux n h) else none

/-- The character of a numeric escape, and the text behind it. Characters beyond the first plane
take two escapes. -/
def numericEscape? (cs : List Char) : Option (Char × List Char) := do
  let high ← unit? cs
  match cs.drop 4 with
  | '\\' :: 'u' :: rest =>
    match unit? rest with
    | some low =>
      if 0xd800 ≤ high ∧ high < 0xdc00 ∧ 0xdc00 ≤ low ∧ low < 0xe000 then
        return (← validChar? (0x10000 + (high - 0xd800) * 0x400 + (low - 0xdc00)), rest.drop 4)
      else return (← validChar? high, cs.drop 4)
    | none => none
  | rest => return (← validChar? high, rest)

/-- The character that a letter stands for behind a backslash. -/
def escape? : Char → Option Char
  | '"' => some '"'
  | '\\' => some '\\'
  | '/' => some '/'
  | 'b' => some '\x08'
  | 'f' => some '\x0c'
  | 'n' => some '\n'
  | 'r' => some '\r'
  | 't' => some '\t'
  | _ => none

/-- Text up to the closing quote, behind the opening one; the number bounds its length. -/
def quoted? : Nat → List Char → Option (List Char × List Char)
  | 0, _ => none
  | _, [] => none
  | _, '"' :: rest => some ([], rest)
  | n + 1, '\\' :: 'u' :: rest => do
    let (c, rest) ← numericEscape? rest
    let (text, rest) ← quoted? n rest
    return (c :: text, rest)
  | n + 1, '\\' :: e :: rest => do
    let c ← escape? e
    let (text, rest) ← quoted? n rest
    return (c :: text, rest)
  | n + 1, c :: rest => do
    if c < ' ' then none
    let (text, rest) ← quoted? n rest
    return (c :: text, rest)

/-- An integer, and the text behind it. -/
def integer? (cs : List Char) : Option (Int × List Char) :=
  let (sign, cs) := match cs with
    | '-' :: rest => ((-1 : Int), rest)
    | cs => (1, cs)
  (Number.readDigits? (cs.takeWhile Char.isDigit)).map fun n =>
    (sign * n, cs.dropWhile Char.isDigit)

/-- Drops a word that the text has to start with. -/
def word? (word : String) (cs : List Char) : Option (List Char) :=
  if word.toList.isPrefixOf cs then some (cs.drop word.toList.length) else none

mutual

/-- One tree, and the text behind it; the number bounds how many trees begin inside it. -/
def tree? : Nat → List Char → Option (Source × List Char)
  | 0, _ => none
  | n + 1, cs =>
    match skipGaps cs with
    | '[' :: rest =>
      match skipGaps rest with
      | ']' :: rest => some (.list [], rest)
      | rest => (items? n rest).map fun (items, rest) => (.list items, rest)
    | '{' :: rest =>
      match skipGaps rest with
      | '}' :: rest => some (.fields [], rest)
      | rest => (entries? n rest).map fun (entries, rest) => (.fields entries, rest)
    | '"' :: rest =>
      (quoted? (rest.length + 1) rest).map fun (text, rest) => (.text (String.ofList text), rest)
    | 'n' :: rest => (word? "ull" rest).map fun rest => (.null, rest)
    | 't' :: rest => (word? "rue" rest).map fun rest => (.bool true, rest)
    | 'f' :: rest => (word? "alse" rest).map fun rest => (.bool false, rest)
    | rest => (integer? rest).map fun (i, rest) => (.number i, rest)

/-- Trees between commas up to the closing bracket. -/
def items? : Nat → List Char → Option (List Source × List Char)
  | 0, _ => none
  | n + 1, cs => do
    let (item, rest) ← tree? n cs
    match skipGaps rest with
    | ']' :: rest => return ([item], rest)
    | ',' :: rest =>
      let (items, rest) ← items? n rest
      return (item :: items, rest)
    | _ => none

/-- Named trees between commas up to the closing brace. -/
def entries? : Nat → List Char → Option (List (String × Source) × List Char)
  | 0, _ => none
  | n + 1, cs => do
    let (name, rest) ← match skipGaps cs with
      | '"' :: rest => quoted? (rest.length + 1) rest
      | _ => none
    let (value, rest) ← match skipGaps rest with
      | ':' :: rest => tree? n rest
      | _ => none
    let entry := (String.ofList name, value)
    match skipGaps rest with
    | '}' :: rest => return ([entry], rest)
    | ',' :: rest =>
      let (entries, rest) ← entries? n rest
      return (entry :: entries, rest)
    | _ => none

end

end ScriptBridge.Script.Reader

namespace ScriptBridge.Script

/-- The tree that a text is. -/
def Source.read? (text : String) : Option Source := do
  let cs := text.toList
  let (tree, rest) ← Reader.tree? (cs.length + 1) cs
  if (Reader.skipGaps rest).isEmpty then return tree else none

end ScriptBridge.Script
