import ScriptBridge.Error

/-!
# Reported messages

What an observer is shown of an error. Texts thrown by scripts (marked by `E:`) and texts of the
bridge are kept; wording of the script engine is replaced by one fixed text.
-/

namespace ScriptBridge.Report

def engineText : List Char :=
  "lua error".toList

def firstLine (cs : List Char) : List Char :=
  cs.takeWhile (· != '\n')

/-- The beginnings of the texts that the bridge words itself. -/
def bridgeOpenings : List String :=
  ["Insufficient stack space: ", "Unknown member '", "No overload of ",
    "Invalid type argument for ", "Operator ", "Type mismatch: ", "Unsupported value kind: ",
    "Member '", "Cannot resume ", "IO error: ", "Configuration error: "]

/-- The beginnings of texts that the script engine words. -/
def engineOpenings : List String :=
  ["syntax error: ", "bad argument", "error converting Lua ", "userdata is not expected type"]

def opens (cs : List Char) (opening : String) : Bool :=
  opening.toList.isPrefixOf cs

def dropOpening? (opening : String) (cs : List Char) : Option (List Char) :=
  if opens cs opening then some (cs.drop opening.toList.length) else none

/-- Splits behind the first colon and blank. -/
def splitContext : List Char → List Char × List Char
  | ':' :: ' ' :: rest => ([':', ' '], rest)
  | c :: rest => let (context, text) := splitContext rest; (c :: context, text)
  | [] => ([], [])

mutual

/-- The shown form of a script's error text; the number bounds the nesting. -/
def cleanWithin : Nat → List Char → List Char
  | 0, _ => engineText
  | n + 1, cs =>
    let line := firstLine cs
    if opens line "E:" || bridgeOpenings.any (opens line) then line
    else match dropOpening? "Error invoking " line with
      | some rest =>
        let (context, text) := splitContext rest
        "Error invoking ".toList ++ context ++ hostWithin n text
      | none => engineText

/-- The shown form of a host member's message. -/
def hostWithin : Nat → List Char → List Char
  | 0, cs => firstLine cs
  | n + 1, cs =>
    let line := firstLine cs
    match dropOpening? "runtime error: " line with
    | some rest => cleanWithin n rest
    | none =>
      if engineOpenings.any (opens line) then engineText
      else if opens line "Error invoking " then cleanWithin n line
      else line

end

/-- The shown form of a script's error text. -/
def clean (text : String) : String :=
  String.ofList (cleanWithin (text.length + 1) text.toList)

/-- The shown form of a host member's message. -/
def hostMessage (text : String) : String :=
  String.ofList (hostWithin (text.length + 1) text.toList)

/-- What kind of script error it is. -/
inductive Origin
  | malformedChunk | runtime | conversion | other
deriving DecidableEq, Repr

def origin (e : ScriptError) : Origin :=
  match e.innermost with
  | .malformedChunk => .malformedChunk
  | .runtime _ => .runtime
  | .conversion => .conversion
  | _ => .other

def scriptMessage (e : ScriptError) : String :=
  match e.innermost with
  | .runtime text => clean text
  | _ => String.ofList engineText

/-- The shown message of an error. Of configuration errors only the texts of the bridge and of
scripts are shown. -/
def message (e : BridgeError) : String :=
  match e.root with
  | .hostInvocation context text _ => "Error invoking " ++ context ++ ": " ++ hostMessage text
  | .script cause => scriptMessage cause
  | .io _ => ""
  | .config text =>
    if text == "max_transfer_values must be at least 1" || opens text.toList "E:" then
      "Configuration error: " ++ text
    else ""
  | found => found.text

end ScriptBridge.Report
