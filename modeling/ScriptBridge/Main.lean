import ScriptBridge.Command
import ScriptBridge.Script.Reader

/-!
# Command line

`eval CODE`, `run FILE ARGS…` and `types [NAMESPACE]`, with `--config FILE` anywhere before the
arguments of a script.
-/

namespace ScriptBridge.Command

open Script

inductive Request
  | eval (code : String)
  | run (file : String) (args : List String)
  | types (ns : Option String)

/-- Splits off the options file; the words behind a script file belong to the script. -/
def takeConfig : List String → Option String × List String
  | "-c" :: file :: rest | "--config" :: file :: rest => (some file, (takeConfig rest).2)
  | "run" :: rest =>
    match rest with
    | "-c" :: config :: rest | "--config" :: config :: rest => (some config, "run" :: rest)
    | rest => (none, "run" :: rest)
  | word :: rest =>
    let (config, words) := takeConfig rest
    (config, word :: words)
  | [] => (none, [])

def request? : List String → Option Request
  | ["eval", code] => some (.eval code)
  | "run" :: file :: args => some (.run file args)
  | ["types"] => some (.types none)
  | ["types", ns] => some (.types (some ns))
  | _ => none

/-- The chunk written in a file. -/
def chunkOfText (text : String) : Chunk :=
  match Source.read? text with
  | some source => source.chunk
  | none => .malformed

/-- Splits `NAME=value` entries. -/
def environmentEntry (entry : List Char) : String × String :=
  (String.ofList (entry.takeWhile (· != '=')), String.ofList ((entry.dropWhile (· != '=')).drop 1))

def environmentOf (text : String) : List (String × String) :=
  ((text.toList.splitOn '\x00').filter (!·.isEmpty)).map environmentEntry

end ScriptBridge.Command

open ScriptBridge ScriptBridge.Command ScriptBridge.Script in
def main (words : List String) : IO UInt32 := do
  let (config, words) := takeConfig words
  let environment := Text.decode (← IO.FS.readBinFile "/proc/self/environ")
  let options ← config.mapM fun file => IO.FS.readFile file
  let setting : Setting := { options, environment := environmentOf environment }
  let fail (e : CommandError) : IO UInt32 := do
    IO.eprintln e.message
    return 1
  match request? words with
  | some (.eval code) =>
    let source := (Source.read? code).getD .null
    match evaluate setting source with
    | .ok text =>
      if !text.isEmpty then IO.println text
      return 0
    | .error e => fail e
  | some (.run file args) =>
    let text ← (IO.FS.readFile file).toBaseIO
    match run { setting with args } (text.toOption.map chunkOfText) with
    | .ok code => return UInt32.ofInt code
    | .error e => fail e
  | some (.types ns) =>
    for name in typeNames ns do
      IO.println name
    return 0
  | none =>
    IO.eprintln "usage: [--config FILE] eval CODE | run FILE ARGS… | types [NAMESPACE]"
    return 2
