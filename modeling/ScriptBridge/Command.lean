import ScriptBridge.Session.Globals
import ScriptBridge.Report

/-!
# Commands

What the command line does: evaluate a piece of script and print its results, run a script file for
its exit code, and list the types that scripts can use. Scripts find the types of the namespace
`host` imported.
-/

namespace ScriptBridge.Command

open Script Bridge Machine

inductive CommandError
  | fileNotFound
  | invalidOptions (e : BridgeError)
  | failed (e : BridgeError)

/-- Of problems with the options only a limit of zero is spelt out. -/
def CommandError.message : CommandError → String
  | fileNotFound => "File not found"
  | invalidOptions e =>
    match Report.message e with
    | "" => "Configuration error"
    | message => message
  | failed e => Report.message e

/-- The namespace imported into every session. -/
def hostNamespace : String :=
  "host"

/-- A static method of a host type. -/
def hostMethod (name : String) (params : List Param) (returns : Option Kind) (body : Body) :
    Method where
  name := name
  params := params
  returns := returns
  isStatic := true
  hidden := false
  isExtension := false
  typeParams := 0
  label := name
  body := body

def hostType (identity : Nat) (name : String) (methods : List Method) : HostType where
  identity := identity
  name := name
  ns := some hostNamespace
  primitive := none
  members := { methods }
  typeParams := none
  home := hostNamespace ++ "." ++ name
  base := none
  nested := []
  typeArgs := []

/-- Environment variables and the arguments of the script. -/
def environmentType (identity : Nat) (args : List String) : HostType :=
  hostType identity "Env"
    [hostMethod "var" [⟨"name", .string, .input, none⟩] (some .string) (.environment 0),
      hostMethod "args" [] (some (.array .string)) (.give (.literal (.array (args.map .str))))]

/-- Takes messages of scripts at three levels. -/
def logType (identity : Nat) : HostType :=
  hostType identity "Log" <|
    ["info", "warn", "debug"].map fun level =>
      hostMethod level [⟨"message", .any, .input, none⟩] none .idle

def hostTypes (args : List String) : List HostType :=
  [environmentType primitiveTypes.length args, logType (primitiveTypes.length + 1)]

def registry (args : List String) : Registry :=
  let types := hostTypes args
  .build types (primitiveTypes.length + types.length)

structure Setting where
  /-- The text of the options file, if one is given. -/
  options : Option String := none
  args : List String := []
  environment : List (String × String) := []

/-- A session with the host types imported. -/
def Setting.createSession (s : Setting) : Except CommandError World := do
  let options ← match s.options with
    | some text => (Options.parse text).mapError .invalidOptions
    | none => pure {}
  let w := Session.create options (registry s.args) (hostTypes s.args)
  return (Session.importNamespace { w with environment := s.environment } hostNamespace).2

/-- Source is taken for expressions where it can be, for statements otherwise. -/
def chunkOf (code : Source) : Chunk :=
  match code with
  | .list items =>
    match Source.expressions items with
    | .malformed => code.chunk
    | chunk => chunk
  | _ => .malformed

/-- The results of a piece of script, separated by tabs. -/
def evaluate (s : Setting) (code : Source) : Except CommandError String := do
  let w ← s.createSession
  let (results, w) := Session.runChunk w (chunkOf code)
  return "\t".intercalate ((← results.mapError .failed).map (·.text w.store.display))

/-- An integer in 32 bits is the exit code, false counts as one, as do other integers, and
everything else as zero. -/
def exitCode : Option HostValue → Int
  | some (.int code) => if IntKind.i32.holds code.toInt then code.toInt else 1
  | some (.bool false) => 1
  | _ => 0

/-- Runs a script for its exit code; the chunk is missing when there is no such file. -/
def run (s : Setting) (file : Option Chunk) : Except CommandError Int := do
  let some chunk := file | .error .fileNotFound
  let w ← s.createSession
  let results ← (Session.runChunk w chunk).1.mapError .failed
  return exitCode results.head?

/-- The full names of the registered types, sorted; the primitive ones only when their namespace is
asked for. -/
def typeNames (ns : Option String) : List String :=
  let r := registry []
  let types := match ns with
    | some ns => r.inNamespace ns
    | none => r.types.filter (·.ns != some primitiveNamespace)
  (types.map (·.fullName)).mergeSort fun a b => a ≤ b

end ScriptBridge.Command
