/-!
# Failures at the boundary

`BridgeError` says why an operation of the bridge failed, `ScriptError` what the script engine
reports. A bridge error raised inside a script reaches the host wrapped in script errors;
`BridgeError.root` finds it again.
-/

namespace ScriptBridge

/-- Where a coroutine stands. -/
inductive CoroutineStatus
  /-- Being resumed and executing. -/
  | running
  /-- Created or yielded; can be resumed. -/
  | suspended
  /-- Being resumed, but has itself resumed another. -/
  | normal
  /-- Finished or failed. -/
  | dead
deriving DecidableEq, Repr

def CoroutineStatus.text : CoroutineStatus → String
  | running => "running"
  | suspended => "suspended"
  | normal => "normal"
  | dead => "dead"

/-- The broad classes of bridge failures. -/
inductive ErrorCategory
  | protocol | resolution | coercion | hostInvocation | lifecycle | script | io | config
deriving DecidableEq, Repr

def ErrorCategory.text : ErrorCategory → String
  | protocol => "Protocol"
  | resolution => "Resolution"
  | coercion => "Coercion"
  | hostInvocation => "HostInvocation"
  | lifecycle => "Lifecycle"
  | script => "Script"
  | io => "Io"
  | config => "Config"

mutual

inductive BridgeError
  /-- More values to transfer at once than the limit allows. -/
  | insufficientStackSpace (needed limit : Nat)
  | unknownMember (typeName member : String)
  | noMatchingOverload (typeName member args : String)
  | invalidTypeArgument (typeName reason : String)
  | operatorNotSupported (operator left right : String)
  | typeMismatch (expected got : String)
  /-- A host value that scripts cannot hold. -/
  | unsupportedValueKind (text : String)
  | readOnlyMember (typeName member : String)
  /-- A host member failed or panicked. -/
  | hostInvocation (context message : String) (trace : Option String)
  | deadCoroutine
  | coroutineNotSuspended (status : CoroutineStatus)
  /-- An error raised by a script, or surfaced through one. -/
  | script (cause : ScriptError)
  | io (text : String)
  | config (text : String)

/-- What the script engine reports. -/
inductive ScriptError
  | malformedChunk
  | runtime (message : String)
  | conversion
  /-- A method called on something that it does not belong to. -/
  | foreignReceiver
  | badArgument (cause : ScriptError)
  /-- Passed through host code that was called by a script. -/
  | callback (cause : ScriptError)
  | context (text : String) (cause : ScriptError)
  | external (cause : BridgeError)
  /-- An error of host code that is no bridge error. -/
  | foreign (text : String)
  /-- More values at once than fit the engine's stack. -/
  | stackExhausted

end

instance : Inhabited BridgeError := ⟨.deadCoroutine⟩

instance : Inhabited ScriptError := ⟨.malformedChunk⟩

/-- The line after a message that introduces a host stack trace. -/
def traceText : Option String → String
  | some trace => "\nhost backtrace:\n" ++ trace
  | none => ""

mutual

def BridgeError.text : BridgeError → String
  | .insufficientStackSpace needed limit =>
    "Insufficient stack space: " ++ toString needed ++ " values requested, limit is "
      ++ toString limit
  | .unknownMember typeName member => "Unknown member '" ++ member ++ "' on " ++ typeName
  | .noMatchingOverload typeName member args =>
    "No overload of " ++ typeName ++ "." ++ member ++ " matches (" ++ args ++ ")"
  | .invalidTypeArgument typeName reason =>
    "Invalid type argument for " ++ typeName ++ ": " ++ reason
  | .operatorNotSupported operator left right =>
    "Operator " ++ operator ++ " is not supported between " ++ left ++ " and " ++ right
  | .typeMismatch expected got => "Type mismatch: expected " ++ expected ++ ", got " ++ got
  | .unsupportedValueKind text => "Unsupported value kind: " ++ text
  | .readOnlyMember typeName member =>
    "Member '" ++ member ++ "' on " ++ typeName ++ " is read-only"
  | .hostInvocation context message trace =>
    "Error invoking " ++ context ++ ": " ++ message ++ traceText trace
  | .deadCoroutine => "Cannot resume dead coroutine"
  | .coroutineNotSuspended status => "Cannot resume " ++ status.text ++ " coroutine"
  | .script cause => "Script error: " ++ cause.text
  | .io text => "IO error: " ++ text
  | .config text => "Configuration error: " ++ text

def ScriptError.text : ScriptError → String
  | .malformedChunk => "syntax error: malformed chunk"
  | .runtime message => "runtime error: " ++ message
  | .conversion => "error converting Lua value"
  | .foreignReceiver => "userdata is not expected type"
  | .badArgument cause => "bad argument: " ++ cause.text
  | .callback cause => cause.text
  | .context text cause => text ++ "\n" ++ cause.text
  | .external cause => cause.text
  | .foreign text => text
  | .stackExhausted =>
    "out of Lua stack, too many arguments to a Lua function or too many return values " ++
      "from a callback"

end

def BridgeError.category : BridgeError → ErrorCategory
  | .insufficientStackSpace .. => .protocol
  | .unknownMember .. | .noMatchingOverload .. | .invalidTypeArgument ..
  | .operatorNotSupported .. => .resolution
  | .typeMismatch .. | .unsupportedValueKind _ | .readOnlyMember .. => .coercion
  | .hostInvocation .. => .hostInvocation
  | .deadCoroutine | .coroutineNotSuspended _ => .lifecycle
  | .script _ => .script
  | .io _ => .io
  | .config _ => .config

mutual

/-- The innermost bridge error, or the error itself when it wraps none. -/
def BridgeError.root : BridgeError → BridgeError
  | .script cause => (cause.bridgeRoot?).getD (.script cause)
  | e => e

def ScriptError.bridgeRoot? : ScriptError → Option BridgeError
  | .callback cause => cause.bridgeRoot?
  | .context _ cause => cause.bridgeRoot?
  | .external cause => some cause.root
  | _ => none

end

/-- What a bridge error becomes when it is raised into a script. -/
def BridgeError.raise : BridgeError → ScriptError
  | .script cause => cause
  | e => .external e

/-- The script error at the bottom of all wrappers. -/
def ScriptError.innermost : ScriptError → ScriptError
  | .callback cause => cause.innermost
  | .context _ cause => cause.innermost
  | .badArgument cause => cause.innermost
  | e => e

/-- The message of an error that ended a coroutine, without the wrappers around it. -/
def ScriptError.coroutineMessage (e : ScriptError) : String :=
  match (BridgeError.script e).root with
  | .script (.runtime message) => message
  | .script inner => inner.text
  | found => found.text

inductive HostFailure
  | failed (message : String)
  /-- A panic; the message is missing when its payload was no text. -/
  | panicked (message : Option String)
deriving DecidableEq, Repr

def HostFailure.message : HostFailure → String
  | failed message => message
  | panicked (some text) => "panicked: " ++ text
  | panicked none => "panicked"

/-- A failure of host code under the member that was invoked. -/
def BridgeError.ofHost (context : String) (failure : HostFailure) (trace : Option String) :
    BridgeError :=
  .hostInvocation context failure.message trace

end ScriptBridge
