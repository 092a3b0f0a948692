/-!
# Functions of the script language

A function is either built in or a closure made by running a function expression.
-/

namespace ScriptBridge

/-- The built-in functions. -/
inductive Builtin
  | pcall
  | error
  | tostring
  | type
  | rawequal
  | setmetatable
  | print
  | coroutineCreate
  | coroutineWrap
  | coroutineYield
  | mathType
  /-- The message of a caught error. -/
  | errorMessage
  /-- Resumes the thread it was made for. -/
  | wrapped (thread : Nat)
  | subscribe
  | unsubscribe
  | indexerGet
  | indexerSet
  /-- A library function that is there but cannot be run here. -/
  | other (name : String)
deriving DecidableEq, Repr

/-- A function, by identity. -/
inductive Routine
  | builtin (b : Builtin)
  | closure (id : Nat)
deriving DecidableEq, Repr

end ScriptBridge
