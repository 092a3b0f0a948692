import ScriptBridge.Host.Value

/-!
# Targets

What a member access is aimed at: an instance, or a type for its static members.
-/

namespace ScriptBridge

inductive Target
  | object (o : HostObject)
  | type (t : HostType)
deriving Inhabited

namespace Target

def cls : Target → HostType
  | object o => o.cls
  | type t => t

def isStatic : Target → Bool
  | object _ => false
  | type _ => true

def object? : Target → Option HostObject
  | object o => some o
  | type _ => none

/-- Whether a value is this very target. -/
def isSame : Target → HostValue → Bool
  | object o, .object other => o.id == other.id
  | type t, .type other => t.equal other
  | _, _ => false

/-- How error messages name a member of the target. -/
def memberContext (target : Target) (member : String) : String :=
  target.cls.name ++ "." ++ member

end Target

end ScriptBridge
