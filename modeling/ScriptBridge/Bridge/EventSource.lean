import ScriptBridge.Script.Routine

/-!
# Event sources

What the data behind an event is: the handlers subscribed to it. Whoever raises the event calls the
handlers of a snapshot, so that handlers may subscribe and unsubscribe meanwhile.
-/

namespace ScriptBridge.Bridge

/-- The handlers of an event in the order in which they were subscribed. -/
structure EventSource where
  handlers : Array Routine := #[]
deriving Inhabited

namespace EventSource

def add (s : EventSource) (handler : Routine) : EventSource :=
  { handlers := s.handlers.push handler }

/-- Takes out the first registration of a handler, and tells whether there was one. -/
def remove (s : EventSource) (handler : Routine) : Bool × EventSource :=
  match s.handlers.findIdx? (· == handler) with
  | some i => (true, { handlers := s.handlers.eraseIdxIfInBounds i })
  | none => (false, s)

def size (s : EventSource) : Nat :=
  s.handlers.size

/-- The handlers that are called when the event is raised now. -/
def snapshot (s : EventSource) : List Routine :=
  s.handlers.toList

end EventSource

end ScriptBridge.Bridge
