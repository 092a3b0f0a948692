import ScriptBridge.Machine.Expression
import ScriptBridge.Report

/-!
# Coroutines

Resuming puts the frames of a coroutine on the stack above a mark; yielding, ending and failing
take them off down to the mark and tell whoever resumed it.
-/

namespace ScriptBridge.Machine

open Script Bridge

/-- What a resume comes to for the host. -/
inductive ResumeOutcome
  | yielded (vs : List HostValue)
  | returned (vs : List HostValue)
  /-- The coroutine raised an error and is dead. -/
  | errored (message : String)

/-- The values of an outcome, the message for an error. -/
def ResumeOutcome.values : ResumeOutcome → List HostValue
  | yielded vs => vs
  | returned vs => vs
  | errored message => [.str message]

def withPlace (v : Value) : Value :=
  match v with
  | .str bytes => .str ("script:1: ".toUTF8 ++ bytes)
  | v => v

/-- Whether a function was called by script code, and not by the engine or the host. -/
def callerIsScript : List Frame → Bool
  | [] => false
  | .protect :: _ => false
  | .text :: _ => false
  | .resumed .. :: _ => false
  | .emitting .. :: _ => false
  | .callingBack _ :: _ => false
  | _ => true

/-- Raises an error worded by the engine, with the caller's place. -/
def raisePlaced (m : Machine) (v : Value) : Machine :=
  m.go (.raising (if callerIsScript m.stack then withPlace v else v))

/-- Ends a resume that the host began: the coroutine is no longer active. -/
def leave (w : World) (thread : Nat) : World :=
  { w with active := w.active.erase thread }

/-- What a resume comes to for the host. Whether the coroutine yielded, returned or failed is read
off the status that it has afterwards. -/
def outcomeOf (w : World) (thread : Nat) :
    Except ScriptError (List Value) → Except BridgeError ResumeOutcome
  | .ok vs => do
    let values ← w.pullMany vs
    match (w.thread thread).status with
    | .resumable => return .yielded values
    | _ => return .returned values
  | .error e =>
    match (w.thread thread).status with
    | .finished | .error => .ok (.errored e.coroutineMessage)
    | _ => .error (.script e)

/-- What a body that resumed a coroutine gives back. -/
def resumeText (w : World) (thread : Nat) (received : Except ScriptError (List Value)) :
    HostValue :=
  match outcomeOf w thread received with
  | .ok (.yielded vs) => vs.headD .nil
  | .ok (.returned vs) => vs.headD .nil
  | .ok (.errored message) => .str (Report.clean message)
  | .error e => .str e.text

/-- Hands over to whoever resumed a coroutine. -/
def report (m : Machine) (thread : Nat) (by_ : Resumer) (handed : Handed) : Machine.Progress :=
  match by_ with
  | .session => .halted (.resumed thread handed) (leave m.world thread)
  | .body inv =>
    let m := m.withWorld (leave m.world thread)
    .running (m.go (.finished (resumeText m.world thread (m.world.receive handed)) inv))
  | .wrapper =>
    match handed with
    | .ok vs => .running (m.go (.values vs))
    | .error v => .running (raisePlaced m v)

/-- Goes back to the mark of a coroutine, which lies on top of the stack. -/
def backTo (m : Machine) (rest : List Frame) (outer : Nat) (around : Option Nat) : Machine :=
  { m with stack := rest, depth := outer, thread := around }

/-- Starts or goes on with a coroutine. -/
def resume (m : Machine) (thread : Nat) (args : List Value) (by_ : Resumer) : Machine :=
  let mark := Frame.resumed thread by_ m.depth m.thread
  match m.world.thread thread with
  | .fresh f =>
    { m with
      world := m.world.setThread thread .active
      stack := mark :: m.stack
      depth := 0
      thread := some thread
      control := .call f args }
  | .suspended stack depth =>
    { m with
      world := m.world.setThread thread .active
      stack := stack ++ mark :: m.stack
      depth
      thread := some thread
      control := .values args }
  | .active => raisePlaced m (.ofString "cannot resume non-suspended coroutine")
  | .finished | .failed _ => raisePlaced m (.ofString "cannot resume dead coroutine")

/-- Whether a frame is the mark of a running coroutine. -/
def Frame.isMark : Frame → Bool
  | .resumed .. => true
  | _ => false

/-- Whether host code waits in a frame; nothing can be suspended across it. -/
def Frame.isHostWait : Frame → Bool
  | .emitting .. | .callingBack _ | .text => true
  | _ => false

/-- Suspends the running coroutine and hands values to whoever resumed it. -/
def yield (m : Machine) (vs : List Value) : Machine.Progress :=
  let (above, below) := m.stack.span (!·.isMark)
  match below with
  | .resumed thread by_ outer around :: rest =>
    if above.any (·.isHostWait) then
      .running (m.raiseText "attempt to yield across a C-call boundary")
    else
      let w := m.world.setThread thread (.suspended above m.depth)
      report (backTo (m.withWorld w) rest outer around) thread by_ (.ok vs)
  | _ => .running (m.raiseText "attempt to yield from outside a coroutine")

def finish (m : Machine) (thread : Nat) (by_ : Resumer) (outer : Nat) (around : Option Nat)
    (vs : List Value) : Machine.Progress :=
  let m := m.withWorld (m.world.setThread thread .finished)
  report (backTo m m.stack outer around) thread by_ (.ok vs)

/-- Ends a coroutine by an error. One that the host resumed keeps the frames the error left. -/
def fail (m : Machine) (thread : Nat) (by_ : Resumer) (outer : Nat) (around : Option Nat)
    (frames : List Frame) (v : Value) : Machine.Progress :=
  let state := match by_ with
    | .wrapper => Thread.finished
    | _ => Thread.failed frames
  let m := m.withWorld (m.world.setThread thread state)
  report (backTo m m.stack outer around) thread by_ (.error v)

end ScriptBridge.Machine
