import ScriptBridge.Proofs.Alone
import ScriptBridge.Proofs.Session

/-!
# A turn of a coroutine

A coroutine that waits stands before the first step of its function or at a yield. A resume by the
host runs the function from there up to the next halt that the function by itself comes to, and
leaves the coroutine there. Nothing but values or an error is handed to the host: what halt it was is
read off the status of the coroutine afterwards, and it is the one that the function came to.
-/

namespace ScriptBridge.Machine

open Script Bridge

/-- Where a coroutine waits. -/
inductive Point
  | start (f : Value)
  | yielded (stack : List Frame) (depth : Nat)

def Point.state : Point → Thread
  | .start f => .fresh f
  | .yielded stack depth => .suspended stack depth

lemma Point.eq_of_state {p p' : Point} (same : p.state = p'.state) : p = p' := by
  cases p <;> cases p' <;> cases same <;> rfl

/-- The function of a coroutine by itself, about to go on: it is called with the arguments at the
start, and its yield gives them later. -/
def Point.machine (p : Point) (w : World) (thread : Nat) (args : List Value) : Machine :=
  let world := { w.setThread thread .active with active := thread :: w.active }
  match p with
  | .start f => { world, control := .call f args, thread := some thread }
  | .yielded stack depth => { world, control := .values args, stack, depth, thread := some thread }

namespace Resumption

/-- The point at which a coroutine waits after it came to a halt, if it does. -/
def point (r : Resumption) (m : Machine) : Option Point :=
  match r with
  | .yielded _ => some (.yielded m.stack m.depth)
  | _ => none

/-- The values that the host is handed. -/
def values : Resumption → List Value
  | .yielded vs => vs
  | .returned vs => vs
  | .raised _ => []

/-- What a halt is to the host, in the world in which it happened. -/
def outcome (r : Resumption) (w : World) : ResumeOutcome :=
  match r with
  | .yielded vs => .yielded (vs.map w.pull)
  | .returned vs => .returned (vs.map w.pull)
  | .raised v => .errored (w.scriptError v).coroutineMessage

end Resumption

/-- The values of a halt fit on the stack of the host, and they are no more than may be moved at
once. -/
structure Resumption.Fits (r : Resumption) (m : Machine) : Prop where
  room : r.values.length ≤ m.world.engine.values
  transfer : r.values.length ≤ m.world.options.maxTransferValues

/-- The world after a resume by the host in which the function came to a halt. -/
def after (thread : Nat) (r : Resumption) (m : Machine) : World :=
  leave (m.world.setThread thread (r.leaves m)) thread

/-- What the host is told after a halt. It goes by the status that the coroutine was left with. -/
def told (thread : Nat) (r : Resumption) (m : Machine) : Except BridgeError ResumeOutcome :=
  outcomeOf (after thread r m) thread ((after thread r m).receive r.handed)

section Points

variable {w : World} {thread : Nat} {p : Point} {args : List Value}

lemma Point.waits (p : Point) : p.state.waits = true := by
  cases p <;> rfl

lemma exists_point (waits : (w.thread thread).waits = true) :
    ∃ p : Point, w.thread thread = p.state := by
  cases state : w.thread thread with
  | fresh f => exact ⟨.start f, rfl⟩
  | suspended stack depth => exact ⟨.yielded stack depth, rfl⟩
  | _ =>
    rw [state] at waits
    cases waits

lemma status_of_point (out : thread ∉ w.active) (stands : w.thread thread = p.state) :
    w.status thread = .suspended := by
  rw [status_of_not_mem out, World.status.halted, stands]
  cases p <;> rfl

lemma Point.there (stands : w.thread thread = p.state) : w.thread thread ≠ .finished := by
  intro finished
  have waits := p.waits
  rw [← stands, finished] at waits
  cases waits

/-- The function of a coroutine that waits can be run by itself. -/
lemma Point.alone (sound : w.Sound) (parted : w.Parted) (stands : w.thread thread = p.state) :
    Alone thread w.active (p.machine w thread args) := by
  have there := Point.there stands
  have started : ({ w.setThread thread .active with active := thread :: w.active } : World).Sound :=
    (sound.setThread thread fun _ _ eq => by cases eq).withActive _
  have within : Within [] .values (p.machine w thread args) := by
    cases p with
    | start f => exact ⟨.values, ⟨started, [], rfl, rfl⟩, rfl⟩
    | yielded stack depth =>
      have leads := sound.threads thread stack depth stands
      exact ⟨.values, ⟨started, stack, (List.append_nil stack).symm, leads⟩, rfl⟩
  have inside : ∀ f ∈ (p.machine w thread args).stack, f.isMark = false := by
    cases p with
    | start f => exact fun f mem => by cases mem
    | yielded stack depth => exact parted thread stack depth stands
  have world : (p.machine w thread args).world
      = { w.setThread thread .active with active := thread :: w.active } := by
    cases p <;> rfl
  refine ⟨within, ?_, ⟨?_, ?_, fun f mem => ?_⟩, .of_idle ?_ ?_⟩
  · rw [world]
    exact parted.setThread thread fun stack depth eq => by cases eq
  · rw [world]
    show thread < (w.setThread thread .active).threads.size
    rw [size_setThread]
    exact lt_size_of_thread there
  · rw [world]
    exact setThread_self there _
  · simp [marked_eq_none (inside f mem)]
  · cases p <;> rfl
  · rw [world, bodied_eq_nil inside]
    rfl

/-- Resuming a coroutine that waits puts its function above the mark of the host. -/
lemma Point.onto_hostMark (stands : w.thread thread = p.state) :
    resume (Session.resumed w thread args) thread args .session
      = (p.machine w thread args).onto [hostMark thread] := by
  have found : (Session.resumed w thread args).world.thread thread = p.state := stands
  unfold resume
  rw [found]
  cases p <;> rfl

end Points

section Transfers

variable {w : World} {vs : List Value}

lemma receive_of_le (room : vs.length ≤ w.engine.values) : w.receive (.ok vs) = .ok vs :=
  if_neg (Nat.not_lt.2 room)

lemma receive_of_lt (cramped : w.engine.values < vs.length) :
    w.receive (.ok vs) = .error .stackExhausted :=
  if_pos cramped

lemma pullMany_of_le (transfer : vs.length ≤ w.options.maxTransferValues) :
    w.pullMany vs = .ok (vs.map w.pull) := by
  unfold World.pullMany Bridge.pullMany checkTransfer
  rw [if_neg (Nat.not_lt.2 transfer)]
  rfl

lemma pullMany_of_lt (many : w.options.maxTransferValues < vs.length) :
    w.pullMany vs
      = .error (.insufficientStackSpace vs.length w.options.maxTransferValues) := by
  unfold World.pullMany Bridge.pullMany checkTransfer
  rw [if_pos many]

end Transfers

section Ends

variable {m m' : Machine} {thread : Nat} {around : List Nat} {n : Nat} {r : Resumption}

/-- Where the function comes to a halt, the coroutine is the innermost one that is resumed. -/
lemma Comes.ended (comes : Comes n m r m') (alone : Alone thread around m) :
    thread < m'.world.threads.size ∧ m'.world.active = thread :: around := by
  induction comes with
  | yields asks free =>
    have active := alone.behind.active
    rw [asks.control, bodied_eq_nil asks.unmarked] at active
    have grows := (fire_ok (.refl _) asks.hooked).1.world.grows
    exact ⟨(grows.threads.thread_of_lt alone.still.there).1, grows.active.trans active⟩
  | returns control empty =>
    have active := alone.behind.active
    rw [control, empty] at active
    exact ⟨alone.still.there, active⟩
  | raises control clear =>
    have active := alone.behind.active
    rw [control, bodied_eq_nil fun f mem => isMark_of_not_catches (clear f mem)] at active
    exact ⟨alone.still.there, active⟩
  | held asks bound rest ih => exact ih (alone.held asks _)
  | step silent stepped rest ih => exact ih (alone.step stepped)

lemma active_after (active : m.world.active = thread :: around) :
    (after thread r m).active = around := by
  show m.world.active.erase thread = around
  rw [active, List.erase_cons_head]

lemma thread_after (there : thread < m.world.threads.size) :
    (after thread r m).thread thread = r.leaves m := by
  show (m.world.setThread thread (r.leaves m)).thread thread = r.leaves m
  unfold World.thread World.setThread
  rw [Array.getElem?_setIfInBounds_self_of_lt there]
  rfl

/-- The status of the coroutine tells a yield, a return and an error apart. -/
lemma told_of_fits (there : thread < m.world.threads.size) (fits : r.Fits m) :
    told thread r m = .ok (r.outcome m.world) := by
  have left : (after thread r m).thread thread = r.leaves m := thread_after there
  have received := receive_of_le (w := after thread r m) fits.room
  have pulled := pullMany_of_le (w := after thread r m) fits.transfer
  unfold told
  cases r with
  | raised v =>
    rw [Resumption.handed, World.receive, outcomeOf, left]
    rfl
  | _ =>
    simp only [Resumption.values] at received pulled
    rw [Resumption.handed, received, outcomeOf, pulled, left]
    rfl

/-- Values that are more than may be moved at once are not handed to the host. -/
lemma told_of_many (room : r.values.length ≤ m.world.engine.values)
    (many : m.world.options.maxTransferValues < r.values.length) :
    told thread r m = .error
      (.insufficientStackSpace r.values.length m.world.options.maxTransferValues) := by
  have received := receive_of_le (w := after thread r m) room
  have refused := pullMany_of_lt (w := after thread r m) many
  unfold told
  cases r with
  | raised v => exact absurd many (Nat.not_lt_zero _)
  | _ =>
    simp only [Resumption.values] at received refused
    rw [Resumption.handed, received, outcomeOf, refused]
    rfl

/-- Yielded values that do not fit on the stack of the host are lost: the coroutine can be gone on
with, so that this is no error of the coroutine. -/
lemma told_of_cramped {vs : List Value} (there : thread < m.world.threads.size)
    (cramped : m.world.engine.values < vs.length) :
    told thread (.yielded vs) m = .error (.script .stackExhausted) := by
  have received := receive_of_lt (w := after thread (.yielded vs) m) cramped
  rw [told, Resumption.handed, received, outcomeOf, thread_after there]
  rfl

/-- Returned values that do not fit on the stack of the host are lost: as the coroutine has come to
its end, the host is told that it failed. -/
lemma told_of_cramped_return {vs : List Value} (there : thread < m.world.threads.size)
    (cramped : m.world.engine.values < vs.length) :
    told thread (.returned vs) m = .ok (.errored ScriptError.stackExhausted.coroutineMessage) := by
  have received := receive_of_lt (w := after thread (.returned vs) m) cramped
  rw [told, Resumption.handed, received, outcomeOf, thread_after there]
  rfl

end Ends

end ScriptBridge.Machine

namespace ScriptBridge.Session

open Script Bridge Machine

section Turns

variable {w w' : World} {m : Machine} {thread n : Nat} {p : Point} {r : Resumption}
  {args : List HostValue} {pushed : List Value}

/-- Arguments that are pushed leave their traces in the heap only. -/
lemma exists_heap_of_pushMany {answer : Except BridgeError (List Value)}
    (pushes : w.pushMany args = (answer, w')) : ∃ heap, w' = { w with heap } := by
  cases pushes
  exact ⟨_, rfl⟩

/-- A coroutine stands at a point and can be resumed by the host. -/
structure Waits (w : World) (thread : Nat) (p : Point) : Prop where
  reached : Reached w
  out : thread ∉ w.active
  stands : w.thread thread = p.state

/-- The function of the coroutine by itself goes on from its point with arguments of the host, for
which there is room on its stack, and comes to a halt in the steps that a run may take. -/
def Turn (w : World) (thread : Nat) (p : Point) (args : List HostValue) (r : Resumption)
    (m : Machine) : Prop :=
  ∃ pushed w' n, w.pushMany args = (.ok pushed, w') ∧ pushed.length ≤ w'.engine.values ∧
    Comes n (p.machine w' thread pushed) r m ∧ n + 2 ≤ w'.engine.steps

lemma Waits.status (waits : Waits w thread p) : w.status thread = .suspended :=
  status_of_point waits.out waits.stands

lemma Waits.checkResumable (waits : Waits w thread p) : w.checkResumable thread = .ok () := by
  unfold World.checkResumable
  rw [waits.status]

lemma Waits.push (waits : Waits w thread p) {answer : Except BridgeError (List Value)}
    (pushes : w.pushMany args = (answer, w')) :
    Waits w' thread p ∧ w'.active = w.active ∧ w'.threads = w.threads := by
  have reached := (waits.reached.pushMany args).after pushes
  obtain ⟨heap, rfl⟩ := exists_heap_of_pushMany pushes
  exact ⟨⟨reached, waits.out, waits.stands⟩, rfl, rfl⟩

lemma Waits.alone (waits : Waits w thread p) (args : List Value) :
    Alone thread w.active (p.machine w thread args) :=
  Point.alone waits.reached.sound waits.reached.parted waits.stands

/-- A run that resumes the coroutine runs its function above the mark of the host. -/
lemma Waits.start (waits : Waits w thread p) (fuel : Nat) (args : List Value) :
    run (fuel + 1) (resumed w thread args)
      = run fuel ((p.machine w thread args).onto [hostMark thread]) := by
  rw [← Point.onto_hostMark waits.stands]
  rfl

/-- The run of a resume ends where the function by itself comes to a halt. -/
lemma Turn.run (turn : Turn w thread p args r m) (waits : Waits w thread p) :
    ∃ pushed w', w.pushMany args = (.ok pushed, w') ∧ pushed.length ≤ w'.engine.values ∧
      Machine.run w'.engine.steps (resumed w' thread pushed) = ends thread r m := by
  obtain ⟨pushed, w', n, pushes, room, comes, enough⟩ := turn
  have waits' := (waits.push pushes).1
  obtain ⟨fuel, limit⟩ := Nat.exists_eq_add_of_le' (Nat.le_trans (Nat.le_add_left 1 _) enough)
  refine ⟨pushed, w', pushes, room, ?_⟩
  rw [limit, waits'.start]
  exact comes.run (waits'.alone pushed) (by omega)

lemma Turn.ended (turn : Turn w thread p args r m) (waits : Waits w thread p)
    (pushes : w.pushMany args = (.ok pushed, w')) :
    (Machine.run w'.engine.steps (resumed w' thread pushed)).1 ≠ .exhausted := by
  obtain ⟨pushed', w'', pushes', -, halted⟩ := turn.run waits
  rw [pushes] at pushes'
  cases pushes'
  rw [halted]
  exact Outcome.noConfusion

/-- A resume tells the host of the halt that the function by itself comes to, and leaves the
coroutine there. -/
theorem Turn.resume (turn : Turn w thread p args r m) (waits : Waits w thread p) :
    resume w thread args = (told thread r m, after thread r m) := by
  obtain ⟨pushed, w', pushes, room, halted⟩ := turn.run waits
  have started : start { w' with active := thread :: w'.active } (.resume thread pushed .session)
      = ends thread r m := halted
  unfold Session.resume Session.resumeThread
  rw [waits.checkResumable, pushes]
  dsimp only
  rw [if_neg (Nat.not_lt.2 room), started]
  rfl

/-- The coroutine is where its function came to a halt, and whoever else is resumed still is. -/
lemma Turn.after (turn : Turn w thread p args r m) (waits : Waits w thread p) :
    (after thread r m).active = w.active ∧ thread < m.world.threads.size ∧
      (after thread r m).thread thread = r.leaves m := by
  obtain ⟨pushed, w', n, pushes, -, comes, -⟩ := turn
  obtain ⟨waits', active, -⟩ := waits.push pushes
  obtain ⟨there, resumed⟩ := comes.ended (waits'.alone pushed)
  exact ⟨(active_after resumed).trans active, there, thread_after there⟩

/-- A resume with arguments that can be pushed and have room is a turn of the coroutine, unless it
goes on for longer than any run may. -/
theorem Waits.exists_turn (waits : Waits w thread p) (pushes : w.pushMany args = (.ok pushed, w'))
    (room : pushed.length ≤ w'.engine.values)
    (ended : (run w'.engine.steps (resumed w' thread pushed)).1 ≠ .exhausted) :
    ∃ r m, Turn w thread p args r m := by
  have waits' := (waits.push pushes).1
  obtain ⟨fuel, limit⟩ : ∃ fuel, w'.engine.steps = fuel + 1 :=
    Nat.exists_eq_add_one_of_ne_zero (Nat.ne_zero_of_lt w'.engine.enough)
  rw [limit, waits'.start] at ended
  obtain ⟨n, r, m, enough, comes⟩ := (waits'.alone pushed).comes ended
  exact ⟨r, m, ⟨pushed, w', n, pushes, room, comes, by omega⟩⟩

end Turns

end ScriptBridge.Session
