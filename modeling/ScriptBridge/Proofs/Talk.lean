import ScriptBridge.Proofs.Turn

/-!
# The resume protocol

The host talks with a coroutine: it resumes the coroutine time and again, and does whatever it
wants in between. Each time it is told just what the function of the coroutine by itself yields,
returns or raises. The coroutine is suspended until its function has come to its end, and dead for
ever after.
-/

namespace ScriptBridge.Machine

open Script Bridge

/-- Whether a coroutine has come to its end. -/
def Thread.isOver : Thread → Bool
  | .finished | .failed _ => true
  | _ => false

/-- Whether a halt is one that the coroutine can go on from. -/
def Resumption.isYield : Resumption → Bool
  | .yielded _ => true
  | _ => false

/-- A coroutine waits at the point, or it is over when there is none. -/
def Thread.At (state : Thread) : Option Point → Prop
  | some p => state = p.state
  | none => state.isOver = true

lemma Resumption.leaves_at (r : Resumption) (m : Machine) : (r.leaves m).At (r.point m) := by
  cases r <;> rfl

lemma Resumption.isYield_eq (r : Resumption) (m : Machine) : r.isYield = (r.point m).isSome := by
  cases r <;> rfl

lemma Thread.not_waits {state : Thread} (ended : state.isOver = true) : state.waits = false := by
  cases state <;> first | rfl | cases ended

lemma status_of_over {w : World} {thread : Nat} (out : thread ∉ w.active)
    (ended : (w.thread thread).isOver = true) : w.status thread = .dead := by
  rw [status_of_not_mem out, World.status.halted]
  cases state : w.thread thread with
  | finished => rfl
  | failed stack => rfl
  | _ =>
    rw [state] at ended
    cases ended

end ScriptBridge.Machine

namespace ScriptBridge.Session

open Script Bridge Machine

/-- A resume by the host: what the host was told, and the halt that the function by itself came to
in some world. -/
structure Exchange where
  answer : Except BridgeError ResumeOutcome
  halt : Resumption
  world : World

/-- What passed between the host and a coroutine up to a world, and the point where the coroutine
waits unless it is over. -/
inductive Talk (thread : Nat) : List Exchange → Option Point → World → Prop
  | created {w w' : World} {f : Routine} (reached : Reached w) (idle : w.active = [])
      (created : createCoroutine w (.function f) = (.ok thread, w')) :
      Talk thread [] (some (.start (.function f))) w'
  /-- The session goes on without this coroutine. -/
  | meanwhile {exchanges : List Exchange} {point : Option Point} {w w' : World}
      (talk : Talk thread exchanges point w) (later : Later w w')
      (same : w'.thread thread = w.thread thread) : Talk thread exchanges point w'
  | resumed {exchanges : List Exchange} {p : Point} {w : World} {args : List HostValue}
      {r : Resumption} {m : Machine} (talk : Talk thread exchanges (some p) w)
      (turn : Turn w thread p args r m) (fits : r.Fits m) :
      Talk thread (exchanges ++ [⟨(resume w thread args).1, r, m.world⟩]) (r.point m)
        (resume w thread args).2

/-- The coroutine waits to be gone on with: it yielded in each exchange. Whatever arguments can be
pushed and have room, a resume is a turn of its function unless it goes on for longer than any run
may. -/
structure Open (thread : Nat) (exchanges : List Exchange) (p : Point) (w : World) : Prop where
  status : w.status thread = .suspended
  yields : ∀ e ∈ exchanges, e.halt.isYield = true
  goesOn : ∀ args pushed w', w.pushMany args = (.ok pushed, w') →
    pushed.length ≤ w'.engine.values →
    (run w'.engine.steps (resumed w' thread pushed)).1 ≠ .exhausted →
    ∃ r m, Turn w thread p args r m

/-- The function of the coroutine came to its end in the last exchange. Whatever the session does,
the coroutine is dead for ever, and resuming it does nothing. -/
structure Closed (thread : Nat) (exchanges : List Exchange) (w : World) : Prop where
  ended : ∃ earlier last, exchanges = earlier ++ [last] ∧
    (∀ e ∈ earlier, e.halt.isYield = true) ∧ last.halt.isYield = false
  dead : ∀ w', Later w w' → w'.status thread = .dead ∧
    ∀ args, resume w' thread args = (.error .deadCoroutine, w')

section Talks

variable {thread : Nat} {exchanges : List Exchange} {point : Option Point} {p : Point}
  {w w' : World}

/-- Between resumes no coroutine is active, and this one is at its point. -/
structure Keeps (thread : Nat) (point : Option Point) (w : World) : Prop where
  reached : Reached w
  idle : w.active = []
  there : thread < w.threads.size
  at_ : (w.thread thread).At point

lemma Keeps.out (keeps : Keeps thread point w) : thread ∉ w.active := by
  rw [keeps.idle]
  exact List.not_mem_nil

lemma Keeps.waits (keeps : Keeps thread (some p) w) : Waits w thread p :=
  ⟨keeps.reached, keeps.out, keeps.at_⟩

lemma Keeps.created {f : Routine} (reached : Reached w) (idle : w.active = [])
    (created : createCoroutine w (.function f) = (.ok thread, w')) :
    Keeps thread (some (.start (.function f))) w' := by
  have next := (reached.createCoroutine (.function f)).after created
  cases created
  refine ⟨next, idle, ?_, ?_⟩
  · simp
  · simp [Thread.At, Point.state, World.thread]

lemma Keeps.meanwhile (keeps : Keeps thread point w) (later : Later w w')
    (same : w'.thread thread = w.thread thread) : Keeps thread point w' where
  reached := later.reached keeps.reached
  idle := (later.active keeps.reached).trans keeps.idle
  there := by
    cases point with
    | some p => exact lt_size_of_thread (Point.there (same.trans keeps.at_))
    | none =>
      have still := Thread.not_waits keeps.at_
      exact (later.stands keeps.reached still keeps.there rfl).1
  at_ := same ▸ keeps.at_

lemma Keeps.resumed (keeps : Keeps thread (some p) w) {args : List HostValue} {r : Resumption}
    {m : Machine} (turn : Turn w thread p args r m) :
    Keeps thread (r.point m) (resume w thread args).2 := by
  obtain ⟨active, there, leaves⟩ := turn.after keeps.waits
  have reached := keeps.reached.resume thread args
  rw [turn.resume keeps.waits] at reached ⊢
  refine ⟨reached, active.trans keeps.idle, ?_, leaves ▸ r.leaves_at m⟩
  show thread < (m.world.setThread thread (r.leaves m)).threads.size
  rw [size_setThread]
  exact there

lemma Talk.keeps (talk : Talk thread exchanges point w) : Keeps thread point w := by
  induction talk with
  | created reached idle created => exact .created reached idle created
  | meanwhile _ later same ih => exact ih.meanwhile later same
  | resumed _ turn fits ih => exact ih.resumed turn

/-- In each exchange the host was told of the halt that the function by itself came to. -/
lemma Talk.answers (talk : Talk thread exchanges point w) :
    ∀ e ∈ exchanges, e.answer = .ok (e.halt.outcome e.world) := by
  induction talk with
  | created => exact fun e mem => by cases mem
  | meanwhile _ _ _ ih => exact ih
  | resumed talk turn fits ih =>
    intro e mem
    rcases List.mem_append.1 mem with earlier | last
    · exact ih e earlier
    · have there := (turn.after talk.keeps.waits).2.1
      rw [List.mem_singleton.1 last, turn.resume talk.keeps.waits]
      exact told_of_fits there fits

/-- The world after a resume is that in which the function came to its halt. -/
lemma Talk.next (talk : Talk thread exchanges (some p) w) (args : List HostValue) {r : Resumption}
    {m : Machine} (turn : Turn w thread p args r m) (fits : r.Fits m) :
    Talk thread (exchanges ++ [⟨.ok (r.outcome m.world), r, m.world⟩]) (r.point m)
      (after thread r m) := by
  have there := (turn.after talk.keeps.waits).2.1
  have next := talk.resumed turn fits
  rw [turn.resume talk.keeps.waits, told_of_fits there fits] at next
  exact next

/-- Only the last exchange can be one in which the function came to its end. -/
lemma Talk.halts (talk : Talk thread exchanges point w) :
    (∀ p, point = some p → ∀ e ∈ exchanges, e.halt.isYield = true) ∧
      (point = none → ∃ earlier last, exchanges = earlier ++ [last] ∧
        (∀ e ∈ earlier, e.halt.isYield = true) ∧ last.halt.isYield = false) := by
  induction talk with
  | created =>
    constructor
    · exact fun p _ => List.forall_mem_nil _
    · intro none
      cases none
  | meanwhile _ _ _ ih => exact ih
  | @resumed exchanges p w args r m talk turn fits ih =>
    have yields := ih.1 p rfl
    refine ⟨fun p point e mem => ?_, fun none => ⟨exchanges, _, rfl, yields, ?_⟩⟩
    · rcases List.mem_append.1 mem with earlier | last
      · exact yields e earlier
      · rw [List.mem_singleton.1 last, r.isYield_eq m, point]
        rfl
    · rw [r.isYield_eq m, none]
      rfl

lemma Talk.isOpen (talk : Talk thread exchanges (some p) w) : Open thread exchanges p w where
  status := talk.keeps.waits.status
  yields := talk.halts.1 p rfl
  goesOn _ _ _ pushes room ended := talk.keeps.waits.exists_turn pushes room ended

/-- A coroutine that is over stays so and is refused to the host. -/
lemma Keeps.dead (keeps : Keeps thread none w) (later : Later w w') :
    w'.status thread = .dead ∧ ∀ args, resume w' thread args = (.error .deadCoroutine, w') := by
  have ended : (w.thread thread).isOver = true := keeps.at_
  have same := (later.stands keeps.reached (Thread.not_waits ended) keeps.there rfl).2
  have dead : w'.status thread = .dead := by
    refine status_of_over ?_ (same ▸ ended)
    rw [later.active keeps.reached]
    exact keeps.out
  refine ⟨dead, fun args => ?_⟩
  have refused : w'.checkResumable thread = .error .deadCoroutine := by
    rw [World.checkResumable, dead]
  unfold Session.resume
  rw [refused]

lemma Talk.isClosed (talk : Talk thread exchanges none w) : Closed thread exchanges w where
  ended := talk.halts.2 rfl
  dead _ later := talk.keeps.dead later

/-- Whatever the host does between its resumes of a coroutine, each answer is what the function by
itself comes to when it goes on from its point with the arguments. -/
theorem Talk.protocol (talk : Talk thread exchanges point w) :
    (∀ e ∈ exchanges, e.answer = .ok (e.halt.outcome e.world)) ∧
      (∀ p, point = some p → Open thread exchanges p w) ∧
      (point = none → Closed thread exchanges w) := by
  refine ⟨talk.answers, fun p waits => ?_, fun ended => ?_⟩
  · subst waits
    exact talk.isOpen
  · subst ended
    exact talk.isClosed

end Talks

section Bench

/-- A function that is given a way to yield: it yields a value and returns what it is told then. -/
def echo : World :=
  (makeFunction bench ["yield", "a"] false
    [.locals ["b"] [.call (.name "yield") [.name "a"]], .ret [.name "b"]]).2

lemma reached_echo : Reached echo :=
  reached_bench.makeFunction _ _ _

/-- The arguments of the first resume. -/
def greeting : List HostValue :=
  [.function (.builtin .coroutineYield), .int 1]

/-- The function yields, returns, and then the coroutine is dead. -/
theorem echo_talk : ∃ exchanges w, Talk 0 exchanges none w ∧
    exchanges.map (·.answer) = [.ok (.yielded [.int 1]), .ok (.returned [.int 2])] ∧
    Closed 0 exchanges w := by
  have talk := Talk.created (f := .closure 0) reached_echo rfl rfl
  have yields := talk.next greeting (r := .yielded [.int 1]) ⟨_, _, _, rfl, by decide,
    .of_advance (n := 9) rfl (.yields ⟨rfl, rfl, rfl, by decide⟩ rfl), by decide⟩
    ⟨by decide, by decide⟩
  have returns := yields.next [.int 2] (r := .returned [.int 2]) ⟨_, _, _, rfl, by decide,
    .of_advance (n := 6) rfl (.returns rfl rfl), by decide⟩ ⟨by decide, by decide⟩
  exact ⟨_, _, returns, rfl, returns.protocol.2.2 rfl⟩

end Bench

end ScriptBridge.Session
