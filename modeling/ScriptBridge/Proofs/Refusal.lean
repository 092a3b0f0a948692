import ScriptBridge.Proofs.Marshal
import ScriptBridge.Proofs.Turn

/-!
# Resumes that fail

A resume of a coroutine that waits can fail on its way in or on its way out. If the arguments are
refused, by the bridge or by the engine, no step of the function runs and the coroutine stays where
it is; arguments that were moved before leave what was made for them in the heap. If the function
hands out more values than may be moved at once, or yields more than the engine has room for, it has
run by then: the values are dropped, and the coroutine is at its next halt.
-/

namespace ScriptBridge.Bridge

open Script

/-- Whether nothing has to be made in the heap for scripts to get the value. -/
def isPlain : HostValue → Bool
  | .array _ | .object _ | .type _ => false
  | _ => true

section Refusals

variable {h h' : Heap} {v : HostValue} {vs : List HostValue} {e : BridgeError}

lemma push_of_isPlain (h : Heap) (plain : isPlain v = true) : (push h v).2 = h := by
  cases v with
  | unsigned u =>
    unfold push
    split <;> rfl
  | array items => cases plain
  | object o => cases plain
  | type t => cases plain
  | _ => rfl

lemma pushAll_of_isPlain (h : Heap) (plain : ∀ v ∈ vs, isPlain v = true) :
    (pushAll h vs).2 = h := by
  induction vs with
  | nil => rfl
  | cons v rest ih =>
    have first := push_of_isPlain h (plain v List.mem_cons_self)
    have others := ih fun v mem => plain v (List.mem_cons_of_mem _ mem)
    unfold pushAll
    split
    · rename_i eq
      rw [eq] at first
      exact first
    · rename_i eq
      rw [eq] at first
      subst first
      split
      · rename_i eq
        rw [eq] at others
        exact others
      · rename_i eq
        rw [eq] at others
        exact others

lemma length_pushAll {made : List Value} (pushed : pushAll h vs = (.ok made, h')) :
    made.length = vs.length := by
  induction vs generalizing h made with
  | nil =>
    cases pushed
    rfl
  | cons v rest ih =>
    unfold pushAll at pushed
    split at pushed
    · cases pushed
    · split at pushed
      · cases pushed
      · rename_i others
        cases pushed
        exact congrArg (· + 1) (ih others)

/-- The values before the one that is refused were pushed. -/
lemma exists_refused (refused : pushAll h vs = (.error e, h')) :
    ∃ before v after made h₁, vs = before ++ v :: after ∧ pushAll h before = (.ok made, h₁) ∧
      push h₁ v = (.error e, h') := by
  induction vs generalizing h with
  | nil => cases refused
  | cons v rest ih =>
    unfold pushAll at refused
    split at refused
    · rename_i eq
      cases refused
      exact ⟨[], v, rest, [], h, rfl, rfl, eq⟩
    · rename_i w h' eq
      split at refused
      · rename_i others
        cases refused
        obtain ⟨before, v', after, made, h₁, rfl, pushed, refuses⟩ := ih others
        refine ⟨v :: before, v', after, w :: made, h₁, rfl, ?_, refuses⟩
        unfold pushAll
        rw [eq]
        dsimp only
        rw [pushed]
      · cases refused

lemma pushAll_of_refused {before after : List HostValue} {made : List Value} {h₁ : Heap}
    (pushed : pushAll h before = (.ok made, h₁)) (refused : push h₁ v = (.error e, h')) :
    pushAll h (before ++ v :: after) = (.error e, h') := by
  induction before generalizing h made with
  | nil =>
    cases pushed
    rw [List.nil_append, pushAll, refused]
  | cons u rest ih =>
    unfold pushAll at pushed
    split at pushed
    · cases pushed
    · rename_i first
      split at pushed
      · cases pushed
      · rename_i others
        cases pushed
        rw [List.cons_append, pushAll, first]
        dsimp only
        rw [ih others]

end Refusals

end ScriptBridge.Bridge

namespace ScriptBridge.Session

open Script Bridge Machine

/-- Why arguments are refused, and how far they had been pushed. The list is that of the arguments
that were looked at, the refused one included. -/
inductive Refuses (w : World) (args : List HostValue) :
    List HostValue → BridgeError → World → Prop
  /-- There are more of them than may be moved at once. -/
  | many (many : w.options.maxTransferValues < args.length) :
      Refuses w args [] (.insufficientStackSpace args.length w.options.maxTransferValues) w
  /-- One of them has no representation. -/
  | kind {before after : List HostValue} {v : HostValue} {made : List Value} {heap heap' : Heap}
      {text : String} (split : args = before ++ v :: after)
      (pushed : pushAll w.heap before = (.ok made, heap))
      (refused : push heap v = (.error (.unsupportedValueKind text), heap')) :
      Refuses w args (before ++ [v]) (.unsupportedValueKind text) { w with heap := heap' }
  /-- The engine has no room for all of them on the stack of the coroutine. -/
  | room {pushed : List Value} {w' : World} (pushes : w.pushMany args = (.ok pushed, w'))
      (cramped : w.engine.values < args.length) : Refuses w args args (.script .stackExhausted) w'

/-- Arguments were refused. The coroutine stays where it is, and there may be something new in the
heap for the arguments that were pushed, but nothing else has changed. -/
structure Refused (w : World) (thread : Nat) (p : Point) (args : List HostValue) (e : BridgeError)
    (w' : World) : Prop where
  stays : Waits w' thread p
  heap : ∃ heap, w.heap.Extends heap ∧ w' = { w with heap }
  reason : ∃ tried, Refuses w args tried e w' ∧ ((∀ v ∈ tried, isPlain v = true) → w' = w)

/-- Why the values of a halt do not reach the host, so that the resume fails. -/
inductive Drops (r : Resumption) (m : Machine) : BridgeError → Prop
  /-- They are more than may be moved at once. -/
  | many (room : r.values.length ≤ m.world.engine.values)
      (many : m.world.options.maxTransferValues < r.values.length) :
      Drops r m (.insufficientStackSpace r.values.length m.world.options.maxTransferValues)
  /-- They were yielded, and the engine has no room for them on the stack of the host. -/
  | room {vs : List Value} (yielded : r = .yielded vs)
      (cramped : m.world.engine.values < vs.length) : Drops r m (.script .stackExhausted)

/-- The function went on and came to a halt at which it handed out too many values. -/
structure Overran (w : World) (thread : Nat) (p : Point) (args : List HostValue) (e : BridgeError)
    (r : Resumption) (m : Machine) (w' : World) : Prop where
  turn : Turn w thread p args r m
  drops : Drops r m e
  halts : w'.thread thread = r.leaves m
  active : w'.active = w.active

section Failures

variable {w w' : World} {thread : Nat} {p : Point} {args : List HostValue} {e : BridgeError}

lemma exists_waits (reached : Reached w) (suspended : w.status thread = .suspended) :
    ∃ p, Waits w thread p := by
  have ok : w.checkResumable thread = .ok () := by
    rw [World.checkResumable, suspended]
  obtain ⟨p, stands⟩ := exists_point (waits_of_checkResumable ok)
  exact ⟨p, reached, not_mem_of_checkResumable ok, stands⟩

/-- Too many arguments are refused before any of them is pushed. -/
lemma pushMany_of_lt (many : w.options.maxTransferValues < args.length) :
    w.pushMany args
      = (.error (.insufficientStackSpace args.length w.options.maxTransferValues), w) := by
  unfold World.pushMany Bridge.pushMany checkTransfer
  rw [if_pos many]

lemma Waits.resume_error (waits : Waits w thread p) (refused : w.pushMany args = (.error e, w')) :
    resume w thread args = (.error e, w') := by
  unfold Session.resume
  rw [waits.checkResumable, refused]

/-- The coroutine is still suspended when the engine has refused its arguments, so that the resume
fails. -/
lemma Waits.resume_cramped {pushed : List Value} (waits : Waits w thread p)
    (pushes : w.pushMany args = (.ok pushed, w')) (cramped : w'.engine.values < pushed.length) :
    resume w thread args = (.error (.script .stackExhausted), w') := by
  have stands := (waits.push pushes).1.stands
  unfold Session.resume resumeThread
  rw [waits.checkResumable, pushes]
  dsimp only
  rw [if_pos cramped]
  dsimp only
  rw [outcomeOf, stands]
  cases p <;> rfl

/-- Arguments that are not too many are pushed one after the other. -/
lemma pushMany_of_le (transfer : args.length ≤ w.options.maxTransferValues) :
    w.pushMany args
      = ((pushAll w.heap args).1, { w with heap := (pushAll w.heap args).2 }) := by
  unfold World.pushMany Bridge.pushMany checkTransfer
  rw [if_neg (Nat.not_lt.2 transfer)]

lemma pushMany_cases (refused : w.pushMany args = (.error e, w')) :
    (w.options.maxTransferValues < args.length ∧
      e = .insufficientStackSpace args.length w.options.maxTransferValues ∧ w' = w) ∨
      ∃ heap, pushAll w.heap args = (.error e, heap) ∧ w' = { w with heap } := by
  by_cases many : w.options.maxTransferValues < args.length
  · rw [pushMany_of_lt many] at refused
    cases refused
    exact Or.inl ⟨many, rfl, rfl⟩
  · rw [pushMany_of_le (Nat.le_of_not_lt many)] at refused
    obtain ⟨failed, rfl⟩ := Prod.mk.inj refused
    exact Or.inr ⟨_, Prod.ext failed rfl, rfl⟩

lemma pushMany_ok {pushed : List Value} (pushes : w.pushMany args = (.ok pushed, w')) :
    ∃ heap, pushAll w.heap args = (.ok pushed, heap) ∧ w' = { w with heap } := by
  by_cases many : w.options.maxTransferValues < args.length
  · rw [pushMany_of_lt many] at pushes
    cases pushes
  · rw [pushMany_of_le (Nat.le_of_not_lt many)] at pushes
    obtain ⟨made, rfl⟩ := Prod.mk.inj pushes
    exact ⟨_, Prod.ext made rfl, rfl⟩

/-- Arguments that the bridge refuses. -/
lemma Waits.refused (waits : Waits w thread p) (refused : w.pushMany args = (.error e, w')) :
    Refused w thread p args e w' := by
  have stays := (waits.push refused).1
  rcases pushMany_cases refused with ⟨many, rfl, rfl⟩ | ⟨heap, failed, rfl⟩
  · exact ⟨stays, ⟨_, .refl _, rfl⟩, [], .many many, fun _ => rfl⟩
  · have extends' : w.heap.Extends heap := by
      have made := Heap.Extends.pushAll w.heap args
      rwa [failed] at made
    obtain ⟨text, rfl⟩ := pushAll_refuses _ _ failed
    obtain ⟨before, v, after, made, h₁, split, pushed, refuses⟩ := exists_refused failed
    refine ⟨stays, ⟨heap, extends', rfl⟩, _, .kind split pushed refuses, fun plain => ?_⟩
    have first := pushAll_of_isPlain w.heap fun u mem =>
      plain u (List.mem_append_left _ mem)
    have last := push_of_isPlain h₁ (plain v (List.mem_append_right _ List.mem_cons_self))
    rw [pushed] at first
    rw [refuses] at last
    subst last
    subst first
    rfl

/-- Arguments that the engine refuses. -/
lemma Waits.cramped {pushed : List Value} (waits : Waits w thread p)
    (pushes : w.pushMany args = (.ok pushed, w')) (cramped : w'.engine.values < pushed.length) :
    Refused w thread p args (.script .stackExhausted) w' := by
  have stays := (waits.push pushes).1
  obtain ⟨heap, made, rfl⟩ := pushMany_ok pushes
  have extends' : w.heap.Extends heap := by
    have grown := Heap.Extends.pushAll w.heap args
    rwa [made] at grown
  have length : pushed.length = args.length := length_pushAll made
  refine ⟨stays, ⟨heap, extends', rfl⟩, args, .room pushes (length ▸ cramped), fun plain => ?_⟩
  have same := pushAll_of_isPlain w.heap plain
  rw [made] at same
  subst same
  rfl

/-- Arguments that were pushed and have room are not refused. -/
lemma Refused.not_turn {r : Resumption} {m : Machine} (refused : Refused w thread p args e w') :
    ¬ Turn w thread p args r m := by
  rintro ⟨pushed, w₁, n, pushes, room, -⟩
  obtain ⟨tried, reason, -⟩ := refused.reason
  obtain ⟨heap, made, rfl⟩ := pushMany_ok pushes
  cases reason with
  | many many =>
    rw [pushMany_of_lt many] at pushes
    cases pushes
  | kind split pushed refuses =>
    rw [split, pushAll_of_refused pushed refuses] at made
    cases made
  | room pushes' cramped =>
    rw [length_pushAll made] at room
    exact absurd room (Nat.not_le_of_lt cramped)

/-- When the host is not told of a halt, the values of the halt were dropped. -/
lemma drops_of_told {r : Resumption} {m : Machine} (there : thread < m.world.threads.size)
    (failed : told thread r m = .error e) : Drops r m e := by
  by_cases room : r.values.length ≤ m.world.engine.values
  · by_cases transfer : r.values.length ≤ m.world.options.maxTransferValues
    · rw [told_of_fits there ⟨room, transfer⟩] at failed
      cases failed
    · have many := Nat.lt_of_not_le transfer
      rw [told_of_many room many] at failed
      cases failed
      exact .many room many
  · have cramped := Nat.lt_of_not_le room
    cases r with
    | yielded vs =>
      have dropped := (told_of_cramped there cramped).symm.trans failed
      cases dropped
      exact .room rfl cramped
    | returned vs =>
      have ended := (told_of_cramped_return there cramped).symm.trans failed
      cases ended
    | raised v => exact absurd cramped (Nat.not_lt_zero _)

/-- A failing resume of a suspended coroutine has refused the arguments, or the function handed out
too many values. -/
theorem resume_fails (reached : Reached w) (suspended : w.status thread = .suspended)
    (ended : ∀ pushed w₁, w.pushMany args = (.ok pushed, w₁) → pushed.length ≤ w₁.engine.values →
      (run w₁.engine.steps (resumed w₁ thread pushed)).1 ≠ .exhausted)
    (failed : resume w thread args = (.error e, w')) :
    ∃ p, w.thread thread = p.state ∧
      (Refused w thread p args e w' ∨ ∃ r m, Overran w thread p args e r m w') := by
  obtain ⟨p, waits⟩ := exists_waits reached suspended
  refine ⟨p, waits.stands, ?_⟩
  rcases pushes : w.pushMany args with ⟨answer, w₁⟩
  cases answer with
  | error e' =>
    rw [waits.resume_error pushes] at failed
    cases failed
    exact Or.inl (waits.refused pushes)
  | ok pushed =>
    by_cases room : pushed.length ≤ w₁.engine.values
    · -- The function ran and the host was not told: then its values were dropped.
      obtain ⟨r, m, turn⟩ := waits.exists_turn pushes room (ended pushed w₁ pushes room)
      obtain ⟨active, there, halts⟩ := turn.after waits
      rw [turn.resume waits] at failed
      obtain ⟨untold, rfl⟩ := Prod.mk.inj failed
      exact Or.inr ⟨r, m, turn, drops_of_told there untold, halts, active⟩
    · have cramped := Nat.lt_of_not_le room
      rw [waits.resume_cramped pushes cramped] at failed
      cases failed
      exact Or.inl (waits.cramped pushes cramped)

end Failures

section Bench

/-- A session that moves one value at a time, with a coroutine that returns two. -/
def lavish : World :=
  let w := create { maxTransferValues := 1 } (.build [] 0) []
  let (f, w) := makeFunction w [] false [.ret [.int 1, .int 2]]
  (createCoroutine w (.function f)).2

lemma reached_lavish : Reached lavish :=
  ((Reached.create _ [] [] 0 _ _).makeFunction _ _ _).createCoroutine _

lemma turn_lavish : ∃ m, Turn lavish 0 (.start (.function (.closure 0))) []
    (.returned [.int 1, .int 2]) m ∧
      told 0 (.returned [.int 1, .int 2]) m = .error (.insufficientStackSpace 2 1) :=
  ⟨_, ⟨_, _, _, rfl, by decide, .of_advance (n := 10) rfl (.returns rfl rfl), by decide⟩, rfl⟩

lemma waits_lavish : Waits lavish 0 (.start (.function (.closure 0))) :=
  ⟨reached_lavish, List.not_mem_nil, rfl⟩

/-- The values are lost, and the coroutine is dead. -/
lemma resume_lavish : (resume lavish 0 []).1 = .error (.insufficientStackSpace 2 1) ∧
    (resume lavish 0 []).2.status 0 = .dead := by
  obtain ⟨m, turn, untold⟩ := turn_lavish
  obtain ⟨active, -, halts⟩ := turn.after waits_lavish
  have out : 0 ∉ (after 0 (.returned [.int 1, .int 2]) m).active := by
    rw [active]
    exact List.not_mem_nil
  rw [turn.resume waits_lavish]
  refine ⟨untold, ?_⟩
  rw [status_of_not_mem out, World.status.halted, halts]
  rfl

/-- A session whose engine has room for one value on a stack, with a coroutine that yields two. -/
def narrow : World :=
  let w := create {} (.build [] 0) [] { Engine.standard with values := 1 }
  let (f, w) := makeFunction w ["yield"] false [.ret [.call (.name "yield") [.int 1, .int 2]]]
  (createCoroutine w (.function f)).2

lemma waits_narrow : Waits narrow 0 (.start (.function (.closure 0))) :=
  ⟨((Reached.create _ [] [] 0 _ _).makeFunction _ _ _).createCoroutine _, List.not_mem_nil, rfl⟩

lemma turn_narrow : ∃ m, Turn narrow 0 (.start (.function (.closure 0)))
    [.function (.builtin .coroutineYield)] (.yielded [.int 1, .int 2]) m ∧
      told 0 (.yielded [.int 1, .int 2]) m = .error (.script .stackExhausted) :=
  ⟨_, ⟨_, _, _, rfl, by decide,
    .of_advance (n := 13) rfl (.yields ⟨rfl, rfl, rfl, by decide⟩ rfl), by decide⟩, rfl⟩

/-- A session with a coroutine that makes a text of what it is given. -/
def naming : World :=
  (createCoroutine bench (.function (.builtin .tostring))).2

/-- The session after arguments were refused of which the first had been pushed. -/
def littered : World :=
  (naming.pushMany [.object device, .big 1]).2

lemma waits_naming : Waits naming 0 (.start (.function (.builtin .tostring))) :=
  ⟨reached_bench.createCoroutine _, List.not_mem_nil, rfl⟩

lemma waits_littered : Waits littered 0 (.start (.function (.builtin .tostring))) :=
  ⟨waits_naming.reached.pushMany _, List.not_mem_nil, rfl⟩

lemma turn_naming : ∃ m, Turn naming 0 (.start (.function (.builtin .tostring))) [.object device]
    (.returned [.str "Meter: 0v0".toUTF8]) m ∧
      (Resumption.returned [.str "Meter: 0v0".toUTF8]).Fits m :=
  ⟨_, ⟨_, _, _, rfl, by decide, .of_advance (n := 1) rfl (.returns rfl rfl), by decide⟩,
    by decide, by decide⟩

lemma turn_littered :
    ∃ m, Turn littered 0 (.start (.function (.builtin .tostring))) [.object device]
      (.returned [.str "Meter: 1v0".toUTF8]) m ∧
        (Resumption.returned [.str "Meter: 1v0".toUTF8]).Fits m :=
  ⟨_, ⟨_, _, _, rfl, by decide, .of_advance (n := 1) rfl (.returns rfl rfl), by decide⟩,
    by decide, by decide⟩

/-- The host is handed the text that a coroutine returns. -/
lemma resume_text {w : World} {p : Point} {args : List HostValue} {m : Machine} {text : String}
    (waits : Waits w 0 p) (turn : Turn w 0 p args (.returned [.str text.toUTF8]) m)
    (fits : (Resumption.returned [.str text.toUTF8]).Fits m) :
    (resume w 0 args).1 = .ok (.returned [.str text]) := by
  have there := (turn.after waits).2.1
  rw [turn.resume waits, told_of_fits there fits]
  show Except.ok (ResumeOutcome.returned [.str (Text.decode text.toUTF8)]) = _
  rw [Text.decode_toUTF8]

/-- The coroutine that returns too many values has run, and what it returned is lost. Arguments
that were refused can make a difference for texts with the numbers of handles. -/
theorem failing_resumes :
    (Reached lavish ∧ lavish.status 0 = .suspended ∧
      (resume lavish 0 []).1 = .error (.insufficientStackSpace 2 1) ∧
      (resume lavish 0 []).2.status 0 = .dead) ∧
    Reached naming ∧ naming.status 0 = .suspended ∧
      (∃ e, resume naming 0 [.object device, .big 1] = (.error e, littered)) ∧
      (resume naming 0 [.object device]).1 = .ok (.returned [.str "Meter: 0v0"]) ∧
      (resume littered 0 [.object device]).1 = .ok (.returned [.str "Meter: 1v0"]) := by
  refine ⟨⟨reached_lavish, rfl, resume_lavish⟩, waits_naming.reached, rfl, ⟨_, rfl⟩, ?_, ?_⟩
  · obtain ⟨m, turn, fits⟩ := turn_naming
    exact resume_text waits_naming turn fits
  · obtain ⟨m, turn, fits⟩ := turn_littered
    exact resume_text waits_littered turn fits

/-- Without arguments the coroutine runs and hands out too many values; too many arguments are
refused. The engine drops what is yielded and refuses arguments in the same way. -/
theorem lavish_fails :
    (∃ p r m, Overran lavish 0 p [] (.insufficientStackSpace 2 1) r m (resume lavish 0 []).2) ∧
      (∃ p, Refused lavish 0 p [.nil, .nil] (.insufficientStackSpace 2 1) lavish) ∧
      (∃ p r m, Overran narrow 0 p [.function (.builtin .coroutineYield)] (.script .stackExhausted)
        r m (resume narrow 0 [.function (.builtin .coroutineYield)]).2) ∧
      ∃ p, Refused narrow 0 p [.nil, .nil] (.script .stackExhausted)
        (resume narrow 0 [.nil, .nil]).2 := by
  refine ⟨?_, ?_, ?_, ?_⟩
  · obtain ⟨m, turn, -⟩ := turn_lavish
    obtain ⟨p, stands, refused | ⟨r, m, overran⟩⟩ := resume_fails reached_lavish rfl
      (fun _ _ pushes _ => turn.ended waits_lavish pushes) (Prod.ext resume_lavish.1 rfl)
    · have point := Point.eq_of_state (waits_lavish.stands.symm.trans stands)
      exact absurd turn (point ▸ refused.not_turn)
    · exact ⟨p, r, m, overran⟩
  · have refuses : lavish.pushMany [.nil, .nil]
        = (.error (.insufficientStackSpace 2 1), lavish) := pushMany_of_lt (Nat.lt_succ_self 1)
    obtain ⟨p, -, refused | ⟨r, m, overran⟩⟩ := resume_fails reached_lavish rfl
      (fun pushed w' pushes => by rw [refuses] at pushes; cases pushes)
      (waits_lavish.resume_error refuses)
    · exact ⟨p, refused⟩
    · obtain ⟨pushed, w', n, pushes, -⟩ := overran.turn
      rw [refuses] at pushes
      cases pushes
  · obtain ⟨m, turn, untold⟩ := turn_narrow
    have fails := turn.resume waits_narrow
    rw [untold] at fails
    obtain ⟨p, stands, refused | ⟨r, m, overran⟩⟩ := resume_fails waits_narrow.reached rfl
      (fun _ _ pushes _ => turn.ended waits_narrow pushes) fails
    · have point := Point.eq_of_state (waits_narrow.stands.symm.trans stands)
      exact absurd turn (point ▸ refused.not_turn)
    · rw [fails]
      exact ⟨p, r, m, overran⟩
  · obtain ⟨heap, pushes⟩ : ∃ heap, narrow.pushMany [.nil, .nil]
        = (.ok [.nil, .nil], { narrow with heap }) := ⟨_, rfl⟩
    have cramped : narrow.engine.values < [Value.nil, .nil].length := by decide
    have fails := waits_narrow.resume_cramped pushes cramped
    obtain ⟨p, -, refused | ⟨r, m, overran⟩⟩ := resume_fails waits_narrow.reached rfl
      (fun pushed w' pushes' room => by
        rw [pushes] at pushes'
        cases pushes'
        exact absurd room (Nat.not_le_of_lt cramped)) fails
    · rw [fails]
      exact ⟨p, refused⟩
    · obtain ⟨pushed, w', n, pushes', room, -⟩ := overran.turn
      rw [pushes] at pushes'
      cases pushes'
      exact absurd room (Nat.not_le_of_lt cramped)

end Bench

end ScriptBridge.Session
