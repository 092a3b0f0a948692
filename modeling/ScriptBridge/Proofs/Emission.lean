import ScriptBridge.Proofs.Reach
import ScriptBridge.Proofs.StoreFrame

/-!
# Emitting an event

A body that emits an event calls the handlers that the event had when it began, one after the other,
whatever the handlers do to the event meanwhile. A run is listened to from where the body is about
to emit, up to where the stack is back at that height: the calls that are made when it is the
emission's turn are those of the emission, and what handlers call above it is theirs.
-/

namespace ScriptBridge.Machine

open Script Bridge

/-- A function and its arguments. -/
abbrev HandlerCall := Value × List Value

/-- The call that is made now directly above the frame of an emission at the height. -/
def callsAt (height : Nat) (m : Machine) : List HandlerCall :=
  match m.control with
  | .call f args => if m.stack.length == height + 1 then [(f, args)] else []
  | _ => []

/-- It is the turn of the emission at the height: it begins, or a handler has returned to it. -/
def isTurn (height : Nat) (m : Machine) : Bool :=
  match m.control, m.stack with
  | .body .., stack => stack.length == height
  | .values _, .emitting .. :: rest => rest.length == height
  | _, _ => false

/-- What was heard of a run. -/
inductive Heard
  /-- The emission is not over yet. -/
  | sounding (calls : List HandlerCall)
  /-- The emission was over with the step from one machine to the other. -/
  | complete (calls : List HandlerCall) (last ended : Machine)
  /-- The run was over before the emission. -/
  | lost

/-- The calls that were heard. -/
def Heard.calls : Heard → List HandlerCall
  | sounding calls | complete calls .. => calls
  | lost => []

/-- What was heard after these calls. -/
def Heard.after (calls : List HandlerCall) : Heard → Heard
  | sounding calls' => sounding (calls ++ calls')
  | complete calls' last ended => complete (calls ++ calls') last ended
  | lost => lost

/-- Listens to a run for so many steps at most. -/
def hear (height : Nat) : Nat → Machine → Heard
  | 0, _ => .sounding []
  | fuel + 1, m =>
    match step m with
    | .halted .. => .lost
    | .running m' =>
      let calls := if isTurn height m then callsAt height m' else []
      if m'.stack.length ≤ height then .complete calls m m' else (hear height fuel m').after calls

/-- The emission of a value for an event. -/
structure Emission where
  inv : Invocation
  holder : Holder
  event : String
  arg : Value
  /-- The handlers that it is to call. -/
  handlers : List Routine
  /-- The frames below. -/
  below : List Frame

namespace Emission

variable (e : Emission)

/-- The frame of the emission while these handlers are left to be called. -/
def frame (left : List Routine) : Frame :=
  .emitting e.inv e.holder e.event left e.arg

def calls (called : List Routine) : List HandlerCall :=
  called.map fun f => (.function f, [e.arg])

/-- A machine gives up on a value that nothing above the frame of the emission catches. -/
def Raises (left : List Routine) (v : Value) (m : Machine) : Prop :=
  m.control = .raising v ∧ ∃ above, m.stack = above ++ e.frame left :: e.below ∧
    ∀ f ∈ above, f.catches = false

/-- How the emission may go: the handlers are called in order, each with the one value, until all
have returned or one of them raises. -/
inductive Goes : Heard → Prop
  | sounding {called left : List Routine} (split : e.handlers = called ++ left) :
      Goes (.sounding (e.calls called))
  /-- All returned, and the body ends with the number of handlers that the event has now. -/
  | returned {last ended : Machine} (stack : ended.stack = e.below)
      (control : ended.control = .finished (.int (Int64.ofNat
        (ended.world.store.handlers e.holder e.event).length)) e.inv) :
      Goes (.complete (e.calls e.handlers) last ended)
  /-- The handler called last raised, and its error is the one of the emission. -/
  | raised {called left : List Routine} {f : Routine} {last ended : Machine} {v : Value}
      (split : e.handlers = called ++ f :: left) (raises : e.Raises left v last)
      (stack : ended.stack = e.below)
      (control : ended.control = .failed (.failed (last.world.scriptError v).text)) :
      Goes (.complete (e.calls (called ++ [f])) last ended)

end Emission

/-- The emission that a body is about to begin. -/
def emission? (m : Machine) : Option Emission :=
  match m.control with
  | .body b inv =>
    match (startBody m.world.store inv b).1 with
    | .emit holder event v => some
        { inv, holder, event
          arg := handlerArgument v
          handlers := m.world.store.handlers holder event
          below := m.stack }
    | _ => none
  | _ => none

section Ground

variable {e : Emission} {left : List Routine} {m m' : Machine}

/-- Calls may be made above the frame of an emission. -/
lemma ground_emitting (e : Emission) (left : List Routine) :
    Ground (e.frame left :: e.below) .values :=
  ⟨Mode.noConfusion, rfl⟩

/-- No coroutine is left past the frame of an emission, which holds a yield back and catches. -/
lemma Departs.ne_emitting {thread outer : Nat} {by_ : Resumer} {around : Option Nat}
    {r : Resumption} {fs inside : List Frame} (departs : Departs m thread by_ r (fs ++ inside) m')
    (below : e.frame left :: e.below = inside ++ .resumed thread by_ outer around :: m'.stack) :
    False := by
  have mem : e.frame left ∈ fs ++ inside := by
    cases inside with
    | nil => cases below
    | cons f inside =>
      rw [(List.cons.inj below).1]
      exact List.mem_append_right fs List.mem_cons_self
  obtain ⟨w, t, -, leaves, -⟩ := departs.world
  cases r <;> cases t <;> first
    | exact leaves
    | exact Bool.noConfusion (leaves.2 _ mem)
    | exact Bool.noConfusion (leaves _ mem)
    | cases (leaves ▸ mem : e.frame left ∈ [])

/-- Where values arrive below the work above an emission, all handlers called have returned; what
is caught there the handler has raised. -/
lemma exits_emitting (exits : Exits (e.frame left :: e.below) .values m) :
    (∃ vs, m.control = .values vs ∧ m.stack = e.frame left :: e.below) ∨
      ∃ v, e.Raises left v m := by
  cases exits with
  | arrives control stack => exact .inl ⟨_, control, stack⟩
  | departs departs sound below => exact (departs.ne_emitting below).elim
  | @catches v mode fs inside rest f control stack below leads plain clear free =>
    cases inside with
    | nil => exact .inr ⟨v, control, fs, stack, clear⟩
    | cons g inside =>
      obtain ⟨rfl, -⟩ := List.cons.inj below
      cases free _ List.mem_cons_self

/-- There is a guard for every body. -/
lemma Leads.exists_guard {left : Invocation} {fs : List Frame}
    (h : Leads (.body left) fs .values) : ∃ above context finish below left',
      fs = above ++ .guard context finish :: below ∧ Leads (.body left) above (.body left') := by
  induction fs generalizing left with
  | nil => cases h
  | cons f rest ih =>
    obtain ⟨awaits, inner, h⟩ := h
    cases f with
    | guard context finish => exact ⟨[], context, finish, rest, left, rfl, rfl⟩
    | steps bodies =>
      obtain ⟨above, context, finish, below, left', rfl, leads⟩ := ih h
      exact ⟨_ :: above, context, finish, below, left', rfl, rfl, rfl, leads⟩
    | holding o mode =>
      obtain ⟨above, context, finish, below, left', rfl, leads⟩ := ih h
      exact ⟨_ :: above, context, finish, below, left', rfl, rfl, rfl, leads⟩
    | _ => cases awaits

/-- A body that is not at its end goes on above its guard. -/
lemma guarded_step {outer : List Frame} {context : String} {finish : Finish} {after : Invocation}
    (within : Within (.guard context finish :: outer) (.body after) m)
    (working : ¬ Done (.guard context finish :: outer) m) :
    ∃ m', step m = .running m' ∧ Within (.guard context finish :: outer) (.body after) m' := by
  have stays := step_within (.guard context finish outer after) within working
  cases stepped : step m with
  | running m' =>
    rw [stepped] at stays
    exact ⟨m', rfl, stays⟩
  | halted o w =>
    rw [stepped] at stays
    cases stays.1

/-- The body that emits stands above a guard. -/
def Guarded (below : List Frame) (m : Machine) : Prop :=
  ∃ above context finish outer after, below = above ++ .guard context finish :: outer ∧
    Within (.guard context finish :: outer) (.body after) m

lemma Guarded.step {below : List Frame} (h : Guarded below m)
    (working : m.control.Ends → below.length < m.stack.length) :
    ∃ m', Machine.step m = .running m' ∧ Guarded below m' := by
  obtain ⟨above, context, finish, outer, after, eq, within⟩ := h
  have inside : ¬ Done (.guard context finish :: outer) m := by
    rintro ⟨same, ended⟩
    have lt := working ended
    rw [same, eq, List.length_append] at lt
    omega
  obtain ⟨m', stepped, within'⟩ := guarded_step within inside
  exact ⟨m', stepped, above, context, finish, outer, after, eq, within'⟩

/-- A handler runs, and these are left to be called. -/
structure Sounds (e : Emission) (left : List Routine) (m : Machine) : Prop where
  above : Within (e.frame left :: e.below) .values m
  guarded : Guarded e.below m

lemma Sounds.length_lt (h : Sounds e left m) : e.below.length < m.stack.length := by
  obtain ⟨mode, ⟨-, fs, stack, -⟩, -⟩ := h.above
  rw [stack, List.length_append, List.length_cons]
  omega

/-- Nothing above the frame catches the value. -/
lemma Emission.Raises.step {v : Value} (raises : e.Raises left v m) : ∃ m',
    Machine.step m = .running m' ∧ m'.stack = e.below ∧
      m'.control = .failed (.failed (m.world.scriptError v).text) := by
  obtain ⟨control, above, stack, clear⟩ := raises
  have cut : m.stack.span (!·.catches) = (above, e.frame left :: e.below) := by
    rw [stack, span_first clear rfl]
  unfold Machine.step
  rw [control]
  dsimp only
  unfold raised
  rw [cut]
  exact ⟨_, rfl, rfl, rfl⟩

/-- A step while a handler runs: the handler has returned, it gives up on a value, or it goes on. -/
lemma Sounds.step_cases (h : Sounds e left m) :
    (∃ vs, m.control = .values vs ∧ m.stack = e.frame left :: e.below) ∨
      (∃ v, e.Raises left v m) ∨
      ∃ m', step m = .running m' ∧ Sounds e left m' ∧ isTurn e.below.length m = false := by
  by_cases arrived : ∃ vs, m.control = .values vs ∧ m.stack = e.frame left :: e.below
  · exact Or.inl arrived
  by_cases uncaught : ∃ v, e.Raises left v m
  · exact Or.inr (Or.inl uncaught)
  obtain ⟨mode, at_, fits⟩ := id h.above
  obtain ⟨fs, stack, -⟩ := at_.stack
  have stays : Stays (e.frame left :: e.below) .values (Machine.step m) := by
    rcases step_above (ground_emitting e left) h.above (Session.not_done h.above) with
      stays | exits
    · exact stays
    · rcases exits_emitting exits with returned | raised
      · exact absurd returned arrived
      · exact absurd raised uncaught
  obtain ⟨m', stepped, guarded⟩ := h.guarded.step fun _ => h.length_lt
  rw [stepped] at stays
  refine Or.inr (Or.inr ⟨m', stepped, ⟨stays, guarded⟩, ?_⟩)
  unfold isTurn
  split
  · exact beq_false_of_ne (Nat.ne_of_gt h.length_lt)
  · rename_i vs _ _ _ _ _ rest control top
    refine beq_false_of_ne fun same => arrived ⟨vs, control, ?_⟩
    have lengths := congrArg List.length (top.symm.trans stack)
    rw [List.length_append, List.length_cons, List.length_cons, same] at lengths
    have nothing : fs = [] := List.length_eq_zero_iff.1 (by omega)
    rw [stack, nothing, List.nil_append]
  · rfl

end Ground

section Walk

variable {e : Emission} {left : List Routine} {m m' : Machine}

lemma Heard.after_after (calls more : List HandlerCall) (heard : Heard) :
    (heard.after more).after calls = heard.after (calls ++ more) := by
  cases heard <;> simp [Heard.after]

lemma Heard.after_nil (heard : Heard) : heard.after [] = heard := by
  cases heard <;> rfl

lemma Heard.sounding_after (calls : List HandlerCall) :
    (sounding []).after calls = sounding calls :=
  congrArg sounding (List.append_nil calls)

lemma Heard.complete_after (calls : List HandlerCall) (last ended : Machine) :
    (complete [] last ended).after calls = complete calls last ended :=
  congrArg (complete · last ended) (List.append_nil calls)

lemma Emission.calls_append (e : Emission) (called more : List Routine) :
    e.calls (called ++ more) = e.calls called ++ e.calls more :=
  List.map_append

/-- The emission goes on with the next handler, or ends. -/
lemma step_arrived {vs : List Value} (control : m.control = .values vs)
    (stack : m.stack = e.frame left :: e.below) :
    step m = .running
      (emitNext { m with stack := e.below } e.inv e.holder e.event e.arg left) := by
  unfold step popped
  rw [control, stack]
  rfl

/-- The next handler is called above the frame of the emission. -/
lemma emitNext_cons (m : Machine) (f : Routine) :
    emitNext m e.inv e.holder e.event e.arg (f :: left)
      = m.push (e.frame left) (.call (.function f) [e.arg]) :=
  rfl

lemma hear_complete {height : Nat} (fuel : Nat) (stepped : step m = .running m')
    (quiet : callsAt height m' = []) (back : m'.stack.length ≤ height) :
    hear height (fuel + 1) m = .complete [] m m' := by
  unfold hear
  rw [stepped]
  dsimp only
  rw [if_pos back, quiet, ite_self]

lemma hear_on {height : Nat} (fuel : Nat) (stepped : step m = .running m')
    (above : height < m'.stack.length) : hear height (fuel + 1) m
      = (hear height fuel m').after (if isTurn height m then callsAt height m' else []) := by
  rw [hear, stepped]
  exact if_neg (Nat.not_le.2 above)

/-- Calling the next handler is heard, and it runs from then on. -/
lemma hear_next {below : Machine} (stack : below.stack = e.below)
    (turn : isTurn e.below.length m = true) (fuel : Nat) {f : Routine}
    (stepped : step m = .running (below.push (e.frame left) (.call (.function f) [e.arg]))) :
    hear e.below.length (fuel + 1) m
      = (hear e.below.length fuel
          (below.push (e.frame left) (.call (.function f) [e.arg]))).after (e.calls [f]) := by
  have length : (below.push (e.frame left) (.call (.function f) [e.arg])).stack.length
      = e.below.length + 1 := congrArg (·.length + 1) stack
  rw [hear_on fuel stepped (by omega), if_pos turn]
  congr 1
  exact if_pos (beq_iff_eq.2 length)

/-- A handler that was just called runs. -/
lemma sounds_called (below : Machine) (sound : below.world.Sound) (stack : below.stack = e.below)
    (f : Routine) (guarded : ∃ m', step m = .running m' ∧ Guarded e.below m')
    (stepped : step m = .running (below.push (e.frame left) (.call (.function f) [e.arg]))) :
    Sounds e left (below.push (e.frame left) (.call (.function f) [e.arg])) := by
  refine ⟨⟨.values, ⟨sound, [], congrArg (e.frame left :: ·) stack, rfl⟩, rfl⟩, ?_⟩
  obtain ⟨m', stepped', guarded⟩ := guarded
  cases stepped.symm.trans stepped'
  exact guarded

/-- What is heard from where the handler called last runs. -/
lemma goes_hear {called : List Routine} {f : Routine}
    (fuel : Nat) (h : Sounds e left m) (split : e.handlers = called ++ f :: left) :
    e.Goes ((hear e.below.length fuel m).after (e.calls (called ++ [f]))) := by
  induction fuel generalizing m called f left with
  | zero =>
    rw [hear, Heard.sounding_after]
    exact .sounding (split.trans (List.append_cons called f left))
  | succ fuel ih =>
    rcases h.step_cases with ⟨vs, control, stack⟩ | ⟨v, raises⟩ | ⟨m', stepped, sounds, turn⟩
    · have stepped := step_arrived control stack
      cases left with
      | nil =>
        have heard : hear e.below.length (fuel + 1) m = .complete [] m _ :=
          hear_complete fuel stepped rfl (Nat.le_refl _)
        rw [heard, Heard.complete_after, ← split]
        exact .returned rfl rfl
      | cons g left =>
        have turn : isTurn e.below.length m = true := by
          unfold isTurn
          rw [control, stack]
          exact beq_self_eq_true _
        obtain ⟨mode, at_, -⟩ := id h.above
        rw [emitNext_cons] at stepped
        rw [hear_next rfl turn fuel stepped, Heard.after_after, ← e.calls_append]
        have sounds := sounds_called { m with stack := e.below } at_.world rfl g
          (h.guarded.step fun _ => h.length_lt) stepped
        exact ih sounds (split.trans (List.append_cons called f (g :: left)))
    · obtain ⟨m', stepped, stack, control⟩ := raises.step
      have quiet : callsAt e.below.length m' = [] := by
        unfold callsAt
        rw [control]
      rw [hear_complete fuel stepped quiet (Nat.le_of_eq (congrArg List.length stack)),
        Heard.complete_after]
      exact .raised split raises stack control
    · rw [hear_on fuel stepped sounds.length_lt, turn, if_neg Bool.false_ne_true, Heard.after_nil]
      exact ih sounds split

end Walk

section Begin

variable {e : Emission} {m : Machine}

lemma ended_ne_emit {s s' : Store} {result : BodyEnd} {holder : Holder} {event : String}
    {v : HostValue} : ended s result ≠ (.emit holder event v, s') := by
  intro same
  cases result <;> cases same

/-- Beginning an emission leaves the data as it is. -/
lemma startBody_emit {s s' : Store} {inv : Invocation} {b : Body} {holder : Holder}
    {event : String} {v : HostValue} (begins : startBody s inv b = (.emit holder event v, s')) :
    s' = s := by
  cases b with
  | emit name o =>
    unfold startBody at begins
    dsimp only at begins
    split at begins
    · cases begins
      rfl
    · split at begins
      · cases begins
        rfl
      · cases begins
  | callBack i args =>
    unfold startBody at begins
    dsimp only at begins
    split at begins <;> cases begins
  | hold mode body =>
    unfold startBody at begins
    dsimp only at begins
    split at begins
    · cases begins
    · split at begins <;> cases begins
  | environment i =>
    unfold startBody at begins
    dsimp only at begins
    split at begins <;> cases begins
  | _ => first
    | exact absurd begins ended_ne_emit
    | cases begins

/-- The first step calls the first handler, or ends the body where there is none. -/
lemma step_emission (begins : emission? m = some e) :
    step m = .running (emitNext m e.inv e.holder e.event e.arg e.handlers) ∧
      e.below = m.stack ∧ ∃ b, m.control = .body b e.inv := by
  unfold emission? at begins
  split at begins
  · rename_i b inv control
    split at begins
    · rename_i holder event v started
      cases begins
      refine ⟨?_, rfl, b, control⟩
      have begins : startBody m.world.store inv b = (.emit holder event v, m.world.store) := by
        have same := startBody_emit (Prod.ext started rfl)
        exact Prod.ext started same
      unfold step
      rw [control]
      dsimp only
      unfold runBody
      rw [begins]
      rfl
    · cases begins
  · cases begins

end Begin

end ScriptBridge.Machine

namespace ScriptBridge.Session

open Script Bridge Machine

/-- A body that a visited machine is about to run stands above its guard. -/
lemma Visited.guarded {m : Machine} (h : Visited m) {b : Body} {inv : Invocation}
    (control : m.control = .body b inv) : Guarded m.stack m := by
  cases h.settled with
  | @working base floor within =>
    obtain ⟨mode, ⟨sound, fs, stack, leads⟩, fits⟩ := id within
    have fits' := fits
    rw [control] at fits'
    cases fits'
    obtain ⟨above, context, finish, below, left, rfl, first⟩ := leads.exists_guard
    rw [List.append_assoc, List.cons_append] at stack
    exact ⟨above, context, finish, below ++ base, left, stack,
      ⟨_, ⟨sound, above, stack, first⟩, fits⟩⟩
  | resuming sound stack resuming =>
    rw [control] at resuming
    cases resuming

/-- A body that emits an event calls the handlers that the event had, in order, and the first one
that raises ends it. -/
theorem Visited.goes {m : Machine} (h : Visited m) {e : Emission} (begins : emission? m = some e)
    (fuel : Nat) : e.Goes (hear m.stack.length fuel m) := by
  obtain ⟨stepped, below, b, control⟩ := step_emission begins
  rw [← below]
  cases fuel with
  | zero => exact .sounding (List.nil_append e.handlers).symm
  | succ fuel =>
    cases handlers : e.handlers with
    | nil =>
      have ended : e.Goes (.complete (e.calls e.handlers) m
          (emitNext m e.inv e.holder e.event e.arg [])) := .returned below.symm rfl
      rw [handlers] at stepped ended
      rw [hear_complete fuel stepped rfl (Nat.le_of_eq (congrArg List.length below.symm))]
      exact ended
    | cons f left =>
      rw [handlers] at stepped
      have turn : isTurn e.below.length m = true := by
        unfold isTurn
        rw [control, below]
        exact beq_self_eq_true _
      have working : m.control.Ends → e.below.length < m.stack.length := by
        rw [control]
        exact False.elim
      rw [emitNext_cons] at stepped
      have guarded := h.guarded control
      rw [← below] at guarded
      have sounds := sounds_called m h.settled.world below.symm f (guarded.step working) stepped
      rw [hear_next below.symm turn fuel stepped]
      exact goes_hear fuel sounds (handlers.trans (List.nil_append _).symm)

end ScriptBridge.Session
