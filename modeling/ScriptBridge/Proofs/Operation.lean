import Mathlib.Tactic.Lemma
import ScriptBridge.Proofs.Reach
import ScriptBridge.Proofs.Rejection

/-!
# What an operation runs

An operation is performed by resolving it and running the host code that it was resolved to. A run
of the machine is watched from the height of the stack at which the operation began, up to where
the stack is back at that height with a result: whatever host code starts at the height is run by
the operation directly, and host code started above it is run by scripts that a method body waits
for. What the caller is handed then, and the data of the host, are what the one run of the resolved
host code came to.
-/

namespace ScriptBridge.Bridge

/-- What a body is at at once, if it waits for nothing. -/
def BodyStep.end? : BodyStep → Option Machine.Control
  | finished v inv => some (.finished v inv)
  | failed failure => some (.failed failure)
  | _ => none

end ScriptBridge.Bridge

namespace ScriptBridge.Machine

open Script Bridge

/-- What host code comes to. -/
abbrev HostResult := Except HostFailure HostValue

section Specification

/-- The second machine is the first one some steps later, and there was work above so many frames
all the time. -/
inductive RunsAbove (height : Nat) (m : Machine) : Machine → Prop
  | here : RunsAbove height m m
  | step {m' m'' : Machine} (h : RunsAbove height m m') (stepped : step m' = .running m'')
      (above : height < m''.stack.length) : RunsAbove height m m''

/-- A machine that begins to run a method: the call is logged, and the body is to be run above its
guard. -/
def begun (m : Machine) (inv : Invocation) (finish : Finish) : Machine :=
  { m with
    world := { m.world with
      store := m.world.store.addLog (inv.logEntry m.heap m.world.store) }
    stack := .guard inv.context finish :: m.stack
    control := .body inv.member.item.body inv }

/-- The body of a method has run from its beginning up to its guard, and ends there. A body that
waits for nothing ends as it starts, and leaves the data as its start does. -/
structure BodyRun (m : Machine) (inv : Invocation) (finish : Finish) (n : Machine) : Prop where
  runs : RunsAbove m.stack.length (begun m inv finish) n
  stack : n.stack = .guard inv.context finish :: m.stack
  atOnce : ∀ piece store c,
    startBody (begun m inv finish).world.store inv inv.member.item.body = (piece, store) →
      piece.end? = some c → n.control = c ∧ n.world.store = store

/-- One run of host code: the result that it comes to, the data of the host after it, and the
machine in which its caller is handed the value, or the failure under the name of the code. -/
inductive HostRun (m : Machine) (finish : Finish) : HostCode → HostResult → Store → Machine → Prop
  | got {target : Target} {name : String} {accessor : Accessor} {v : HostValue} {store : Store}
      (ran : runAccessor m.heap m.world.store target.object? accessor = (.ok v, store)) :
      HostRun m finish (.access target name accessor) (.ok v) store
        (deliverAs (m.withStore store) finish v)
  | refused {target : Target} {name : String} {accessor : Accessor} {failure : HostFailure}
      {store : Store}
      (ran : runAccessor m.heap m.world.store target.object? accessor = (.error failure, store)) :
      HostRun m finish (.access target name accessor) (.error failure) store
        (raiseFailure (m.withStore store) (target.memberContext name) failure)
  | returned {inv left : Invocation} {n : Machine} {v : HostValue} (ran : BodyRun m inv finish n)
      (control : n.control = .finished v left) :
      HostRun m finish (.method inv) (.ok v) n.world.store
        (deliverResults { n with stack := m.stack } finish v left)
  | failed {inv : Invocation} {n : Machine} {failure : HostFailure} (ran : BodyRun m inv finish n)
      (control : n.control = .failed failure) :
      HostRun m finish (.method inv) (.error failure) n.world.store
        (raiseFailure { n with stack := m.stack } inv.context failure)

/-- A bridge error is raised into the script, as the host finds it again. -/
def Raises (m : Machine) (e : BridgeError) : Prop :=
  ∃ v, m.control = .raising v ∧ m.world.scriptError v = .callback e.raise

/-- The host code that starts now, directly above so many frames. -/
def startsAt (height : Nat) (m : Machine) : List HostCode :=
  match m.control with
  | .host code _ => if m.stack.length == height then [code] else []
  | _ => []

/-- Whether the stack is back at its height and no host code is left to run there. -/
def isBack (height : Nat) (m : Machine) : Bool :=
  m.stack.length == height && match m.control with
    | .host .. => false
    | _ => true

/-- What was seen of a run. -/
inductive Watched
  /-- The host code started at the height, and the machine back there. -/
  | returned (codes : List HostCode) (m : Machine)
  | unfinished
  /-- The run was over before the machine was back. -/
  | lost

def Watched.after (codes : List HostCode) : Watched → Watched
  | returned codes' m => returned (codes ++ codes') m
  | other => other

/-- Watches a run for so many steps at most. -/
def watch (height : Nat) : Nat → Machine → Watched
  | 0, _ => .unfinished
  | fuel + 1, m =>
    if isBack height m then .returned [] m
    else match step m with
      | .running m' => (watch height fuel m').after (startsAt height m)
      | .halted .. => .lost

/-- Host code that is about to run was watched: it has run once, and nothing else at its height. -/
inductive RunsOnce (m : Machine) (finish : Finish) (code : HostCode) : Watched → Prop
  | ran {result : HostResult} {store : Store} {m' : Machine}
      (ran : HostRun m finish code result store m') : RunsOnce m finish code (.returned [code] m')
  | unfinished : RunsOnce m finish code .unfinished

/-- How an operation may go. -/
inductive Once (m : Machine) (finish : Finish) (op : Operation) : Watched → Prop
  /-- Rejected: no host code ran, the data of the host is as it was, and the error is none of host
  code. -/
  | rejected {e : BridgeError} {m' : Machine} (planned : op.plan m.world = .error e)
      (rejection : e.IsRejection) (raises : m'.Raises e)
      (untouched : m'.world.store = m.world.store) : Once m finish op (.returned [] m')
  /-- Exactly one piece of host code ran, and only once. What it came to is what the operation comes
  to, a failure under the name of the code, and the data is as its run left it. -/
  | ran {code : HostCode} {result : HostResult} {store : Store} {m' : Machine}
      (planned : op.plan m.world = .ok code)
      (ran : HostRun (perform m finish op) finish code result store m')
      (raises : ∀ failure, result = .error failure →
        ∃ trace, m'.Raises (.hostInvocation code.context failure.message trace))
      (kept : m'.world.store = store) : Once m finish op (.returned [code] m')
  | unfinished : Once m finish op .unfinished

end Specification

section Handing

variable (m : Machine)

lemma raiseError_store (e : ScriptError) : (m.raiseError e).world.store = m.world.store :=
  rfl

/-- What is raised is found again. -/
lemma raises_raiseBridge (e : BridgeError) : (m.raiseBridge e).Raises e := by
  refine ⟨_, rfl, ?_⟩
  have raised : (m.heap.newUserdata (.failure (.callback e.raise))).2.userdatum
      m.heap.userdata.size = .failure (.callback e.raise) := by
    unfold Heap.newUserdata Heap.userdatum
    rw [Array.getElem?_push_size, Option.getD_some]
  show World.scriptError _ (.userdata m.heap.userdata.size) = _
  unfold World.scriptError
  dsimp only
  rw [show (m.raiseBridge e).world.heap
    = (m.heap.newUserdata (.failure (.callback e.raise))).2 from rfl, raised]

lemma deliver_store (v : HostValue) : (deliver m v).world.store = m.world.store := by
  have pushed : (m.world.push v).2.store = m.world.store := rfl
  unfold deliver
  split <;> rename_i eq <;> rw [eq] at pushed <;> exact pushed

lemma deliverAll_store (vs : List HostValue) : (deliverAll m vs).world.store = m.world.store := by
  have pushed : (m.world.pushMany vs).2.store = m.world.store := rfl
  unfold deliverAll
  split <;> rename_i eq <;> rw [eq] at pushed <;> exact pushed

lemma deliverAs_store (finish : Finish) (v : HostValue) :
    (deliverAs m finish v).world.store = m.world.store := by
  cases finish with
  | value => exact deliver_store m v
  | nothing => rfl
  | results withValue => exact deliverAll_store m _

lemma deliverResults_store (finish : Finish) (v : HostValue) (left : Invocation) :
    (deliverResults m finish v left).world.store = m.world.store := by
  unfold deliverResults
  split
  · exact deliverAll_store m _
  · exact deliverAs_store m _ v

variable {m} {finish : Finish} {code : HostCode} {result : HostResult} {store : Store}
  {m' : Machine}

/-- The caller of host code finds the data as the run of the code left it. -/
lemma HostRun.store_eq (run : HostRun m finish code result store m') :
    m'.world.store = store := by
  cases run with
  | got ran => exact deliverAs_store _ _ _
  | refused ran => exact raiseError_store _ _
  | returned ran control => exact deliverResults_store _ _ _ _
  | failed ran control => exact raiseError_store _ _

/-- A failure of host code is raised under the name of the code. -/
lemma HostRun.raises (run : HostRun m finish code result store m') {failure : HostFailure}
    (fails : result = .error failure) :
    ∃ trace, m'.Raises (.hostInvocation code.context failure.message trace) := by
  cases run with
  | got | returned => cases fails
  | refused ran =>
    cases fails
    exact ⟨_, raises_raiseBridge _ _⟩
  | failed ran control =>
    cases fails
    exact ⟨_, raises_raiseBridge _ _⟩

end Handing

section Back

variable {height : Nat} {m : Machine}

lemma length_of_isBack (back : isBack height m = true) : m.stack.length = height :=
  beq_iff_eq.1 (Bool.and_eq_true_iff.1 back).1

lemma watch_of_isBack (back : isBack height m = true) (fuel : Nat) :
    watch height fuel m = .unfinished ∨ watch height fuel m = .returned [] m := by
  cases fuel with
  | zero => exact Or.inl rfl
  | succ fuel =>
    right
    rw [watch, if_pos back]

lemma isBack_raiseBridge (same : m.stack.length = height) (e : BridgeError) :
    isBack height (m.raiseBridge e) = true :=
  Bool.and_eq_true_iff.2 ⟨beq_iff_eq.2 same, rfl⟩

lemma isBack_deliver (same : m.stack.length = height) (v : HostValue) :
    isBack height (deliver m v) = true := by
  unfold deliver
  split
  · exact Bool.and_eq_true_iff.2 ⟨beq_iff_eq.2 same, rfl⟩
  · exact Bool.and_eq_true_iff.2 ⟨beq_iff_eq.2 same, rfl⟩

lemma isBack_deliverAll (same : m.stack.length = height) (vs : List HostValue) :
    isBack height (deliverAll m vs) = true := by
  unfold deliverAll
  split
  · exact Bool.and_eq_true_iff.2 ⟨beq_iff_eq.2 same, rfl⟩
  · exact Bool.and_eq_true_iff.2 ⟨beq_iff_eq.2 same, rfl⟩

lemma isBack_deliverAs (same : m.stack.length = height) (finish : Finish) (v : HostValue) :
    isBack height (deliverAs m finish v) = true := by
  cases finish with
  | value => exact isBack_deliver same v
  | nothing => exact Bool.and_eq_true_iff.2 ⟨beq_iff_eq.2 same, rfl⟩
  | results withValue => exact isBack_deliverAll same _

lemma isBack_deliverResults (same : m.stack.length = height) (finish : Finish) (v : HostValue)
    (inv : Invocation) : isBack height (deliverResults m finish v inv) = true := by
  unfold deliverResults
  split
  · exact isBack_deliverAll same _
  · exact isBack_deliverAs same _ _

end Back

section Inside

variable {S : List Frame} {context : String} {finish : Finish} {left : Invocation}
  {m₀ m n : Machine}

lemma height_lt (h : Within (.guard context finish :: S) (.body left) m) :
    S.length < m.stack.length := by
  obtain ⟨mode, ⟨-, fs, stack, -⟩, -⟩ := h
  rw [stack, List.length_append, List.length_cons]
  omega

lemma isBack_inside (h : Within (.guard context finish :: S) (.body left) m) :
    isBack S.length m = false := by
  unfold isBack
  rw [beq_false_of_ne (Nat.ne_of_gt (height_lt h)), Bool.false_and]

lemma startsAt_inside (h : Within (.guard context finish :: S) (.body left) m) :
    startsAt S.length m = [] := by
  unfold startsAt
  split
  · rw [if_neg (beq_iff_eq.not.2 (Nat.ne_of_gt (height_lt h)))]
  · rfl

/-- At the guard the value of the body is handed on. -/
lemma step_finished (top : m.stack = .guard context finish :: S) {v : HostValue} {inv : Invocation}
    (control : m.control = .finished v inv) :
    step m = .running (deliverResults { m with stack := S } finish v inv) := by
  unfold step popped
  rw [control, top]
  rfl

/-- At the guard a failure is raised under the name of the member. -/
lemma step_failed (top : m.stack = .guard context finish :: S) {failure : HostFailure}
    (control : m.control = .failed failure) :
    step m = .running (raiseFailure { m with stack := S } context failure) := by
  unfold step popped
  rw [control, top]
  rfl

/-- The step that ends a body takes the guard off. -/
lemma length_of_done (done : Done (.guard context finish :: S) m) {m' : Machine}
    (stepped : step m = .running m') : m'.stack.length = S.length := by
  obtain ⟨top, ended⟩ := done
  cases control : m.control with
  | finished v inv =>
    cases (step_finished top control).symm.trans stepped
    exact length_of_isBack (isBack_deliverResults rfl _ _ _)
  | failed failure =>
    cases (step_failed top control).symm.trans stepped
    rfl
  | _ =>
    rw [control] at ended
    cases ended

/-- While there is work above the guard, it leads to the end of the body. -/
lemma RunsAbove.within (runs : RunsAbove S.length m n)
    (within : Within (.guard context finish :: S) (.body left) m) :
    Within (.guard context finish :: S) (.body left) n := by
  induction runs with
  | here => exact within
  | @step m' m'' _ stepped above ih =>
    have working : ¬ Done (.guard context finish :: S) m' := fun done =>
      Nat.ne_of_gt above (length_of_done done stepped)
    have stays := step_within (.guard context finish S left) ih working
    rw [stepped] at stays
    exact stays

lemma RunsAbove.first {height : Nat} (runs : RunsAbove height m n) :
    n = m ∨ ∃ m', Machine.step m = .running m' ∧ RunsAbove height m' n := by
  induction runs with
  | here => exact .inl rfl
  | step _ stepped above ih =>
    rcases ih with rfl | ⟨m', first, runs⟩
    · exact .inr ⟨_, stepped, .here⟩
    · exact .inr ⟨m', first, runs.step stepped above⟩

/-- Where a body has ended at its guard, nothing above it is left to run. -/
lemma RunsAbove.eq_of_done (runs : RunsAbove S.length m n)
    (done : Done (.guard context finish :: S) m) : n = m := by
  induction runs with
  | here => rfl
  | step _ stepped above ih =>
    subst ih
    exact absurd above (Nat.not_lt.2 (Nat.le_of_eq (length_of_done done stepped)))

lemma after_nil (seen : Watched) : seen.after [] = seen := by
  cases seen <;> rfl

/-- A run that was watched above the guard of a body: no other host code started at the height, and
the body has ended at its guard. -/
inductive BodyEnds (S : List Frame) (context : String) (finish : Finish) (m₀ : Machine) :
    Watched → Prop
  | returned {n : Machine} {v : HostValue} {left : Invocation} (runs : RunsAbove S.length m₀ n)
      (stack : n.stack = .guard context finish :: S) (control : n.control = .finished v left) :
      BodyEnds S context finish m₀
        (.returned [] (deliverResults { n with stack := S } finish v left))
  | failed {n : Machine} {failure : HostFailure} (runs : RunsAbove S.length m₀ n)
      (stack : n.stack = .guard context finish :: S) (control : n.control = .failed failure) :
      BodyEnds S context finish m₀
        (.returned [] (raiseFailure { n with stack := S } context failure))
  | unfinished : BodyEnds S context finish m₀ .unfinished

/-- A body that is watched from where it runs above its guard comes to its end there. -/
theorem watch_inside (fuel : Nat) (h : Within (.guard context finish :: S) (.body left) m)
    (runs : RunsAbove S.length m₀ m) :
    BodyEnds S context finish m₀ (watch S.length fuel m) := by
  induction fuel generalizing m with
  | zero => exact .unfinished
  | succ fuel ih =>
    rw [watch, isBack_inside h, if_neg Bool.false_ne_true, startsAt_inside h]
    by_cases done : Done (.guard context finish :: S) m
    · obtain ⟨top, ended⟩ := done
      cases control : m.control with
      | finished v inv =>
        have back : isBack S.length (deliverResults { m with stack := S } finish v inv) = true :=
          isBack_deliverResults rfl finish v inv
        rw [step_finished top control]
        dsimp only
        rw [after_nil]
        rcases watch_of_isBack back fuel with seen | seen
        · exact seen ▸ .unfinished
        · exact seen ▸ .returned runs top control
      | failed failure =>
        have back : isBack S.length (raiseFailure { m with stack := S } context failure) = true :=
          isBack_raiseBridge rfl _
        rw [step_failed top control]
        dsimp only
        rw [after_nil]
        rcases watch_of_isBack back fuel with seen | seen
        · exact seen ▸ .unfinished
        · exact seen ▸ .failed runs top control
      | _ =>
        rw [control] at ended
        cases ended
    · have stays := step_within (.guard context finish S left) h done
      cases stepped : step m with
      | running m' =>
        rw [stepped] at stays
        dsimp only
        rw [after_nil]
        exact ih stays (runs.step stepped (height_lt stays))
      | halted o w =>
        rw [stepped] at stays
        cases stays.1

end Inside

section Performing

variable {m : Machine} {finish : Finish}

/-- Putting up the guard is the start of the body. -/
lemma runMethod_inside (sound : m.world.Sound) (inv : Invocation) (finish : Finish) :
    Within (.guard inv.context finish :: m.stack) (.body (inv.after inv.member.item.body))
      (begun m inv finish) :=
  ⟨_, ⟨⟨sound.registry, sound.heap, sound.threads⟩, [], rfl, rfl⟩, rfl⟩

/-- What a body starts with is its end, if it waits for nothing. -/
lemma RunsAbove.bodyRun {inv : Invocation} {n : Machine}
    (runs : RunsAbove m.stack.length (begun m inv finish) n)
    (stack : n.stack = .guard inv.context finish :: m.stack) (ended : n.control.Ends) :
    BodyRun m inv finish n := by
  refine ⟨runs, stack, fun piece store c started atOnce => ?_⟩
  have stepped : Machine.step (begun m inv finish)
      = .running { begun m inv finish with
          world := { (begun m inv finish).world with store }, control := c } := by
    show Machine.Progress.running (runBody (begun m inv finish) inv.member.item.body inv) = _
    unfold runBody
    rw [started]
    cases piece with
    | finished v left =>
      cases atOnce
      rfl
    | failed failure =>
      cases atOnce
      rfl
    | _ => cases atOnce
  rcases runs.first with rfl | ⟨m', first, runs⟩
  · cases ended
  · cases stepped.symm.trans first
    have done : Done (.guard inv.context finish :: m.stack) { begun m inv finish with
        world := { (begun m inv finish).world with store }, control := c } := by
      refine ⟨rfl, ?_⟩
      cases piece <;> cases atOnce <;> exact trivial
    obtain rfl := runs.eq_of_done done
    exact ⟨rfl, rfl⟩

lemma watch_method (sound : m.world.Sound) (inv : Invocation) (fuel : Nat) :
    RunsOnce m finish (.method inv)
      ((watch m.stack.length fuel (begun m inv finish)).after [.method inv]) := by
  have ends := watch_inside fuel (runMethod_inside sound inv finish) .here
  generalize watch m.stack.length fuel (begun m inv finish) = seen at ends
  cases ends with
  | returned runs stack control =>
    exact .ran (.returned (runs.bodyRun stack (control ▸ trivial)) control)
  | failed runs stack control =>
    exact .ran (.failed (runs.bodyRun stack (control ▸ trivial)) control)
  | unfinished => exact .unfinished

lemma watch_access {target : Target} {name : String} {accessor : Accessor} (fuel : Nat) :
    RunsOnce m finish (.access target name accessor)
      ((watch m.stack.length fuel (runHost m (.access target name accessor) finish)).after
        [.access target name accessor]) := by
  have once {result : HostResult} {store : Store} {m' : Machine}
      (back : isBack m.stack.length m' = true)
      (ran : HostRun m finish (.access target name accessor) result store m') :
      RunsOnce m finish (.access target name accessor)
        ((watch m.stack.length fuel m').after [.access target name accessor]) := by
    rcases watch_of_isBack back fuel with seen | seen
    · exact seen ▸ .unfinished
    · exact seen ▸ .ran ran
  rcases ran : runAccessor m.heap m.world.store target.object? accessor with ⟨result, store⟩
  unfold runHost
  dsimp only
  rw [ran]
  cases result with
  | ok v => exact once (isBack_deliverAs rfl finish v) (.got ran)
  | error failure => exact once (isBack_raiseBridge rfl _) (.refused ran)

/-- Host code that is about to run does so once. -/
theorem watch_host (sound : m.world.Sound) {code : HostCode}
    (control : m.control = .host code finish) (fuel : Nat) :
    RunsOnce m finish code (watch m.stack.length fuel m) := by
  cases fuel with
  | zero => exact .unfinished
  | succ fuel =>
    have away : isBack m.stack.length m = false := by
      unfold isBack
      rw [control]
      exact Bool.and_false _
    have starts : startsAt m.stack.length m = [code] := by
      unfold startsAt
      rw [control]
      exact if_pos (beq_iff_eq.2 rfl)
    have stepped : step m = .running (runHost m code finish) := by
      unfold step
      rw [control]
    rw [watch, away, if_neg Bool.false_ne_true, starts, stepped]
    cases code with
    | method inv => exact watch_method sound inv fuel
    | access target name accessor => exact watch_access fuel

end Performing

end ScriptBridge.Machine

namespace ScriptBridge.Session

open Script Bridge Machine

/-- Whatever operation a machine of a session performs, it is rejected and no host code runs, or
exactly one piece of host code runs, once: what the operation comes to and the data of the host then
are what this run came to and left. It never gets lost. -/
theorem Visited.runs_once {m : Machine} (h : Visited m) (op : Operation) (finish : Finish)
    (fuel : Nat) : Once m finish op (watch m.stack.length fuel (perform m finish op)) := by
  have planned := plan_consulted m op
  obtain ⟨store, stack⟩ := consulted_store m op
  have performed : perform m finish op
      = runPlanned (consulted m op) finish (op.plan m.world) := by
    rw [← planned]
    rfl
  cases plan : op.plan m.world with
  | error e =>
    rw [plan] at performed
    rw [performed]
    rcases watch_of_isBack (isBack_raiseBridge (congrArg List.length stack) e) fuel with seen | seen
    · exact seen ▸ .unfinished
    · exact seen ▸ .rejected plan (Operation.plan_error plan) (raises_raiseBridge _ e) store
  | ok code =>
    rw [plan] at performed
    have sound := (consulted_midway (.refl m) op).1.world.sound h.settled.world
    have once := watch_host (m := (consulted m op).go (.host code finish)) sound rfl fuel
    rw [show (consulted m op).go (.host code finish) = perform m finish op from performed.symm,
      show (perform m finish op).stack = m.stack from performed ▸ stack] at once
    generalize watch m.stack.length fuel (perform m finish op) = seen at once
    cases once with
    | ran ran => exact .ran plan ran (fun _ fails => ran.raises fails) ran.store_eq
    | unfinished => exact .unfinished

/-- Assigning the field of an instance runs its accessor and nothing else. -/
theorem once_writeReading : Visited writingReading ∧
    (∃ m', watch 0 2
        (perform writingReading .nothing (.write (.object device) "reading" (.int 3)))
      = .returned [writeReading] m' ∧ m'.control = .values [] ∧ m'.world.store.log.length = 1) ∧
    Once writingReading .nothing (.write (.object device) "reading" (.int 3))
      (watch 0 2
        (perform writingReading .nothing (.write (.object device) "reading" (.int 3)))) := by
  refine ⟨visited_writingReading, ?_, Visited.runs_once visited_writingReading _ .nothing 2⟩
  have planned : Operation.plan writingReading.world (.write (.object device) "reading" (.int 3))
      = .ok writeReading := planWrite_reading
  rw [perform, plan_consulted, planned]
  exact ⟨_, rfl, rfl, rfl⟩

end ScriptBridge.Session
