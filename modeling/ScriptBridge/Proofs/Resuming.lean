import Mathlib.Tactic.Lemma
import ScriptBridge.Proofs.Nesting
import ScriptBridge.Session.Coroutine

/-!
# Nested resumes

In a session whose coroutines are resumed by the host and by its bodies only, the list of active
coroutines tells at every moment which resumes are in progress. A coroutine on it is refused another
resume, and when a resume ends the list is what it was before.
-/

namespace ScriptBridge.Session

open Script Bridge Machine

/-- The second machine is the first one some steps later, and no script resumed a coroutine by
itself. -/
inductive Bridged (m : Machine) : Machine → Prop
  | here : Bridged m m
  | step {m' m'' : Machine} (h : Bridged m m') (through : Through m')
      (stepped : step m' = .running m'') : Bridged m m''

/-- How the host starts a run, or the resume of a coroutine that can be resumed. -/
inductive Begins (w : World) : Machine → Prop
  | run {c : Control} (opens : Opens w c) (plain : c.entered = []) :
      Begins w { world := w, control := c }
  | resume {thread : Nat} {args : List Value} (ok : w.checkResumable thread = .ok ()) :
      Begins w
        { world := { w with active := thread :: w.active }
          control := .resume thread args .session }

/-- The worlds of a session between runs. -/
inductive Idle : World → Prop
  | create (options : Options) (registered types : List HostType) (nextIdentity : Nat)
      (closer : Closer) (engine : Engine) :
      Idle (create options (.build registered nextIdentity closer) types engine)
  | act {w w' : World} (h : Idle w) (acts : Acts w w') (same : w'.active = w.active) : Idle w'
  | halted {w w' : World} {m m' : Machine} {o : Outcome} (h : Idle w) (begins : Begins w m)
      (runs : Bridged m m') (halts : step m' = .halted o w') : Idle w'

/-- The machine occurs in a run of a session. -/
def Moment (m : Machine) : Prop :=
  ∃ w m₀, Idle w ∧ Begins w m₀ ∧ Bridged m₀ m

section Moments

variable {w w' : World} {m m' : Machine}

lemma Bridged.runs (bridged : Bridged m m') : Runs m m' := by
  induction bridged with
  | here => exact .here
  | step _ _ stepped ih => exact ih.step stepped

/-- A script that is about to resume a coroutine goes on. -/
lemma through_of_halted {o : Outcome} (halts : step m = .halted o w) : Through m := by
  intro thread args control
  unfold step at halts
  rw [control] at halts
  cases halts

lemma Begins.reached (begins : Begins w m) (reached : Reached w) :
    Reached m.world ∧ Opens m.world m.control ∧ m = { world := m.world, control := m.control } := by
  cases begins with
  | run opens plain => exact ⟨reached, opens, rfl⟩
  | resume ok => exact ⟨reached.act (.active _), .resume _ _, rfl⟩

lemma Idle.reached (idle : Idle w) : Reached w := by
  induction idle with
  | create options registered types nextIdentity closer engine =>
    exact .create options registered types _ closer engine
  | act _ acts _ ih => exact ih.act acts
  | halted _ begins runs halts ih =>
    obtain ⟨reached, opens, eq⟩ := begins.reached ih
    rw [eq] at runs
    exact reached.halted opens runs.runs halts

/-- Between runs the host makes new coroutines at most. -/
lemma Acts.extends (acts : Acts w w') : w.Extends w' := by
  cases acts with
  | thread f => exact (World.Grows.newThread w f).threads
  | _ => exact ⟨[], (List.append_nil _).symm⟩

lemma rests_create (options : Options) (registry : Registry) (types : List HostType)
    (engine : Engine) : (create options registry types engine).Rests := by
  apply create_induction
  · refine ⟨rfl, fun id running => ?_, fun id stack depth waits => ?_⟩
    · cases running
    · cases waits
  · exact fun w library rests => ⟨rests.active, rests.still, rests.parted⟩

lemma Begins.mirrors (begins : Begins w m) (rests : w.Rests) : Mirrors m := by
  have running (thread : Nat) : w.thread thread = .active ↔ thread ∈ marked [] :=
    iff_of_false (rests.still thread) List.not_mem_nil
  cases begins with
  | @run c opens plain =>
    exact
      { active := by
          rw [resuming, plain]
          exact rests.active
        nodup := rests.active ▸ List.nodup_nil
        running
        parted := rests.parted
        bridged := fun f mem => by cases mem
        entered := by
          rw [plain]
          exact fun thread mem => by cases mem }
  | @resume thread args ok =>
    exact
      { active := by
          rw [resuming, rests.active]
          rfl
        nodup := by
          rw [rests.active]
          exact List.nodup_singleton thread
        running
        parted := rests.parted
        bridged := fun f mem => by cases mem
        entered := fun other mem => by
          have waits := waits_of_checkResumable ok
          rw [List.mem_singleton.1 mem]
          exact waits }

/-- The list stays in line during a run. -/
lemma Bridged.mirrors (bridged : Bridged m m') (settled : Settled m) (mirrors : Mirrors m) :
    Mirrors m' := by
  induction bridged with
  | here => exact mirrors
  | step h through stepped ih =>
    have mirrored := ih.step (h.runs.settled settled) through
    rw [stepped] at mirrored
    exact mirrored

lemma Begins.settled (begins : Begins w m) (idle : Idle w) : Settled m := by
  obtain ⟨reached, opens, eq⟩ := begins.reached idle.reached
  rw [eq]
  exact opens.settled reached.sound

lemma Idle.rests (idle : Idle w) : w.Rests := by
  induction idle with
  | create options registered types nextIdentity closer engine => exact rests_create _ _ _ _
  | act _ acts same ih =>
    have extend := acts.extends
    exact
      { active := same.trans ih.active
        still := fun thread active => ih.still thread ((extend.active_iff thread).1 active)
        parted := ih.parted.extend extend }
  | halted idle begins runs halts ih =>
    have settled := begins.settled idle
    have mirrored := (runs.mirrors settled (begins.mirrors ih)).step (runs.runs.settled settled)
      (through_of_halted halts)
    rw [halts] at mirrored
    exact mirrored

lemma Moment.settled (moment : Moment m) : Settled m := by
  obtain ⟨w, m₀, idle, begins, bridged⟩ := moment
  exact bridged.runs.settled (begins.settled idle)

lemma Moment.mirrors (moment : Moment m) : Mirrors m := by
  obtain ⟨w, m₀, idle, begins, bridged⟩ := moment
  exact bridged.mirrors (begins.settled idle) (begins.mirrors idle.rests)

lemma Moment.step (moment : Moment m) (through : Through m)
    (stepped : Machine.step m = .running m') : Moment m' := by
  obtain ⟨w, m₀, idle, begins, bridged⟩ := moment
  exact ⟨w, m₀, idle, begins, bridged.step through stepped⟩

end Moments

section Resumes

variable {m m' : Machine} {thread : Nat} {args : List Value} {by_ : Resumer}

/-- The second machine works on a resume that was pending in the first one: until the resume has
ended, the stack is higher than before. -/
inductive During (m : Machine) : Machine → Prop
  | starts {m' : Machine} (stepped : step m = .running m') : During m m'
  | goesOn {m' m'' : Machine} (h : During m m') (through : Through m')
      (stepped : step m' = .running m'') (inside : m.stack.length < m''.stack.length) :
      During m m''

/-- A coroutine that was resumed has come to a halt: the list is what it was before the coroutine
went on it, and the coroutine can be resumed again if it yielded. -/
structure Left (m : Machine) (thread : Nat) (r : Resumption) (w : World) : Prop where
  active : m.world.active = thread :: w.active
  again : ∀ vs, r = .yielded vs → w.checkResumable thread = .ok ()
  dead : (∀ vs, r ≠ .yielded vs) → w.status thread = .dead

/-- The resume that was pending in the first machine is in progress in the second one. -/
def Inside (m m' : Machine) : Prop :=
  m.stack.length < m'.stack.length ∧ m.world.active <:+ m'.world.active

/-- A step of a resume in progress stays inside, or it ends the resume. -/
def Proceeds (m : Machine) (thread : Nat) (by_ : Resumer) : Machine.Progress → Prop
  | .running m' => Inside m m' ∨ ∃ inv r, by_ = .body inv ∧
    m'.control = .finished (resumeText m'.world thread (m'.world.receive r.handed)) inv ∧
      m'.stack = m.stack ∧ Left m thread r m'.world
  | .halted o w => ∃ r, by_ = .session ∧ o = .resumed thread r.handed ∧ Left m thread r w

/-- A coroutine that is about to be resumed goes on the stack. -/
lemma Moment.starts (moment : Moment m) (through : Through m)
    (control : m.control = .resume thread args by_) :
    (∃ m', Machine.step m = .running m' ∧
      .resumed thread by_ m.depth m.thread :: m.stack <:+ m'.stack) ∧
      m.world.active = thread :: marked m.stack ∧ by_ ≠ .wrapper := by
  obtain ⟨bridged, entered, waits⟩ := moment.mirrors.pending through control
  obtain ⟨-, -, above, stack, -⟩ := resume_of_waits waits args by_
  refine ⟨⟨Machine.resume m thread args by_, ?_, above, stack.symm⟩, ?_, bridged⟩
  · unfold Machine.step
    rw [control]
  · rw [moment.mirrors.active, resuming, entered]
    rfl

/-- What is left of a resume when its coroutine comes to a halt. -/
lemma Moment.left (moment : Moment m') (active : m.world.active = thread :: marked m.stack)
    {r : Resumption} {above : List Frame} {back : Machine} (stack : back.stack = m.stack)
    (departs : Departs m' thread by_ r above back) : Left m thread r (leave back.world thread) := by
  obtain ⟨mirrors, leaves⟩ := moment.mirrors.ends (c := .completed) departs rfl
  have same : (leave back.world thread).active = marked m.stack := by
    rw [← stack]
    exact mirrors.active
  have out : thread ∉ (leave back.world thread).active := by
    intro mem
    rw [same, ← stack] at mem
    have running : (leave back.world thread).thread thread = .active :=
      (mirrors.running thread).2 mem
    rw [running] at leaves
    cases r <;> exact leaves
  refine ⟨by rw [active, same], fun vs yielded => ?_, fun ended => ?_⟩
  · subst yielded
    rw [World.checkResumable, status_of_not_mem out, World.status.halted]
    cases state : (leave back.world thread).thread thread with
    | fresh f => rfl
    | suspended above depth => rfl
    | _ =>
      rw [state] at leaves
      cases leaves
  · rw [status_of_not_mem out, World.status.halted]
    cases r with
    | yielded vs => exact absurd rfl (ended vs)
    | _ =>
      cases state : (leave back.world thread).thread thread with
      | finished => rfl
      | failed frames => rfl
      | _ =>
        rw [state] at leaves
        cases leaves

/-- A resume in progress has its mark on the stack. -/
lemma During.suffix (during : During m m') (moment : Moment m) (through : Through m)
    (control : m.control = .resume thread args by_) :
    Moment m' ∧ .resumed thread by_ m.depth m.thread :: m.stack <:+ m'.stack := by
  obtain ⟨⟨first, eq, suffix⟩, -, bridged⟩ := moment.starts through control
  induction during with
  | starts stepped =>
    rw [eq] at stepped
    cases stepped
    exact ⟨moment.step through eq, suffix⟩
  | @goesOn m' m'' h through' stepped inside ih =>
    obtain ⟨moment', suffix⟩ := ih
    refine ⟨moment'.step through' stepped, ?_⟩
    rcases step_mark moment'.settled suffix with ⟨m'', eq, suffix⟩ | ⟨r, above, m'', eq, stack, -⟩
    · rw [eq] at stepped
      cases stepped
      exact suffix
    · -- the stack would be as low as it was before the resume
      rw [eq] at stepped
      cases by_ with
      | wrapper => exact absurd rfl bridged
      | session => cases stepped
      | body inv =>
        cases stepped
        rw [← stack] at inside
        exact absurd inside (Nat.lt_irrefl _)

lemma inside_of_suffix (moment : Moment m') (active : m.world.active = thread :: marked m.stack)
    (suffix : .resumed thread by_ m.depth m.thread :: m.stack <:+ m'.stack) : Inside m m' := by
  refine ⟨suffix.length_le, ?_⟩
  rw [active, moment.mirrors.active, resuming]
  exact (suffix.filterMap Frame.marked).trans (List.suffix_append _ _)

/-- Each step of a resume in progress proceeds with it. -/
theorem During.proceeds (during : During m m') (moment : Moment m) (through : Through m)
    (through' : Through m') (control : m.control = .resume thread args by_) :
    Inside m m' ∧ Proceeds m thread by_ (step m') := by
  obtain ⟨-, active, bridged⟩ := moment.starts through control
  obtain ⟨moment', suffix⟩ := during.suffix moment through control
  refine ⟨inside_of_suffix moment' active suffix, ?_⟩
  rcases step_mark moment'.settled suffix with
    ⟨m'', eq, suffix⟩ | ⟨r, above, back, eq, stack, departs⟩
  · rw [eq]
    exact Or.inl (inside_of_suffix (moment'.step through' eq) active suffix)
  · have left := moment'.left active stack departs
    rw [eq]
    cases by_ with
    | wrapper => exact absurd rfl bridged
    | session => exact ⟨r, rfl, rfl, left⟩
    | body inv => exact Or.inr ⟨inv, r, rfl, rfl, stack, left⟩

end Resumes

section Lists

variable {w : World} {m m' : Machine}

/-- The list of active coroutines mirrors the nested resumes, innermost first. -/
structure Nests (m : Machine) : Prop where
  active : m.world.active = resuming m
  nodup : m.world.active.Nodup
  running : ∀ thread, m.world.status thread = .running ↔ m.world.active.head? = some thread
  normal : ∀ thread, m.world.status thread = .normal ↔ thread ∈ m.world.active.tail
  others : ∀ thread ∉ m.world.active,
    m.world.status thread = .suspended ∨ m.world.status thread = .dead
  /-- The host is refused a coroutine on the list, at no change of the world. -/
  refuses : ∀ thread ∈ m.world.active, ∀ args, resume m.world thread args
    = (.error (.coroutineNotSuspended (m.world.status thread)), m.world)
  /-- A body is told so, and goes on without any step of a script. -/
  tells : ∀ thread ∈ m.world.active, ∀ name inv, m.control = .body (.resume name) inv →
    m.world.coroutines.find? name = some thread → step m = .running (m.go
      (.finished (.str (BridgeError.coroutineNotSuspended (m.world.status thread)).text) inv))
  enters : ∀ m' thread, step m = .running m' → thread ∈ m'.control.entered →
    m.world.checkResumable thread = .ok () ∧ m'.world.active = thread :: m.world.active ∧
      m'.stack = m.stack
  /-- The list is the same after a resume as before it. -/
  proceeds : ∀ thread args by_, Through m → m.control = .resume thread args by_ →
    ∀ m', During m m' → Through m' → Inside m m' ∧ Proceeds m thread by_ (step m')

lemma status_of_out (mirrors : Mirrors m) {thread : Nat} (out : thread ∉ m.world.active) :
    m.world.status thread = .suspended ∨ m.world.status thread = .dead := by
  rw [status_of_not_mem out, World.status.halted]
  cases state : m.world.thread thread with
  | fresh f => exact Or.inl rfl
  | suspended above depth => exact Or.inl rfl
  | finished => exact Or.inr rfl
  | failed frames => exact Or.inr rfl
  | active =>
    have mem := List.mem_append_right m.control.entered ((mirrors.running thread).1 state)
    rw [mirrors.active] at out
    exact absurd mem out

lemma mem_of_status (mirrors : Mirrors m) {thread : Nat}
    (active : m.world.status thread = .running ∨ m.world.status thread = .normal) :
    thread ∈ m.world.active := by
  by_contra out
  rcases status_of_out mirrors out with eq | eq <;> rw [eq] at active <;> simp at active

lemma status_running_iff (mirrors : Mirrors m) (thread : Nat) :
    m.world.status thread = .running ↔ m.world.active.head? = some thread := by
  refine ⟨fun running => ?_, status_head⟩
  by_contra inner
  have mem := mem_of_status mirrors (Or.inl running)
  have normal := status_tail inner ((head_or_mem_tail mem).resolve_left inner)
  rw [running] at normal
  cases normal

lemma status_normal_iff (mirrors : Mirrors m) (thread : Nat) :
    m.world.status thread = .normal ↔ thread ∈ m.world.active.tail := by
  constructor
  · intro normal
    refine (head_or_mem_tail (mem_of_status mirrors (Or.inr normal))).resolve_left fun head => ?_
    have running := status_head head
    rw [normal] at running
    cases running
  · intro mem
    refine status_tail (fun head => ?_) mem
    obtain ⟨rest, eq⟩ := List.head?_eq_some_iff.1 head
    have nodup := mirrors.nodup
    rw [eq] at mem nodup
    exact (List.nodup_cons.1 nodup).1 mem

/-- A body is told why a coroutine cannot be resumed, and nothing else happens. -/
lemma step_refused {thread : Nat} {name : String} {inv : Invocation}
    (control : m.control = .body (.resume name) inv)
    (named : m.world.coroutines.find? name = some thread) {e : BridgeError}
    (refused : m.world.checkResumable thread = .error e) :
    step m = .running (m.go (.finished (.str e.text) inv)) := by
  unfold step
  rw [control]
  show Progress.running (resumeFromBody m inv name) = _
  unfold resumeFromBody
  rw [named]
  dsimp only
  rw [refused]

lemma entered_resume (m : Machine) (thread : Nat) (args : List Value) (by_ : Resumer) :
    (Machine.resume m thread args by_).control.entered = [] := by
  unfold Machine.resume
  dsimp only
  split <;> rfl

/-- A coroutine goes on the list only if it can be resumed, and right before its resume. -/
lemma step_enters (stepped : step m = .running m') {thread : Nat}
    (entered : thread ∈ m'.control.entered) : m.world.checkResumable thread = .ok () ∧
      m'.world.active = thread :: m.world.active ∧ m'.stack = m.stack := by
  have effect := step_effect m
  rw [stepped] at effect
  generalize progress : Machine.Progress.running m' = p at effect
  cases effect with
  | works works =>
    cases progress
    rw [works.entered] at entered
    cases entered
  | enters resumable =>
    cases progress
    rw [List.mem_singleton.1 entered]
    exact ⟨resumable, rfl, rfl⟩
  | @starts other args by_ control =>
    cases progress
    rw [entered_resume] at entered
    cases entered
  | @ends other by_ r above back departs =>
    have none : m'.control.entered = [] := by
      cases by_ with
      | session => cases progress
      | body inv =>
        cases progress
        rfl
      | wrapper => cases r <;> cases progress <;> rfl
    rw [none] at entered
    cases entered
  | halts => cases progress

/-- At every moment of a session the list of active coroutines mirrors the nested resumes. -/
theorem Moment.nests (moment : Moment m) : Nests m where
  active := moment.mirrors.active
  nodup := moment.mirrors.nodup
  running := status_running_iff moment.mirrors
  normal := status_normal_iff moment.mirrors
  others _ := status_of_out moment.mirrors
  refuses thread mem args := by
    unfold resume
    rw [checkResumable_of_mem mem]
  tells thread mem name inv control named := step_refused control named (checkResumable_of_mem mem)
  enters m' thread stepped := step_enters stepped
  proceeds thread args by_ through control m' during through' :=
    during.proceeds moment through through' control

end Lists

section Host

variable {w : World} {thread : Nat} {args : List HostValue}

lemma Idle.register (idle : Idle w) {t : HostType} {method : String}
    {overloads : List (Declared Method)}
    (found : (w.registry.metadata t).statics.methodGroup? method = some overloads) :
    Idle { w with heap := (w.heap.newUserdata (.methods (.type t) method overloads)).2 } :=
  idle.act (.register found) rfl

lemma Idle.newThread (idle : Idle w) (f : Value) : Idle (w.newThread f).2 :=
  idle.act (.thread f) rfl

lemma Idle.name (idle : Idle w) (name : String) (thread : Nat) :
    Idle (nameCoroutine w name thread) :=
  idle.act (.settings _ _ _) rfl

/-- The run of a machine comes to its end in so many steps or less, and no script resumes a
coroutine by itself in it. -/
inductive Completes : Nat → Machine → Prop
  | halts {m : Machine} {o : Outcome} {w : World} (steps : Nat) (halts : step m = .halted o w) :
      Completes (steps + 1) m
  | step {m m' : Machine} {steps : Nat} (through : Through m) (stepped : step m = .running m')
      (completes : Completes steps m') : Completes (steps + 1) m

/-- The host resumes a coroutine with arguments that were pushed. -/
def resumed (w : World) (thread : Nat) (pushed : List Value) : Machine where
  world := { w with active := thread :: w.active }
  control := .resume thread pushed .session

lemma Completes.le {m : Machine} {steps : Nat} (completes : Completes steps m) {more : Nat}
    (le : steps ≤ more) : Completes more m := by
  induction completes generalizing more with
  | halts steps halts =>
    obtain ⟨more, rfl⟩ := Nat.exists_eq_add_of_le' (Nat.le_trans (Nat.le_add_left 1 steps) le)
    exact .halts more halts
  | step through stepped _ ih =>
    obtain ⟨more, rfl⟩ := Nat.exists_eq_add_of_le' (Nat.le_trans (Nat.le_add_left 1 _) le)
    exact .step through stepped (ih (Nat.le_of_add_le_add_right le))

lemma Completes.exists_halted {m₀ m : Machine} {steps : Nat} (completes : Completes steps m)
    (bridged : Bridged m₀ m) :
    ∃ m', Bridged m₀ m' ∧ Machine.step m' = .halted (run steps m).1 (run steps m).2 := by
  induction completes with
  | halts steps halts =>
    rw [run, halts]
    exact ⟨_, bridged, halts⟩
  | step through stepped _ ih =>
    rw [run, stepped]
    exact ih (bridged.step through stepped)

lemma Idle.run (idle : Idle w) (ok : w.checkResumable thread = .ok ()) {pushed : List Value}
    (completes : Completes w.engine.steps (resumed w thread pushed)) :
    Idle (start { w with active := thread :: w.active } (.resume thread pushed .session)).2 := by
  obtain ⟨m', bridged, halts⟩ := completes.exists_halted .here
  exact idle.halted (.resume ok) bridged halts

/-- Taking a coroutine off the list once more changes nothing between runs. -/
lemma Idle.leave (idle : Idle w) (thread : Nat) : leave w thread = w := by
  rw [Machine.leave, idle.rests.active, List.erase_nil, ← idle.rests.active]

lemma Idle.resumeThread (idle : Idle w) (ok : w.checkResumable thread = .ok ())
    {pushed : List Value} (completes : Completes w.engine.steps (resumed w thread pushed)) :
    Idle (resumeThread w thread pushed).2 := by
  have halts := idle.run ok completes
  unfold Session.resumeThread
  split
  · exact idle
  · generalize start _ _ = halted at halts
    split
    · exact halts
    · rw [halts.leave]
      exact halts
    · rw [halts.leave]
      exact halts

/-- However a resume by the host ends, no coroutine is active after it. -/
theorem Idle.resume (idle : Idle w) (completes : ∀ pushed w', w.pushMany args = (.ok pushed, w') →
    Completes w'.engine.steps (resumed w' thread pushed)) : Idle (resume w thread args).2 := by
  have pushes : Idle (w.pushMany args).2 := idle.act (.heap (.pushMany _ _ args)) rfl
  have same : (w.pushMany args).2.checkResumable thread = w.checkResumable thread := rfl
  unfold Session.resume
  cases ok : w.checkResumable thread with
  | error e => exact idle
  | ok _ =>
    cases eq : w.pushMany args with
    | mk answer w' =>
      rw [eq] at pushes same
      cases answer with
      | error e => exact pushes
      | ok pushed => exact pushes.resumeThread (same.trans ok) (completes pushed w' eq)

end Host

/-- At every moment of a session the list of active coroutines mirrors the nested resumes, and
whenever the host gets back from a resume the list is what it was before. -/
theorem active_mirrors : (∀ m, Moment m → Nests m) ∧
    ∀ w thread args, Idle w → (∀ pushed w', w.pushMany args = (.ok pushed, w') →
      Completes w'.engine.steps (resumed w' thread pushed)) →
        (resume w thread args).2.active = w.active := by
  refine ⟨fun m moment => moment.nests, fun w thread args idle completes => ?_⟩
  rw [(idle.resume completes).rests.active, idle.rests.active]

section Bench

/-- A function that resumes a coroutine by its name. -/
def resumeNamed (name : String) : Method where
  name := name
  params := []
  returns := some .any
  isStatic := true
  hidden := false
  isExtension := false
  typeParams := 0
  label := name
  body := .resume name

def looper : HostType where
  identity := 101
  name := "Looper"
  ns := some "demo"
  primitive := none
  members := { methods := [resumeNamed "inner", resumeNamed "outer"] }
  typeParams := none
  home := "demo.Looper"
  base := none
  nested := []
  typeArgs := []

/-- The class has its functions in this order. -/
inductive Declares : Nat → String → Prop
  | inner : Declares 0 "inner"
  | outer : Declares 1 "outer"

/-- A function of the class, bound to it. -/
def boundNamed (i : Nat) (name : String) : Userdata :=
  .methods (.type looper) name [⟨looper, i, resumeNamed name⟩]

def bindNamed (w : World) (i : Nat) (name : String) : World :=
  { w with heap := (w.heap.newUserdata (boundNamed i name)).2 }

/-- A session with a coroutine over each of the functions: the outer one resumes the inner one, and
the inner one the outer one. -/
def looping : World :=
  let w := bindNamed (bindNamed bench 0 "inner") 1 "outer"
  let w := ((w.newThread (.userdata 0)).2.newThread (.userdata 1)).2
  nameCoroutine (nameCoroutine w "outer" 0) "inner" 1

lemma registry_bindNamed (w : World) (i : Nat) (name : String) :
    (bindNamed w i name).registry = w.registry :=
  rfl

lemma idle_bench : Idle bench :=
  .create {} [] [] 0 .blank .standard

lemma Idle.bindNamed (idle : Idle w) (same : w.registry = bench.registry) {i : Nat} {name : String}
    (declares : Declares i name) : Idle (bindNamed w i name) := by
  apply idle.register
  rw [same, Registry.metadata_eq, bench_extensionsFor]
  cases declares <;> rfl

lemma idle_looping : Idle looping := by
  have both := (idle_bench.bindNamed rfl .inner).bindNamed (registry_bindNamed _ _ _) .outer
  have threads := (both.newThread (.userdata 0)).newThread (.userdata 1)
  exact (threads.name "outer" 0).name "inner" 1

/-- The call of the function that resumes the outer coroutine. -/
def resumeOuter : Invocation :=
  ⟨⟨looper, 1, resumeNamed "outer"⟩, "outer", looper, none, [], []⟩

/-- A body of the outer coroutine is about to have the inner one resumed. -/
structure Pending (m : Machine) (inv : Invocation) : Prop where
  moment : Moment m
  control : m.control = .resume 1 [] (.body inv)
  active : m.world.active = [1, 0]
  fresh : m.world.thread 1 = .fresh (.userdata 1)
  bound : m.world.heap.userdatum 1 = boundNamed 1 "outer"
  named : m.world.coroutines.find? "outer" = some 0
  quiet : m.world.hook = none
  options : m.world.options = {}

lemma exists_pending : ∃ m inv, Pending m inv := by
  have moment : Moment
      { world := { looping with active := 0 :: looping.active }
        control := .resume 0 [] .session } :=
    ⟨looping, _, idle_looping, .resume rfl, .here⟩
  have called := moment.step (fun thread args control => by cases control) rfl
  have planned := called.step (fun thread args control => by cases control) rfl
  have began := planned.step (fun thread args control => by cases control) rfl
  have entered := began.step (fun thread args control => by cases control) rfl
  exact ⟨_, _, entered, rfl, rfl, rfl, rfl, rfl, rfl, rfl⟩

/-- The inner coroutine works for the resume, and its body is about to have the outer one
resumed. -/
structure Inner (m : Machine) (inv : Invocation) (m' : Machine) : Prop where
  during : During m m'
  control : m'.control = .body (.resume "outer") resumeOuter
  stack : m'.stack = .guard resumeOuter.context (.results true) ::
    .resumed 1 (.body inv) m.depth m.thread :: m.stack
  active : m'.world.active = [1, 0]
  named : m'.world.coroutines.find? "outer" = some 0
  options : m'.world.options = {}

variable {m m' : Machine} {inv : Invocation}

lemma Pending.exists_inner (pending : Pending m inv) : ∃ m', Inner m inv m' := by
  let m₁ : Machine :=
    { m with
      world := m.world.setThread 1 .active
      stack := .resumed 1 (.body inv) m.depth m.thread :: m.stack
      depth := 0
      thread := some 1
      control := .call (.userdata 1) [] }
  have resumes : step m = .running m₁ := by
    unfold step
    rw [pending.control]
    dsimp only
    unfold Machine.resume
    dsimp only
    rw [pending.fresh]
  have calls : step m₁ = .running (m₁.go (.host (.method resumeOuter) (.results true))) := by
    have quiet : m₁.world.hook = none := pending.quiet
    have bound : m₁.heap.userdatum 1 = boundNamed 1 "outer" := pending.bound
    have options : m₁.world.options = {} := pending.options
    show callHooked m₁ (.userdata 1) [] = _
    unfold callHooked fire
    rw [show overflows m₁ = false from rfl, if_neg Bool.false_ne_true, quiet]
    show Progress.running (callUserdata m₁ 1 []) = _
    unfold callUserdata
    rw [bound, World.pullMany, options]
    rfl
  have above : m.stack.length < m.stack.length + 1 := Nat.lt_succ_self _
  have during := (During.starts resumes).goesOn (fun thread args control => by cases control) calls
    above
  exact ⟨_,
    during.goesOn (fun thread args control => by cases control) rfl (Nat.lt_succ_of_lt above),
    rfl, rfl, pending.active, pending.named, pending.options⟩

lemma Pending.through (pending : Pending m inv) : Through m := by
  intro thread args wrapped
  rw [pending.control] at wrapped
  cases wrapped

lemma Inner.moment (inner : Inner m inv m') (pending : Pending m inv) : Moment m' :=
  (inner.during.suffix pending.moment pending.through pending.control).1

/-- The outer coroutine has resumed another one. -/
lemma Inner.normal (inner : Inner m inv m') (pending : Pending m inv) :
    m'.world.status 0 = .normal :=
  ((inner.moment pending).nests.normal 0).2 (inner.active ▸ List.mem_cons_self)

/-- The body of the inner coroutine is refused the outer one, and ends. -/
lemma Inner.refused (inner : Inner m inv m') (pending : Pending m inv) :
    step m' = .running (m'.go (.finished (.str "Cannot resume normal coroutine") resumeOuter)) := by
  have mem : 0 ∈ m'.world.active := inner.active ▸ List.mem_cons_of_mem 1 List.mem_cons_self
  have told :=
    (inner.moment pending).nests.tells 0 mem "outer" resumeOuter inner.control inner.named
  rw [told, inner.normal pending]
  rfl

/-- The function of the inner coroutine returns, and its resume ends. -/
lemma Inner.exists_last (inner : Inner m inv m') (pending : Pending m inv) :
    ∃ m₁ m₂, During m m₁ ∧ Through m₁ ∧ step m₁ = .running m₂ ∧ m₁.world.active = [1, 0] ∧
      m₂.stack = m.stack := by
  let text := "Cannot resume normal coroutine"
  let m₁ : Machine :=
    { m' with
      stack := .resumed 1 (.body inv) m.depth m.thread :: m.stack
      control := .values [.ofString text] }
  have returns : step (m'.go (.finished (.str text) resumeOuter)) = .running m₁ := by
    unfold step popped
    dsimp only [go]
    rw [inner.stack]
    have fits : checkTransfer m'.world.options.maxTransferValues 1 = .ok () := by
      rw [inner.options]
      rfl
    have pushed : m'.world.pushMany [.str text] = (.ok [.ofString text], m'.world) := by
      unfold World.pushMany Bridge.pushMany
      rw [List.length_singleton, fits]
      rfl
    show Progress.running (deliverAll { m' with stack := _ } [.str text]) = _
    unfold deliverAll
    dsimp only
    rw [pushed]
    rfl
  have above : m.stack.length < m.stack.length + 1 := Nat.lt_succ_self _
  have ended := inner.during.goesOn (fun thread args control => by
    rw [inner.control] at control
    cases control) (inner.refused pending) (inner.stack ▸ Nat.lt_succ_of_lt above)
  have last := ended.goesOn (fun thread args control => by cases control) returns above
  have through : Through m₁ := fun thread args control => by cases control
  exact ⟨m₁, _, last, through, rfl, inner.active, rfl⟩

/-- While the inner coroutine runs, both are on the list and the outer one is refused. When the
inner one's resume ends the outer one is the innermost again, and after that none is active. -/
theorem active_mirrors_looping :
    (∃ m inv, Moment m ∧ m.world.active = [1, 0] ∧ m.control = .body (.resume "outer") inv ∧
      step m = .running (m.go (.finished (.str "Cannot resume normal coroutine") inv)) ∧
      resume m.world 0 [] = (.error (.coroutineNotSuspended .normal), m.world)) ∧
    (∃ m inv m₁ m₂, Moment m ∧ m.control = .resume 1 [] (.body inv) ∧ During m m₁ ∧
      m₁.world.active = [1, 0] ∧ step m₁ = .running m₂ ∧ m₂.world.active = [0]) ∧
    (resume looping 0 []).2.active = looping.active := by
  obtain ⟨m, inv, pending⟩ := exists_pending
  obtain ⟨m', inner⟩ := pending.exists_inner
  refine ⟨⟨m', resumeOuter, ?_⟩, ?_, ?_⟩
  · have moment := inner.moment pending
    have nests := active_mirrors.1 m' moment
    have mem : 0 ∈ m'.world.active := inner.active ▸ List.mem_cons_of_mem 1 List.mem_cons_self
    refine ⟨moment, inner.active, inner.control, inner.refused pending, ?_⟩
    rw [nests.refuses 0 mem, inner.normal pending]
  · obtain ⟨m₁, m₂, during, through, stepped, active, back⟩ := inner.exists_last pending
    obtain ⟨-, proceeds⟩ := (active_mirrors.1 m pending.moment).proceeds 1 [] (.body inv)
      pending.through pending.control m₁ during through
    refine ⟨m, inv, m₁, m₂, pending.moment, pending.control, during, active, stepped, ?_⟩
    rw [stepped] at proceeds
    rcases proceeds with ⟨inside, -⟩ | ⟨inv', r, -, -, -, left⟩
    · rw [back] at inside
      exact absurd inside (Nat.lt_irrefl _)
    · exact (List.cons.inj (left.active.symm.trans pending.active)).2
  · refine active_mirrors.2 looping 0 [] idle_looping fun pushed w' eq => ?_
    cases eq
    have completes : Completes 12 (resumed (looping.pushMany []).2 0 []) := by
      refine .step ?_ rfl (.step ?_ rfl (.step ?_ rfl (.step ?_ rfl (.step ?_ rfl (.step ?_ rfl
        (.step ?_ rfl (.step ?_ rfl (.step ?_ rfl (.step ?_ rfl (.step ?_ rfl
        (.halts 0 rfl)))))))))))
      all_goals
        intro thread args control
        cases control
    exact completes.le (by decide)

end Bench

end ScriptBridge.Session
