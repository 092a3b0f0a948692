import ScriptBridge.Proofs.Resuming

/-!
# Coroutines that a run leaves alone

A coroutine that does not wait stays what it is for as long as nothing comes back to a mark of its
own: one that is dead stays dead, and one that runs is not touched by those that run inside of it.
Whatever scripts do with coroutines of their own, the list of active coroutines is that of the
resumes by the host and by bodies.
-/

namespace ScriptBridge.Machine

open Script Bridge

/-- The coroutine is in some state, and nothing on the stack can come back to it. -/
structure Still (thread : Nat) (state : Thread) (m : Machine) : Prop where
  there : thread < m.world.threads.size
  state : m.world.thread thread = state
  unmarked : ∀ f ∈ m.stack, f.marked ≠ some thread

/-- A step leaves the coroutine in its state. -/
def Stands (thread : Nat) (state : Thread) : Machine.Progress → Prop
  | .running m => Still thread state m
  | .halted _ w => thread < w.threads.size ∧ w.thread thread = state

/-- After a step no coroutine inside of which another one runs is waiting. -/
def Parts : Machine.Progress → Prop
  | .running m => m.world.Parted
  | .halted _ w => w.Parted

/-- The coroutines with a mark on the stack that were resumed by the host or by bodies. -/
def bodied (stack : List Frame) : List Nat :=
  stack.filterMap fun
    | .resumed _ .wrapper _ _ => none
    | .resumed thread _ _ _ => some thread
    | _ => none

/-- Behind the resumes that the machine has in progress, the list of active coroutines is this. -/
structure Behind (around : List Nat) (m : Machine) : Prop where
  active : m.world.active = m.control.entered ++ bodied m.stack ++ around
  /-- What is about to be resumed waits for it. -/
  waits : ∀ thread ∈ m.control.entered, (m.world.thread thread).waits = true

/-- A step leaves alone what is behind its resumes. -/
def KeepsBehind (around : List Nat) : Machine.Progress → Prop
  | .running m => Behind around m
  | .halted _ w => w.active = around

section Threads

variable {w w' : World} {id : Nat}

/-- A coroutine that is there is not a new one. -/
lemma World.Extends.thread_of_lt (extends' : w.Extends w') (there : id < w.threads.size) :
    id < w'.threads.size ∧ w'.thread id = w.thread id := by
  obtain ⟨fresh, threads⟩ := extends'
  have size : w'.threads.size = w.threads.size + fresh.length := by
    rw [← Array.length_toList, threads]
    simp
  refine ⟨by omega, ?_⟩
  unfold World.thread
  rw [← Array.getElem?_toList, ← Array.getElem?_toList, threads,
    List.getElem?_append_left (by simpa using there)]

lemma size_setThread (w : World) (id : Nat) (t : Thread) :
    (w.setThread id t).threads.size = w.threads.size := by
  simp [World.setThread]

end Threads

section Marks

variable {above rest stack : List Frame}

lemma bodied_append_unmarked (inside : ∀ f ∈ above, f.isMark = false) (rest : List Frame) :
    bodied (above ++ rest) = bodied rest := by
  unfold bodied
  rw [List.filterMap_append, List.filterMap_eq_nil_iff.2, List.nil_append]
  intro f mem
  have unmarked := inside f mem
  cases f <;> first | rfl | cases unmarked

lemma bodied_eq_nil (inside : ∀ f ∈ stack, f.isMark = false) : bodied stack = [] := by
  have same := bodied_append_unmarked inside []
  rw [List.append_nil] at same
  exact same

lemma bodied_outer (stack : List Frame) : bodied (outer stack) = bodied stack := by
  obtain ⟨above, eq, inside⟩ := exists_outer stack
  exact (bodied_append_unmarked inside _).symm.trans (congrArg bodied eq.symm)

/-- Marks that are not on the part of the stack from the innermost one on are not on the stack. -/
lemma unmarked_of_outer {thread : Nat} (clear : ∀ f ∈ outer stack, f.marked ≠ some thread) :
    ∀ f ∈ stack, f.marked ≠ some thread := by
  obtain ⟨above, eq, inside⟩ := exists_outer stack
  intro f mem
  rw [eq] at mem
  rcases List.mem_append.1 mem with mem | mem
  · simp [marked_eq_none (inside f mem)]
  · exact clear f mem

end Marks

section Steps

variable {m : Machine} {thread : Nat} {state : Thread}

/-- Each step leaves what waits without marks of its own inside. -/
theorem World.Parted.step (parted : m.world.Parted) : Parts (Machine.step m) := by
  have effect := step_effect m
  generalize Machine.step m = p at effect
  cases effect with
  | works works => exact parted.extend works.grows.threads
  | enters resumable => exact parted
  | @starts thread args by_ control =>
    have started := parted.setThread thread (t := .active) fun stack depth eq => by cases eq
    show (Machine.resume m thread args by_).world.Parted
    unfold Machine.resume
    dsimp only
    split
    · exact started
    · exact started
    · exact parted
    · exact parted
    · exact parted
  | @ends thread by_ r above m' departs =>
    obtain ⟨w, t, becomes, leaves, world⟩ := departs.world
    have left : m'.world.Parted := by
      rw [world]
      refine (parted.extend becomes.grows.threads).setThread thread fun stack depth eq => ?_
      rw [eq] at leaves
      cases r with
      | yielded vs =>
        obtain ⟨rfl, -⟩ := leaves
        exact departs.inside
      | _ => cases leaves
    cases by_ with
    | wrapper => cases r <;> exact left
    | body inv => exact left
    | session => exact left
  | halts unmarked => exact parted

/-- Starting another coroutine that waits does not touch this one. -/
lemma Still.starts (still : Still thread state m) (idle : state.waits = false)
    (parted : m.world.Parted) (other : Nat) (args : List Value) (by_ : Resumer) :
    Still thread state (resume m other args by_) := by
  by_cases waits : (m.world.thread other).waits = true
  · have differs : thread ≠ other := by
      rintro rfl
      rw [still.state, idle] at waits
      cases waits
    obtain ⟨world, -, above, stack, suspended⟩ := resume_of_waits waits args by_
    have inside : ∀ f ∈ above, f.isMark = false := by
      rcases suspended with rfl | ⟨depth, eq⟩
      · exact fun f mem => by cases mem
      · exact parted other above depth eq
    refine ⟨?_, ?_, ?_⟩
    · rw [world, size_setThread]
      exact still.there
    · rw [world, setThread_ne differs, still.state]
    · rw [stack]
      intro f mem
      rcases List.mem_append.1 mem with mem | mem
      · simp [marked_eq_none (inside f mem)]
      · rcases List.mem_cons.1 mem with rfl | mem
        · simpa [Frame.marked] using Ne.symm differs
        · exact still.unmarked f mem
  · unfold resume
    cases eq : m.world.thread other with
    | fresh f => simp [eq, Thread.waits] at waits
    | suspended stack depth => simp [eq, Thread.waits] at waits
    | _ => exact ⟨still.there, still.state, still.unmarked⟩

/-- Coming back to the mark of another coroutine does not touch this one. -/
lemma Still.ends (still : Still thread state m) {other : Nat} {by_ : Resumer} {r : Resumption}
    {above : List Frame} {m' : Machine} (departs : Departs m other by_ r above m') :
    Still thread state m' := by
  obtain ⟨w, t, becomes, -, world⟩ := departs.world
  obtain ⟨outer, around, stack⟩ := departs.stack
  have differs : thread ≠ other := by
    rintro rfl
    exact still.unmarked (.resumed thread by_ outer around) (by simp [stack]) rfl
  obtain ⟨there, same⟩ := becomes.grows.threads.thread_of_lt still.there
  refine ⟨?_, ?_, fun f mem => still.unmarked f ?_⟩
  · rw [world, size_setThread]
    exact there
  · rw [world, setThread_ne differs, same, still.state]
  · simp [stack, mem]

/-- A coroutine that does not wait is what it was after a step that does not come back to it. -/
theorem Still.step (still : Still thread state m) (idle : state.waits = false)
    (settled : Session.Settled m) (parted : m.world.Parted) :
    Stands thread state (Machine.step m) := by
  have effect := step_effect m
  generalize Machine.step m = p at effect
  -- Work only adds coroutines: those that are there change where one starts or comes to its mark.
  cases effect with
  | works works =>
    obtain ⟨there, same⟩ := works.grows.threads.thread_of_lt still.there
    refine ⟨there, same.trans still.state, unmarked_of_outer ?_⟩
    rw [works.outer (tidy_of_settled settled)]
    exact fun f mem => still.unmarked f (mem_of_mem_outer mem)
  | enters resumable => exact ⟨still.there, still.state, still.unmarked⟩
  | @starts other args by_ control => exact still.starts idle parted other args by_
  | @ends other by_ r above m' departs =>
    have left := still.ends departs
    cases by_ with
    | wrapper => cases r <;> exact ⟨left.there, left.state, left.unmarked⟩
    | body inv => exact ⟨left.there, left.state, left.unmarked⟩
    | session => exact ⟨left.there, left.state⟩
  | halts unmarked => exact ⟨still.there, still.state⟩

end Steps

section Lists

variable {m : Machine} {around : List Nat}

/-- The list is in line where no coroutine is about to be resumed. -/
lemma Behind.of_idle (idle : m.control.entered = []) (active : m.world.active
    = bodied m.stack ++ around) : Behind around m where
  active := by simpa [idle] using active
  waits := by simp [idle]

/-- The mark of a coroutine that starts takes its place on the list. -/
lemma Behind.starts (behind : Behind around m) {thread : Nat} {args : List Value} {by_ : Resumer}
    (control : m.control = .resume thread args by_) (parted : m.world.Parted) :
    Behind around (resume m thread args by_) := by
  have active := behind.active
  by_cases waits : (m.world.thread thread).waits = true
  · obtain ⟨world, idle, above, stack, suspended⟩ := resume_of_waits waits args by_
    have inside : ∀ f ∈ above, f.isMark = false := by
      rcases suspended with rfl | ⟨depth, eq⟩
      · exact fun f mem => by cases mem
      · exact parted thread above depth eq
    have marks : bodied (resume m thread args by_).stack = m.control.entered ++ bodied m.stack := by
      rw [stack, bodied_append_unmarked inside, control]
      cases by_ <;> rfl
    refine .of_idle idle ?_
    rw [marks, world]
    exact active
  · cases by_ with
    | wrapper =>
      rw [control] at active
      unfold resume
      cases eq : m.world.thread thread with
      | fresh f => simp [eq, Thread.waits] at waits
      | suspended stack depth => simp [eq, Thread.waits] at waits
      | _ => exact .of_idle rfl active
    | _ => exact absurd (behind.waits thread (by simp [control, Control.entered])) waits

/-- What is behind the resumes in progress is left alone by each step. -/
theorem Behind.step (behind : Behind around m) (settled : Session.Settled m)
    (parted : m.world.Parted) : KeepsBehind around (Machine.step m) := by
  -- What is about to be resumed is on the list one step before its mark is on the stack.
  by_cases pending : ∃ thread args by_, m.control = .resume thread args by_
  · obtain ⟨thread, args, by_, control⟩ := pending
    unfold Machine.step
    rw [control]
    exact behind.starts control parted
  · have entered := entered_eq_nil fun thread args by_ control =>
      pending ⟨thread, args, by_, control⟩
    have active := behind.active
    rw [entered, List.nil_append] at active
    have effect := step_effect m
    generalize Machine.step m = p at effect
    cases effect with
    | @works m' works =>
      have marks : bodied m'.stack = bodied m.stack := by
        rw [← bodied_outer, works.outer (tidy_of_settled settled), bodied_outer]
      refine .of_idle works.entered ?_
      rw [marks, works.grows.active]
      exact active
    | @enters thread inv store resumable =>
      refine ⟨?_, fun other mem => ?_⟩
      · show thread :: m.world.active = _
        rw [active]
        rfl
      · have waits := waits_of_checkResumable resumable
        rw [List.mem_singleton.1 mem]
        exact waits
    | @starts thread args by_ control => exact absurd ⟨thread, args, by_, control⟩ pending
    | @ends thread by_ r above m' departs =>
      obtain ⟨w, t, becomes, -, world⟩ := departs.world
      obtain ⟨outer, outer', stack⟩ := departs.stack
      have same : m'.world.active = m.world.active := by
        rw [world]
        exact becomes.grows.active
      have marks := bodied_append_unmarked departs.inside
        (.resumed thread by_ outer outer' :: m'.stack)
      rw [← stack] at marks
      rw [marks] at active
      cases by_ with
      | wrapper => cases r <;> exact .of_idle rfl (same.trans active)
      | body inv =>
        refine .of_idle rfl ?_
        show m'.world.active.erase thread = _
        rw [same, active]
        exact List.erase_cons_head thread (bodied m'.stack ++ around)
      | session =>
        have bottom := session_bottom settled stack
        rw [bottom] at active
        show m'.world.active.erase thread = _
        rw [same, active]
        exact List.erase_cons_head thread around
    | halts unmarked =>
      rw [bodied_eq_nil unmarked] at active
      exact active

end Lists

end ScriptBridge.Machine

namespace ScriptBridge.Session

open Script Bridge Machine

/-- What a session gets to from a world when every run that the host starts comes to its end. -/
inductive Later (w : World) : World → Prop
  | here : Later w w
  | act {w' w'' : World} (h : Later w w') (acts : Acts w' w'') (same : w''.active = w'.active) :
      Later w w''
  | halted {w' w'' : World} {m m' : Machine} {o : Outcome} (h : Later w w') (begins : Begins w' m)
      (runs : Runs m m') (halts : step m' = .halted o w'') : Later w w''

section Runs

variable {w w' : World} {m m' : Machine} {thread : Nat} {state : Thread} {around : List Nat}

lemma Runs.parted (runs : Runs m m') (parted : m.world.Parted) : m'.world.Parted := by
  induction runs with
  | here => exact parted
  | step _ stepped ih =>
    have parts := ih.step
    rw [stepped] at parts
    exact parts

/-- In a world that a session gets into, no coroutine inside of which another one runs waits. -/
theorem Reached.parted (h : Reached w) : w.Parted := by
  induction h with
  | create options registered types nextIdentity closer engine =>
    exact (rests_create _ _ _ _).parted
  | act _ acts ih => exact ih.extend acts.extends
  | halted _ opens runs halts ih =>
    have parts := (runs.parted ih).step
    rw [halts] at parts
    exact parts
  | stopped _ opens runs ih => exact runs.parted ih

lemma Runs.still (runs : Runs m m') (settled : Settled m) (parted : m.world.Parted)
    (idle : state.waits = false) (still : Still thread state m) : Still thread state m' := by
  induction runs with
  | here => exact still
  | step runs stepped ih =>
    have stands := ih.step idle (runs.settled settled) (runs.parted parted)
    rw [stepped] at stands
    exact stands

lemma Runs.behind (runs : Runs m m') (settled : Settled m) (parted : m.world.Parted)
    (behind : Behind around m) : Behind around m' := by
  induction runs with
  | here => exact behind
  | step runs stepped ih =>
    have keeps := ih.step (runs.settled settled) (runs.parted parted)
    rw [stepped] at keeps
    exact keeps

lemma Begins.behind (begins : Begins w m) : Behind w.active m := by
  cases begins with
  | run opens plain => exact .of_idle plain rfl
  | @resume thread args ok =>
    refine ⟨rfl, fun other mem => ?_⟩
    have waits := waits_of_checkResumable ok
    rw [List.mem_singleton.1 mem]
    exact waits

lemma Later.reached (later : Later w w') (reached : Reached w) : Reached w' := by
  induction later with
  | here => exact reached
  | act _ acts _ ih => exact ih.act acts
  | halted _ begins runs halts ih =>
    obtain ⟨reached, opens, eq⟩ := begins.reached ih
    rw [eq] at runs
    exact reached.halted opens runs halts

/-- Whoever was being resumed by the host and by bodies still is when a run has come to its end. -/
theorem Later.active (later : Later w w') (reached : Reached w) : w'.active = w.active := by
  induction later with
  | here => rfl
  | act _ _ same ih => exact same.trans ih
  | @halted w' w'' m m' o later begins runs halts ih =>
    obtain ⟨reached', opens, eq⟩ := begins.reached (later.reached reached)
    have settled : Settled m := eq ▸ opens.settled reached'.sound
    have parted := reached'.parted
    have keeps := (runs.behind settled parted begins.behind).step (runs.settled settled)
      (runs.parted parted)
    rw [halts] at keeps
    exact keeps.trans ih

/-- A coroutine that does not wait is never gone on with. -/
theorem Later.stands (later : Later w w') (reached : Reached w) (idle : state.waits = false)
    (there : thread < w.threads.size) (stands : w.thread thread = state) :
    thread < w'.threads.size ∧ w'.thread thread = state := by
  induction later with
  | here => exact ⟨there, stands⟩
  | act _ acts _ ih =>
    obtain ⟨there, same⟩ := acts.extends.thread_of_lt ih.1
    exact ⟨there, same.trans ih.2⟩
  | @halted w' w'' m m' o later begins runs halts ih =>
    obtain ⟨reached', opens, eq⟩ := begins.reached (later.reached reached)
    have settled : Settled m := eq ▸ opens.settled reached'.sound
    have parted := reached'.parted
    have still : Still thread state m := by
      cases begins with
      | run opens plain => exact ⟨ih.1, ih.2, by simp⟩
      | resume ok => exact ⟨ih.1, ih.2, by simp⟩
    have stands := (runs.still settled parted idle still).step idle (runs.settled settled)
      (runs.parted parted)
    rw [halts] at stands
    exact stands

end Runs

end ScriptBridge.Session
