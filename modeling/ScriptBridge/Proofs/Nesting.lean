import Mathlib.Data.List.TakeWhile
import Mathlib.Tactic.Lemma
import ScriptBridge.Proofs.Effect
import ScriptBridge.Proofs.Reach

/-!
# The coroutines being resumed

The list of active coroutines mirrors the marks on the stack, as long as coroutines are resumed by
the host and by its bodies only: each step keeps the two in line, on every way into a coroutine and
out of it.
-/

namespace ScriptBridge.Machine

open Script Bridge

/-- The coroutine whose mark a frame is. -/
def Frame.marked : Frame → Option Nat
  | .resumed thread _ _ _ => some thread
  | _ => none

/-- Whether a script waits for the coroutine whose mark a frame is. -/
def Frame.isWrapped : Frame → Bool
  | .resumed _ .wrapper _ _ => true
  | _ => false

/-- The coroutines with a mark on the stack, innermost first. -/
def marked (stack : List Frame) : List Nat :=
  stack.filterMap Frame.marked

/-- The coroutines whose resume is in progress, innermost first. -/
def resuming (m : Machine) : List Nat :=
  m.control.entered ++ marked m.stack

/-- No coroutine inside of which another one runs is waiting. -/
def World.Parted (w : World) : Prop :=
  ∀ thread stack depth, w.thread thread = .suspended stack depth → ∀ f ∈ stack, f.isMark = false

/-- No coroutine is being resumed. -/
structure World.Rests (w : World) : Prop where
  active : w.active = []
  still : ∀ thread, w.thread thread ≠ .active
  parted : w.Parted

/-- The list of active coroutines is that of the resumes in progress. -/
structure Mirrors (m : Machine) : Prop where
  active : m.world.active = resuming m
  nodup : m.world.active.Nodup
  running : ∀ thread, m.world.thread thread = .active ↔ thread ∈ marked m.stack
  parted : m.world.Parted
  bridged : ∀ f ∈ m.stack, f.isWrapped = false
  /-- What is about to be resumed waits for it. -/
  entered : ∀ thread ∈ m.control.entered, (m.world.thread thread).waits = true

/-- The list is in line after a step, and empty when the run is over. -/
def Mirrored : Machine.Progress → Prop
  | .running m => Mirrors m
  | .halted _ w => w.Rests

/-- A script is not about to resume a coroutine by itself. -/
def Through (m : Machine) : Prop :=
  ∀ thread args, m.control ≠ .resume thread args .wrapper

section Marks

variable {above rest stack : List Frame}

lemma marked_eq_none {f : Frame} (unmarked : f.isMark = false) : f.marked = none := by
  cases f <;> first | rfl | cases unmarked

lemma isWrapped_eq_false {f : Frame} (unmarked : f.isMark = false) : f.isWrapped = false := by
  cases f <;> first | rfl | cases unmarked

lemma marked_append (inside : ∀ f ∈ above, f.isMark = false) (rest : List Frame) :
    marked (above ++ rest) = marked rest := by
  unfold marked
  rw [List.filterMap_append, List.filterMap_eq_nil_iff.2 fun f mem => marked_eq_none (inside f mem),
    List.nil_append]

lemma marked_eq_nil (inside : ∀ f ∈ stack, f.isMark = false) : marked stack = [] :=
  List.filterMap_eq_nil_iff.2 fun f mem => marked_eq_none (inside f mem)

/-- The frames above the innermost mark do not count. -/
lemma exists_outer (stack : List Frame) :
    ∃ above, stack = above ++ outer stack ∧ ∀ f ∈ above, f.isMark = false := by
  refine ⟨stack.takeWhile (!·.isMark), List.takeWhile_append_dropWhile.symm, fun f mem => ?_⟩
  simpa using List.mem_takeWhile_imp mem

lemma marked_outer (stack : List Frame) : marked (outer stack) = marked stack := by
  obtain ⟨above, eq, inside⟩ := exists_outer stack
  exact (marked_append inside _).symm.trans (congrArg marked eq.symm)

/-- What has no bearing on marks is told by the part of the stack from the innermost one on. -/
lemma isWrapped_outer (bridged : ∀ f ∈ outer stack, f.isWrapped = false) :
    ∀ f ∈ stack, f.isWrapped = false := by
  obtain ⟨above, eq, inside⟩ := exists_outer stack
  intro f mem
  rw [eq] at mem
  rcases List.mem_append.1 mem with mem | mem
  · exact isWrapped_eq_false (inside f mem)
  · exact bridged f mem

lemma mem_of_mem_outer {f : Frame} (mem : f ∈ outer stack) : f ∈ stack :=
  (List.dropWhile_suffix _).subset mem

end Marks

section Threads

variable {w w' : World}

/-- Coroutines that were there are as they were. -/
lemma World.Extends.thread (extends' : w.Extends w') (id : Nat) :
    w'.thread id = w.thread id ∨ w.thread id = .finished ∧ ∃ f, w'.thread id = .fresh f := by
  obtain ⟨fresh, threads⟩ := extends'
  unfold World.thread
  rw [← Array.getElem?_toList, ← Array.getElem?_toList, threads]
  by_cases old : id < w.threads.toList.length
  · rw [List.getElem?_append_left old]
    exact Or.inl rfl
  · rw [List.getElem?_append_right (Nat.le_of_not_lt old), List.getElem?_map,
      List.getElem?_eq_none (Nat.le_of_not_lt old)]
    cases fresh[id - w.threads.toList.length]? with
    | none => exact Or.inl rfl
    | some f => exact Or.inr ⟨rfl, f, rfl⟩

lemma lt_size_of_thread {id : Nat} (there : w.thread id ≠ .finished) : id < w.threads.size := by
  by_contra bound
  apply there
  unfold World.thread
  rw [Array.getElem?_eq_none (Nat.le_of_not_lt bound)]
  rfl

lemma setThread_self {id : Nat} (there : w.thread id ≠ .finished) (t : Thread) :
    (w.setThread id t).thread id = t := by
  have bound := lt_size_of_thread there
  unfold World.thread World.setThread
  rw [Array.getElem?_setIfInBounds_self_of_lt bound]
  rfl

lemma setThread_ne {id other : Nat} (differs : other ≠ id) (t : Thread) :
    (w.setThread id t).thread other = w.thread other := by
  unfold World.thread World.setThread
  rw [Array.getElem?_setIfInBounds_ne differs.symm]

/-- New coroutines are not active. -/
lemma World.Extends.active_iff (extends' : w.Extends w') (id : Nat) :
    w'.thread id = .active ↔ w.thread id = .active := by
  rcases extends'.thread id with same | ⟨finished, f, fresh⟩
  · rw [same]
  · rw [finished, fresh]
    constructor <;> intro eq <;> cases eq

lemma World.Parted.extend (parted : w.Parted) (extends' : w.Extends w') : w'.Parted := by
  intro id stack depth waits
  rcases extends'.thread id with same | ⟨-, f, fresh⟩
  · exact parted id stack depth (same ▸ waits)
  · rw [fresh] at waits
    cases waits

lemma World.Parted.setThread (parted : w.Parted) (id : Nat) {t : Thread}
    (inside : ∀ stack depth, t = .suspended stack depth → ∀ f ∈ stack, f.isMark = false) :
    (w.setThread id t).Parted := by
  intro other stack depth waits
  unfold World.thread World.setThread at waits
  rw [Array.getElem?_setIfInBounds] at waits
  split at waits
  · split at waits
    · exact inside stack depth waits
    · cases waits
  · exact parted other stack depth waits

lemma status_head {thread : Nat} (head : w.active.head? = some thread) :
    w.status thread = .running := by
  obtain ⟨rest, eq⟩ := List.head?_eq_some_iff.1 head
  unfold World.status
  rw [eq]
  exact if_pos (beq_self_eq_true thread)

lemma status_tail {thread : Nat} (inner : w.active.head? ≠ some thread)
    (mem : thread ∈ w.active.tail) : w.status thread = .normal := by
  unfold World.status
  cases eq : w.active with
  | nil =>
    rw [eq] at mem
    cases mem
  | cons innermost rest =>
    rw [eq] at inner mem
    have differs : innermost ≠ thread := fun same => inner (congrArg some same)
    have mem : thread ∈ rest := mem
    dsimp only
    rw [if_neg (by simpa using differs), if_pos (List.contains_iff_mem.2 mem)]

lemma status_of_not_mem {thread : Nat} (out : thread ∉ w.active) :
    w.status thread = World.status.halted w thread := by
  unfold World.status
  cases eq : w.active with
  | nil => rfl
  | cons innermost rest =>
    rw [eq] at out
    have differs : innermost ≠ thread := fun same => out (same ▸ List.mem_cons_self)
    have others : thread ∉ rest := fun mem => out (List.mem_cons_of_mem innermost mem)
    dsimp only
    rw [if_neg (by simpa using differs), if_neg (by simpa using others)]

lemma head_or_mem_tail {list : List Nat} {thread : Nat} (mem : thread ∈ list) :
    list.head? = some thread ∨ thread ∈ list.tail := by
  cases mem with
  | head => exact Or.inl rfl
  | tail _ mem => exact Or.inr mem

lemma status_of_mem {thread : Nat} (mem : thread ∈ w.active) :
    w.status thread = .running ∨ w.status thread = .normal := by
  by_cases head : w.active.head? = some thread
  · exact Or.inl (status_head head)
  · exact Or.inr (status_tail head ((head_or_mem_tail mem).resolve_left head))

end Threads

section Steps

variable {m m' : Machine} {w : World}

lemma Leads.outer_dropWhile {b : Mode} {fs : List Frame} (h : Leads .block fs b) (hb : b ≠ .block)
    (base : List Frame) : outer ((fs ++ base).dropWhile fun
      | .function _ => false
      | _ => true) = outer (fs ++ base) := by
  induction fs with
  | nil => exact absurd h.symm hb
  | cons f rest ih =>
    cases f with
    | function outer => rfl
    | next r => exact ih h.2.2
    | counting name next rounds body r => exact ih h.2.2
    | stepping name next last body r => exact ih h.2.2
    | whileBody condition body r => exact ih h.2.2
    | _ => cases h.1

/-- The order of frames keeps marks in their place. -/
lemma tidy_of_settled (settled : Session.Settled m) : Tidy m := by
  cases settled with
  | @working base floor within =>
    obtain ⟨mode, ⟨-, fs, stack, leads⟩, fits⟩ := within
    constructor
    · intro left dropped
      rw [stack] at dropped ⊢
      cases fs with
      | nil => cases floor <;> cases dropped
      | cons f rest =>
        cases f with
        | ret =>
          cases dropped
          exact (leads.2.2.outer_dropWhile floor.ground.ne_block base).trans (outer_cons rfl _).symm
        | _ => cases dropped
    · intro ends f rest top
      have other : mode ≠ .values := by
        rintro rfl
        cases control : m.control <;> rw [control] at ends fits <;> cases ends <;> cases fits
      rw [stack] at top
      cases fs with
      | nil => exact absurd leads other
      | cons f' rest' =>
        cases top
        cases f <;> first | rfl | exact absurd leads.1 other
  | resuming sound stack control =>
    constructor
    · intro left dropped
      rw [stack] at dropped
      cases dropped
    · intro ends f rest top
      rw [stack] at top
      cases top

lemma Leads.endsRun {a b : Mode} {fs : List Frame} (h : Leads a fs b) :
    ∀ f ∈ fs, f.endsRun = false := by
  induction fs generalizing a with
  | nil => exact fun f mem => by cases mem
  | cons f rest ih =>
    intro g mem
    rcases List.mem_cons.1 mem with rfl | mem
    · exact h.2.1
    · exact ih h.2.2 g mem

/-- Nothing is below the mark of a coroutine that the host resumed. -/
lemma session_bottom (settled : Session.Settled m) {above rest : List Frame} {thread outer : Nat}
    {around : Option Nat}
    (stack : m.stack = above ++ .resumed thread .session outer around :: rest) : rest = [] := by
  cases settled with
  | @working base floor within =>
    obtain ⟨mode, ⟨-, fs, eq, leads⟩, -⟩ := within
    have absurd {left : List Frame}
        (same : fs = above ++ .resumed thread .session outer around :: left) : False := by
      have mark := leads.endsRun (.resumed thread .session outer around) (by simp [same])
      cases mark
    rw [stack] at eq
    rcases List.eq_nil_or_concat rest with rfl | ⟨rest, last, rfl⟩
    · rfl
    · exfalso
      cases floor with
      | empty => exact absurd (by simpa using eq.symm)
      | session thread' outer' around' =>
        rw [List.concat_eq_append, ← List.cons_append, ← List.append_assoc] at eq
        exact absurd (List.append_inj_left' eq rfl).symm
  | resuming sound empty control =>
    rw [empty] at stack
    exact absurd stack.symm (by simp)

/-- Work above the innermost mark leaves the list and the marks alone. -/
lemma Mirrors.works (mirrors : Mirrors m) (tidy : Tidy m) (entered : m.control.entered = [])
    (works : Works m m') : Mirrors m' := by
  have grows := works.grows
  have marks : marked m'.stack = marked m.stack := by
    rw [← marked_outer, works.outer tidy, marked_outer]
  exact
    { active := by
        rw [grows.active, mirrors.active, resuming, resuming, marks, entered, works.entered]
      nodup := grows.active ▸ mirrors.nodup
      running := fun thread => by rw [grows.threads.active_iff, mirrors.running, marks]
      parted := mirrors.parted.extend grows.threads
      bridged := by
        apply isWrapped_outer
        rw [works.outer tidy]
        exact fun f mem => mirrors.bridged f (mem_of_mem_outer mem)
      entered := by
        rw [works.entered]
        exact fun thread mem => by cases mem }

/-- A coroutine on the list is refused another resume. -/
lemma checkResumable_of_mem {thread : Nat} (mem : thread ∈ w.active) :
    w.checkResumable thread = .error (.coroutineNotSuspended (w.status thread)) := by
  unfold World.checkResumable
  rcases status_of_mem mem with status | status
  · rw [status]
  · rw [status]

/-- What can be resumed is not on the list. -/
lemma not_mem_of_checkResumable {thread : Nat} (ok : w.checkResumable thread = .ok ()) :
    thread ∉ w.active := by
  intro mem
  rw [checkResumable_of_mem mem] at ok
  cases ok

lemma Mirrors.enters (mirrors : Mirrors m) (entered : m.control.entered = []) {thread : Nat}
    {inv : Invocation} {store : Store} (resumable : m.world.checkResumable thread = .ok ()) :
    Mirrors { m with
      world := { m.world with store, active := thread :: m.world.active }
      control := .resume thread [] (.body inv) } where
  active := by
    rw [mirrors.active, resuming, resuming, entered]
    rfl
  nodup := List.nodup_cons.2 ⟨not_mem_of_checkResumable resumable, mirrors.nodup⟩
  running := mirrors.running
  parted := mirrors.parted
  bridged := mirrors.bridged
  entered other mem := by
    have waits := waits_of_checkResumable resumable
    rw [List.mem_singleton.1 mem]
    exact waits

/-- The mark of a coroutine that was entered goes on the stack. -/
lemma Mirrors.started (mirrors : Mirrors m) {thread : Nat} (entered : m.control.entered = [thread])
    (world : m'.world = m.world.setThread thread .active)
    (marks : marked m'.stack = thread :: marked m.stack)
    (bridged : ∀ f ∈ m'.stack, f.isWrapped = false) (control : m'.control.entered = []) :
    Mirrors m' := by
  have waits := mirrors.entered thread (entered ▸ List.mem_cons_self)
  have there : m.world.thread thread ≠ .finished := by
    intro finished
    rw [finished] at waits
    cases waits
  exact
    { active := by
        rw [world, resuming, control, marks]
        exact mirrors.active.trans (by rw [resuming, entered]; rfl)
      nodup := world ▸ mirrors.nodup
      running := fun other => by
        rw [world, marks]
        by_cases same : other = thread
        · subst same
          rw [setThread_self there]
          exact iff_of_true rfl List.mem_cons_self
        · rw [setThread_ne same, mirrors.running, List.mem_cons, or_iff_right same]
      parted := world ▸ mirrors.parted.setThread thread fun stack depth eq => by cases eq
      bridged
      entered := by
        rw [control]
        exact fun other mem => by cases mem }

/-- The resume of a coroutine that waits puts its mark on the stack, and above it what was
suspended. -/
lemma resume_of_waits {thread : Nat} (waits : (m.world.thread thread).waits = true)
    (args : List Value) (by_ : Resumer) :
    (resume m thread args by_).world = m.world.setThread thread .active ∧
      (resume m thread args by_).control.entered = [] ∧
      ∃ above, (resume m thread args by_).stack
          = above ++ .resumed thread by_ m.depth m.thread :: m.stack ∧
        (above = [] ∨ ∃ depth, m.world.thread thread = .suspended above depth) := by
  unfold resume
  cases state : m.world.thread thread with
  | fresh f => exact ⟨rfl, rfl, [], rfl, Or.inl rfl⟩
  | suspended above depth => exact ⟨rfl, rfl, above, rfl, Or.inr ⟨depth, rfl⟩⟩
  | active =>
    rw [state] at waits
    cases waits
  | finished =>
    rw [state] at waits
    cases waits
  | failed frames =>
    rw [state] at waits
    cases waits

/-- What is about to be resumed by the host or by a body waits for it. -/
lemma Mirrors.pending (mirrors : Mirrors m) (through : Through m) {thread : Nat}
    {args : List Value} {by_ : Resumer} (control : m.control = .resume thread args by_) :
    by_ ≠ .wrapper ∧ m.control.entered = [thread] ∧
      (m.world.thread thread).waits = true := by
  have bridged : by_ ≠ .wrapper := by
    rintro rfl
    exact through thread args control
  have entered : m.control.entered = [thread] := by
    rw [control]
    cases by_ with
    | wrapper => exact absurd rfl bridged
    | _ => rfl
  exact ⟨bridged, entered, mirrors.entered thread (entered ▸ List.mem_cons_self)⟩

lemma Mirrors.starts (mirrors : Mirrors m) (through : Through m) {thread : Nat}
    {args : List Value} {by_ : Resumer} (control : m.control = .resume thread args by_) :
    Mirrors (resume m thread args by_) := by
  obtain ⟨bridged, entered, waits⟩ := mirrors.pending through control
  obtain ⟨world, idle, above, stack, suspended⟩ := resume_of_waits waits args by_
  have inside : ∀ f ∈ above, f.isMark = false := by
    rcases suspended with rfl | ⟨depth, state⟩
    · exact fun f mem => by cases mem
    · exact mirrors.parted thread above depth state
  have mark : (Frame.resumed thread by_ m.depth m.thread).isWrapped = false := by
    cases by_ with
    | wrapper => exact absurd rfl bridged
    | _ => rfl
  refine mirrors.started entered world (stack ▸ marked_append inside _) (fun f mem => ?_) idle
  rw [stack] at mem
  rcases List.mem_append.1 mem with mem | mem
  · exact isWrapped_eq_false (inside f mem)
  · rcases List.mem_cons.1 mem with rfl | mem
    · exact mark
    · exact mirrors.bridged f mem

/-- Coming back to the mark of a coroutine takes it off the list. -/
lemma Mirrors.ends (mirrors : Mirrors m) {thread : Nat} {by_ : Resumer} {r : Resumption}
    {above : List Frame} (departs : Departs m thread by_ r above m') {c : Control}
    (control : c.entered = []) :
    Mirrors ((m'.withWorld (leave m'.world thread)).go c) ∧
      r.Leaves above ((leave m'.world thread).thread thread) := by
  obtain ⟨ends, ⟨outer, around, stack⟩, inside, w, t, becomes, leaves, world⟩ := departs
  have entered := ends.entered
  have grows := becomes.grows
  have marks : marked m.stack = thread :: marked m'.stack := by
    rw [stack, marked_append inside]
    rfl
  have active : m.world.active = thread :: marked m'.stack := by
    rw [mirrors.active, resuming, entered, marks]
    rfl
  obtain ⟨out, nodup⟩ := List.nodup_cons.1 (active ▸ mirrors.nodup)
  have left : (leave m'.world thread).active = marked m'.stack := by
    rw [leave, world]
    show w.active.erase thread = _
    rw [grows.active, active, List.erase_cons_head]
  have threads (other : Nat) :
      (leave m'.world thread).thread other = (w.setThread thread t).thread other := by
    rw [world]
    rfl
  have was : w.thread thread = .active := by
    rw [grows.threads.active_iff, mirrors.running, marks]
    exact List.mem_cons_self
  have there : w.thread thread ≠ .finished := by
    rw [was]
    exact Thread.noConfusion
  refine ⟨?_, by rwa [threads, setThread_self there]⟩
  exact
    { active := by
        rw [resuming]
        exact left.trans (by rw [Machine.go, control]; rfl)
      nodup := left ▸ nodup
      running := fun other => by
        show (leave m'.world thread).thread other = .active ↔ other ∈ marked m'.stack
        rw [threads]
        by_cases same : other = thread
        · subst same
          rw [setThread_self there]
          refine iff_of_false (fun active => ?_) out
          rw [active] at leaves
          cases r <;> exact leaves
        · rw [setThread_ne same, grows.threads.active_iff, mirrors.running, marks, List.mem_cons,
            or_iff_right same]
      parted := by
        intro other frames depth waits
        refine (mirrors.parted.extend grows.threads).setThread thread (fun frames depth eq => ?_)
          other frames depth ((threads other).symm.trans waits)
        rw [eq] at leaves
        cases r with
        | yielded vs =>
          obtain ⟨rfl, -⟩ := leaves
          exact inside
        | _ => cases leaves
      bridged := fun f mem =>
        mirrors.bridged f (stack ▸ List.mem_append_right above (List.mem_cons_of_mem _ mem))
      entered := by
        rw [Machine.go, control]
        exact fun other mem => by cases mem }

/-- Outside of all coroutines none is being resumed. -/
lemma Mirrors.rests (mirrors : Mirrors m) (entered : m.control.entered = [])
    (unmarked : marked m.stack = []) : m.world.Rests where
  active := by rw [mirrors.active, resuming, entered, unmarked]; rfl
  still thread active := by
    have mem := (mirrors.running thread).1 active
    rw [unmarked] at mem
    cases mem
  parted := mirrors.parted

lemma entered_eq_nil (idle : ∀ thread args by_, m.control ≠ .resume thread args by_) :
    m.control.entered = [] := by
  cases control : m.control with
  | resume thread args by_ => exact absurd control (idle thread args by_)
  | _ => rfl

/-- A step keeps the list of active coroutines in line with the stack, and a run that is over has
left them all. -/
theorem Mirrors.step (mirrors : Mirrors m) (settled : Session.Settled m) (through : Through m) :
    Mirrored (Machine.step m) := by
  by_cases pending : ∃ thread args by_, m.control = .resume thread args by_
  · obtain ⟨thread, args, by_, control⟩ := pending
    unfold Machine.step
    rw [control]
    exact mirrors.starts through control
  · have entered := entered_eq_nil fun thread args by_ control =>
      pending ⟨thread, args, by_, control⟩
    have effect := step_effect m
    generalize Machine.step m = p at effect
    cases effect with
    | works works => exact mirrors.works (tidy_of_settled settled) entered works
    | enters resumable => exact mirrors.enters entered resumable
    | @starts thread args by_ control => exact absurd ⟨thread, args, by_, control⟩ pending
    | @ends thread by_ r above m' departs =>
      have left {c : Control} (control : c.entered = []) := (mirrors.ends departs control).1
      obtain ⟨outer, around, stack⟩ := departs.stack
      cases by_ with
      | wrapper =>
        have wrapped := mirrors.bridged (.resumed thread .wrapper outer around) (by simp [stack])
        cases wrapped
      | body inv => exact left rfl
      | session =>
        have bottom := session_bottom settled stack
        exact (left (c := .completed) rfl).rests rfl (congrArg marked bottom)
    | halts unmarked => exact mirrors.rests entered (marked_eq_nil unmarked)

end Steps

section Inside

variable {m m' : Machine}

/-- The innermost mark of a stack is this one, or this one is below it. -/
lemma eq_or_suffix {above above' rest rest' : List Frame} {f g : Frame} (mark : f.isMark = true)
    (inside : ∀ h ∈ above', h.isMark = false) (same : above ++ f :: rest = above' ++ g :: rest') :
    f = g ∧ rest = rest' ∨ f :: rest <:+ rest' := by
  rcases List.append_eq_append_iff.1 same with ⟨more, longer, tail⟩ | ⟨more, longer, tail⟩
  · cases more with
    | nil => exact Or.inl (List.cons.inj tail)
    | cons h more =>
      cases tail
      rw [inside f (by simp [longer])] at mark
      cases mark
  · cases more with
    | nil =>
      obtain ⟨rfl, rfl⟩ := List.cons.inj tail
      exact Or.inl ⟨rfl, rfl⟩
    | cons h more =>
      cases tail
      exact Or.inr ⟨more, rfl⟩

lemma suffix_outer {f : Frame} {rest stack : List Frame} (mark : f.isMark = true)
    (suffix : f :: rest <:+ stack) : f :: rest <:+ outer stack := by
  obtain ⟨above, rfl⟩ := suffix
  obtain ⟨above', eq, inside⟩ := exists_outer (above ++ f :: rest)
  cases left : outer (above ++ f :: rest) with
  | nil =>
    rw [left, List.append_nil] at eq
    have unmarked := inside f (eq ▸ List.mem_append_right above List.mem_cons_self)
    rw [unmarked] at mark
    cases mark
  | cons g rest' =>
    rw [left] at eq
    rcases eq_or_suffix mark inside eq with ⟨rfl, rfl⟩ | inner
    · exact List.suffix_rfl
    · exact inner.trans (List.suffix_cons g rest')

/-- A step leaves a mark on the stack, or comes back from it. -/
theorem step_mark (settled : Session.Settled m) {thread outer : Nat} {by_ : Resumer}
    {around : Option Nat} {rest : List Frame}
    (suffix : .resumed thread by_ outer around :: rest <:+ m.stack) :
    (∃ m', step m = .running m' ∧ .resumed thread by_ outer around :: rest <:+ m'.stack) ∨
      ∃ r above m', step m = report m' thread by_ r.handed ∧ m'.stack = rest ∧
        Departs m thread by_ r above m' := by
  by_cases pending : ∃ thread args by_, m.control = .resume thread args by_
  · obtain ⟨thread', args, by_', control⟩ := pending
    refine Or.inl ⟨resume m thread' args by_', ?_, ?_⟩
    · unfold step
      rw [control]
    · unfold resume
      dsimp only
      split
      · exact suffix.trans (List.suffix_cons _ _)
      · exact suffix.trans ((List.suffix_cons _ _).trans (List.suffix_append _ _))
      · exact suffix
      · exact suffix
      · exact suffix
  · have effect := step_effect m
    generalize step m = p at effect
    cases effect with
    | @works m' works =>
      refine Or.inl ⟨m', rfl, ?_⟩
      have kept := suffix_outer rfl suffix
      rw [← works.outer (tidy_of_settled settled)] at kept
      exact kept.trans (List.dropWhile_suffix _)
    | enters resumable => exact Or.inl ⟨_, rfl, suffix⟩
    | @starts thread args by_ control => exact absurd ⟨thread, args, by_, control⟩ pending
    | @ends thread' by_' r above' m' departs =>
      obtain ⟨outer', around', stack⟩ := departs.stack
      obtain ⟨above, eq⟩ := suffix
      rcases eq_or_suffix rfl departs.inside (eq.trans stack) with ⟨same, rfl⟩ | inner
      · cases same
        exact Or.inr ⟨r, above', m', rfl, rfl, departs⟩
      · -- another coroutine was left, inside of this one
        cases by_' with
        | session =>
          rw [session_bottom settled stack] at inner
          cases List.suffix_nil.1 inner
        | body inv => exact Or.inl ⟨_, rfl, inner⟩
        | wrapper => cases r <;> exact Or.inl ⟨_, rfl, inner⟩
    | halts unmarked =>
      have marked := unmarked _ (suffix.subset List.mem_cons_self)
      cases marked

end Inside

end ScriptBridge.Machine
