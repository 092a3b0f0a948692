import ScriptBridge.Proofs.Below
import ScriptBridge.Proofs.Untouched

/-!
# The function of a coroutine by itself

The function of a coroutine can be run on a stack of its own, with nobody waiting below. Where it
yields, returns or raises there, a resume by the host ends, with what was yielded, returned or
raised; and a resume that ends does so because the function by itself came to such a point.
-/

namespace ScriptBridge.Machine

open Script Bridge

/-- By itself the function of a coroutine comes to a halt after some steps. It yields, values
arrive that nothing of its own waits for, or a value is raised that nothing of its own catches. -/
inductive Comes : Nat → Machine → Resumption → Machine → Prop
  | yields {m m' : Machine} {vs : List Value} (asks : Asks m vs m')
      (free : m.stack.any (·.isHostWait) = false) : Comes 0 m (.yielded vs) m'
  | returns {m : Machine} {vs : List Value} (control : m.control = .values vs)
      (empty : m.stack = []) : Comes 0 m (.returned vs) m
  | raises {m : Machine} {v : Value} (control : m.control = .raising v)
      (clear : ∀ f ∈ m.stack, f.catches = false) : Comes 0 m (.raised v) m
  /-- A yield that host code waits for is refused. -/
  | held {n : Nat} {m m' m'' : Machine} {vs : List Value} {r : Resumption} (asks : Asks m vs m')
      (bound : m.stack.any (·.isHostWait) = true)
      (rest : Comes n (m'.raiseText "attempt to yield across a C-call boundary") r m'') :
      Comes (n + 1) m r m''
  | step {n : Nat} {m m' m'' : Machine} {r : Resumption} (silent : ∀ vs m', ¬ Asks m vs m')
      (stepped : step m = .running m') (rest : Comes n m' r m'') : Comes (n + 1) m r m''

/-- The machine some steps later, if no function was about to yield until then. -/
def advance : Nat → Machine → Option Machine
  | 0, m => some m
  | n + 1, m =>
    match m.control, step m with
    | .call (.function (.builtin .coroutineYield)) _, _ => none
    | _, .running m' => advance n m'
    | _, .halted .. => none

/-- What a coroutine is once its function has come to a halt like this. -/
def Resumption.leaves (r : Resumption) (m : Machine) : Thread :=
  match r with
  | .yielded _ => .suspended m.stack m.depth
  | .returned _ => .finished
  | .raised _ => .failed m.stack

/-- The machine runs the function of a coroutine by itself; others were active before it. -/
structure Alone (thread : Nat) (around : List Nat) (m : Machine) : Prop where
  within : Within [] .values m
  parted : m.world.Parted
  still : Still thread .active m
  behind : Behind (thread :: around) m

/-- The mark of a coroutine that the host resumed outside of any run. -/
def hostMark (thread : Nat) : Frame :=
  .resumed thread .session 0 none

lemma quiet_hostMark (thread : Nat) : Quiet [hostMark thread] :=
  ⟨rfl, by simp [hostMark, Frame.isHostWait]⟩

section Steps

variable {m m' : Machine} {thread : Nat} {around : List Nat} {vs : List Value}

lemma Leads.exists_function {fs : List Frame} {b : Mode} (h : Leads .block fs b)
    (hb : b ≠ .block) : ∃ outer, Frame.function outer ∈ fs := by
  induction fs with
  | nil => exact absurd h.symm hb
  | cons f rest ih =>
    cases f with
    | function outer => exact ⟨outer, List.mem_cons_self⟩
    | next r => exact (ih h.2.2).imp fun _ mem => List.mem_cons_of_mem _ mem
    | counting name next rounds body r =>
      exact (ih h.2.2).imp fun _ mem => List.mem_cons_of_mem _ mem
    | stepping name next last body r =>
      exact (ih h.2.2).imp fun _ mem => List.mem_cons_of_mem _ mem
    | whileBody condition body r => exact (ih h.2.2).imp fun _ mem => List.mem_cons_of_mem _ mem
    | _ => cases h.1

lemma returns_of_within (within : Within [] .values m) : Returns m.stack := by
  obtain ⟨mode, ⟨-, fs, stack, leads⟩, -⟩ := within
  rw [List.append_nil] at stack
  intro rest top
  rw [← stack, top] at leads
  exact leads.2.2.exists_function Mode.noConfusion

/-- By itself the function cannot yield: nobody waits for it. -/
lemma Asks.step (asks : Asks m vs m') :
    step m = .running (m'.raiseText "attempt to yield from outside a coroutine") := by
  have same := (fire_ok (.refl m) asks.hooked).1.stack
  have inside : ∀ f ∈ m'.stack, f.isMark = false := same ▸ asks.unmarked
  unfold Machine.step callHooked
  rw [asks.control]
  dsimp only
  rw [asks.room, asks.hooked]
  show yield m' vs = _
  unfold yield
  rw [span_none inside]

lemma Alone.settled (alone : Alone thread around m) : Session.Settled m :=
  .working .empty alone.within

lemma Alone.step (alone : Alone thread around m) (stepped : Machine.step m = .running m') :
    Alone thread around m' := by
  have within := step_within .empty alone.within (Session.not_done alone.within)
  have parted := alone.parted.step
  have still := alone.still.step rfl alone.settled alone.parted
  have behind := alone.behind.step alone.settled alone.parted
  rw [stepped] at within parted still behind
  exact ⟨within, parted, still, behind⟩

lemma Alone.held (alone : Alone thread around m) (asks : Asks m vs m') (text : String) :
    Alone thread around (m'.raiseText text) := by
  obtain ⟨⟨mode, at_, fits⟩, parted, still, behind⟩ := alone.step asks.step
  exact ⟨⟨mode, ⟨at_.world, at_.stack⟩, fits⟩, parted, ⟨still.there, still.state, still.unmarked⟩,
    .of_idle rfl behind.active⟩

end Steps

section Computing

variable {m m' m'' : Machine} {r : Resumption} {n k : Nat}

/-- Steps that can be computed lead to where the function comes from there. -/
lemma Comes.of_advance (advances : advance n m = some m') (comes : Comes k m' r m'') :
    Comes (k + n) m r m'' := by
  induction n generalizing m with
  | zero =>
    cases advances
    exact comes
  | succ n ih =>
    unfold advance at advances
    split at advances
    · cases advances
    · rename_i stepped other
      refine .step (fun vs next asks => ?_) stepped (ih advances)
      exact other vs asks.control
    · cases advances

end Computing

section Halts

variable {m m' : Machine} {thread : Nat} {around : List Nat} {n : Nat} {r : Resumption}

/-- How a run above the mark of the host ends. -/
def ends (thread : Nat) (r : Resumption) (m : Machine) : Outcome × World :=
  (.resumed thread r.handed, leave (m.world.setThread thread (r.leaves m)) thread)

/-- Above the mark of the host a yield ends the resume, unless host code waits for the function. -/
lemma step_asks {vs : List Value} (asks : Asks m vs m') :
    step (m.onto [hostMark thread]) =
      if m.stack.any (·.isHostWait) then
        .running ((m'.raiseText "attempt to yield across a C-call boundary").onto [hostMark thread])
      else .halted (.resumed thread (.ok vs))
        (leave (m'.world.setThread thread (.suspended m'.stack m'.depth)) thread) := by
  have same := (fire_ok (.refl m) asks.hooked).1.stack
  have inside : ∀ f ∈ m'.stack, f.isMark = false := same ▸ asks.unmarked
  have cut : (m'.onto [hostMark thread]).stack.span (!·.isMark)
      = (m'.stack, [hostMark thread]) := by
    rw [onto_stack, span_first inside rfl]
  unfold step callHooked
  rw [onto_control, asks.control]
  dsimp only
  rw [overflows_onto (quiet_hostMark thread), asks.room, fire_onto, asks.hooked]
  show yield (m'.onto [hostMark thread]) vs = _
  unfold yield
  rw [cut, ← same]
  rfl

lemma step_returns {vs : List Value} (control : m.control = .values vs) (empty : m.stack = []) :
    step (m.onto [hostMark thread]) = .halted (.resumed thread (.ok vs))
      (leave (m.world.setThread thread .finished) thread) := by
  unfold step popped
  rw [onto_control, control, onto_stack, empty]
  rfl

lemma step_raises {v : Value} (control : m.control = .raising v)
    (clear : ∀ f ∈ m.stack, f.catches = false) :
    step (m.onto [hostMark thread]) = .halted (.resumed thread (.error v))
      (leave (m.world.setThread thread (.failed m.stack)) thread) := by
  have cut : (m.onto [hostMark thread]).stack.span (!·.catches) = (m.stack, [hostMark thread]) := by
    rw [onto_stack, span_first clear rfl]
  unfold step raised
  rw [onto_control, control]
  dsimp only
  rw [cut]
  rfl

lemma Alone.step_onto (alone : Alone thread around m) (silent : ∀ vs m', ¬ Asks m vs m')
    (stepped : Machine.step m = .running m') :
    Machine.step (m.onto [hostMark thread]) = .running (m'.onto [hostMark thread]) :=
  Machine.step_onto (quiet_hostMark thread) (returns_of_within alone.within) silent stepped

/-- What the function comes to by itself a run above the mark of the host comes to. -/
theorem Comes.run (comes : Comes n m r m') (alone : Alone thread around m) {fuel : Nat}
    (enough : n < fuel) : run fuel (m.onto [hostMark thread]) = ends thread r m' := by
  -- By induction on the steps to the halt: each of them is one step of the run above the mark.
  induction comes generalizing fuel with
  | yields asks free =>
    obtain ⟨fuel, rfl⟩ := Nat.exists_eq_add_one_of_ne_zero (Nat.ne_of_gt enough)
    rw [Machine.run, step_asks asks, free]
    rfl
  | returns control empty =>
    obtain ⟨fuel, rfl⟩ := Nat.exists_eq_add_one_of_ne_zero (Nat.ne_of_gt enough)
    rw [Machine.run, step_returns control empty]
    rfl
  | raises control clear =>
    obtain ⟨fuel, rfl⟩ := Nat.exists_eq_add_one_of_ne_zero (Nat.ne_of_gt enough)
    rw [Machine.run, step_raises control clear]
    rfl
  | held asks bound rest ih =>
    obtain ⟨fuel, rfl⟩ := Nat.exists_eq_add_one_of_ne_zero (Nat.ne_zero_of_lt enough)
    rw [Machine.run, step_asks asks, bound]
    exact ih (alone.held asks _) (by omega)
  | step silent stepped rest ih =>
    obtain ⟨fuel, rfl⟩ := Nat.exists_eq_add_one_of_ne_zero (Nat.ne_zero_of_lt enough)
    rw [Machine.run, alone.step_onto silent stepped]
    exact ih (alone.step stepped) (by omega)

end Halts

section Complete

variable {m : Machine} {thread : Nat} {around : List Nat}

/-- Work that does not end in values has frames to end in. -/
lemma Leads.ne_nil {a b : Mode} {fs : List Frame} (leads : Leads a fs b) (differs : a ≠ b) :
    fs ≠ [] := by
  rintro rfl
  exact differs leads

/-- What is given to the frame on top of the stack, other than values, has a frame on top. -/
lemma stack_ne_nil (within : Within [] .values m) (ends : m.control.endsBlock = true) :
    m.stack ≠ [] := by
  obtain ⟨mode, ⟨-, fs, stack, leads⟩, fits⟩ := within
  rw [List.append_nil] at stack
  rw [stack]
  refine leads.ne_nil ?_
  rintro rfl
  cases control : m.control with
  | completed | returning | finished | failed =>
    rw [control] at fits
    cases fits
  | _ =>
    rw [control] at ends
    cases ends

/-- By itself the function goes on unless values arrive that nothing waits for, or a value is raised
that nothing catches: it is inside of no resume that the host waits for. -/
lemma exists_step (within : Within [] .values m)
    (waited : ∀ vs, m.control = .values vs → m.stack ≠ [])
    (caught : ∀ v, m.control = .raising v → ∃ f ∈ m.stack, f.catches = true) :
    ∃ m', step m = .running m' := by
  have deed := step_deed m
  cases stepped : step m with
  | running m' => exact ⟨m', rfl⟩
  | halted o w =>
    rw [stepped] at deed
    generalize eq : Machine.Progress.halted o w = p at deed
    cases deed with
    | halts empty ends =>
      rcases ends with ends | ⟨vs, control⟩
      · exact absurd empty (stack_ne_nil within ends)
      · exact absurd empty (waited vs control)
    | escapes control clear =>
      obtain ⟨f, mem, catches⟩ := caught _ control
      cases (clear f mem).symm.trans catches
    | @departs thread by_ r above m' departs =>
      obtain ⟨outer, around, stack⟩ := departs.stack
      obtain ⟨mode, ⟨-, fs, split, leads⟩, -⟩ := within
      have inner : (Frame.resumed thread by_ outer around).endsRun = false :=
        leads.endsRun _ (by rw [List.append_nil] at split; simp [← split, stack])
      cases by_ with
      | session => cases inner
      | body inv => cases eq
      | wrapper => cases handed : r.handed <;> rw [handed] at eq <;> cases eq
    | _ => cases eq

/-- A run above the mark of the host that comes to its end does so because the function by itself
comes to a halt. -/
theorem Alone.comes (alone : Alone thread around m) {fuel : Nat}
    (ended : (run fuel (m.onto [hostMark thread])).1 ≠ .exhausted) :
    ∃ n r m', n < fuel ∧ Comes n m r m' := by
  induction fuel generalizing m with
  | zero => exact absurd rfl ended
  | succ fuel ih =>
    -- Yields come first: by itself the function has nobody to yield to, and goes another way there.
    by_cases asks : ∃ vs m', Asks m vs m'
    · obtain ⟨vs, m', asks⟩ := asks
      cases bound : m.stack.any (·.isHostWait) with
      | false => exact ⟨0, _, _, Nat.succ_pos fuel, .yields asks bound⟩
      | true =>
        rw [Machine.run, step_asks asks, bound] at ended
        obtain ⟨n, r, last, enough, comes⟩ := ih (alone.held asks _) ended
        exact ⟨n + 1, r, last, Nat.succ_lt_succ enough, .held asks bound comes⟩
    · have silent : ∀ vs m', ¬ Asks m vs m' := fun vs m' h => asks ⟨vs, m', h⟩
      by_cases returns : ∃ vs, m.control = .values vs ∧ m.stack = []
      · obtain ⟨vs, control, empty⟩ := returns
        exact ⟨0, _, _, Nat.succ_pos fuel, .returns control empty⟩
      by_cases raises : ∃ v, m.control = .raising v ∧ ∀ f ∈ m.stack, f.catches = false
      · obtain ⟨v, control, clear⟩ := raises
        exact ⟨0, _, _, Nat.succ_pos fuel, .raises control clear⟩
      obtain ⟨next, stepped⟩ := exists_step alone.within
        (fun vs control empty => returns ⟨vs, control, empty⟩)
        (fun v control => by
          by_contra none
          refine raises ⟨v, control, fun f mem => ?_⟩
          exact Bool.eq_false_iff.2 fun catches => none ⟨f, mem, catches⟩)
      rw [Machine.run, alone.step_onto silent stepped] at ended
      obtain ⟨n, r, last, enough, comes⟩ := ih (alone.step stepped) ended
      exact ⟨n + 1, r, last, Nat.succ_lt_succ enough, .step silent stepped comes⟩

end Complete

end ScriptBridge.Machine
