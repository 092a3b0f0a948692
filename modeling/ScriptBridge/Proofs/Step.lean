import Mathlib.Tactic.Lemma
import ScriptBridge.Proofs.Unwinding

/-!
# Steps keep the order of frames

Every step of a machine that works above a floor leaves it working there, or ends a run that
stands on no guard. In a world that is sound, host code that is about to run was planned.
-/

namespace ScriptBridge.Machine

open Script Bridge

variable {base : List Frame} {b mode : Mode} {m m₀ m' : Machine}

/-- What a run stands on: nothing, the mark of a coroutine that the host resumed, or the guard of a
method body. -/
inductive Floor : List Frame → Mode → Prop
  | empty : Floor [] .values
  | session (thread outer : Nat) (around : Option Nat) :
      Floor [.resumed thread .session outer around] .values
  | guard (context : String) (finish : Finish) (outer : List Frame) (left : Invocation) :
      Floor (.guard context finish :: outer) (.body left)

/-- A method body has come to its end. -/
def Control.Ends : Control → Prop
  | .finished .. | .failed _ => True
  | _ => False

/-- The body that a machine runs above a guard has come to its end. -/
def Done (base : List Frame) (m : Machine) : Prop :=
  m.stack = base ∧ m.control.Ends

/-- What calls may be made above: no function there only waits to return. -/
structure Ground (base : List Frame) (b : Mode) : Prop where
  ne_block : b ≠ .block
  awaited : dropReturning base = none

lemma Floor.ground (floor : Floor base b) : Ground base b := by
  cases floor <;> exact ⟨Mode.noConfusion, rfl⟩

/-- How a step is one of the work below: values arrive there, or a coroutine is left or a value
caught there. -/
inductive Exits (base : List Frame) (b : Mode) (m : Machine) : Prop
  | arrives {vs : List Value} {f : Frame} {rest : List Frame} (control : m.control = .values vs)
      (stack : m.stack = base) (top : base = f :: rest) (inside : f.isMark = false)
      (values : b = .values)
  | departs {thread outer : Nat} {by_ : Resumer} {around : Option Nat} {r : Resumption}
      {mode : Mode} {fs inside : List Frame} {m' : Machine}
      (departs : Departs m thread by_ r (fs ++ inside) m') (sound : m.world.Sound)
      (below : base = inside ++ .resumed thread by_ outer around :: m'.stack)
      (leads : Leads mode fs b) (fits : m.control.Fits m.world mode)
      (stepped : step m = report m' thread by_ r.handed)
  | catches {v : Value} {mode : Mode} {fs inside rest : List Frame} {f : Frame}
      (control : m.control = .raising v) (stack : m.stack = fs ++ base)
      (below : base = inside ++ f :: rest) (leads : Leads mode fs b)
      (plain : mode.isBody = false) (clear : ∀ g ∈ fs, g.catches = false)
      (free : ∀ g ∈ inside, g.catches = false) (mark : f.isMark = false)

section Above

/-- A machine that goes on from the awaited work is at work of that mode, unless values have
arrived for what is below. -/
lemma Awaited.at (ground : Ground base b) {mode' : Mode} (awaited : Awaited m mode' m₀)
    (h : At base b mode m) (fits : m.control.Fits m.world mode) (working : ¬ Done base m) :
    At base b mode' m₀ ∨ Exits base b m := by
  cases awaited with
  | here fits' =>
    obtain rfl := fits' mode fits
    exact .inl h
  | @popped f rest top fits' inside =>
    obtain ⟨fs, stack, leads⟩ := h.stack
    cases fs with
    | nil =>
      obtain rfl : mode = b := leads
      rcases inside with ends | ⟨⟨vs, control⟩, inside⟩
      · exfalso
        cases control : m.control with
        | completed | returning vs =>
          rw [control] at fits
          exact ground.ne_block fits
        | finished v inv | failed failure => exact working ⟨stack, by rw [control]; trivial⟩
        | _ =>
          rw [control] at ends
          cases ends
      · rw [control] at fits
        exact .inr (.arrives control stack (stack.symm.trans top) inside fits)
    | cons g gs =>
      obtain ⟨awaits, -, leads⟩ := leads
      obtain ⟨rfl, rfl⟩ : f = g ∧ rest = gs ++ base := by
        rw [top] at stack
        exact List.cons.inj stack
      obtain rfl := fits' mode fits awaits
      exact .inl ⟨h.world, gs, rfl, leads⟩

lemma Ordinary.within (ordinary : Ordinary mode m₀ m') (h : At base b mode m₀) :
    Within base b m' := by
  obtain ⟨mode', fs, stack, leads, -, fits⟩ := ordinary.work
  obtain ⟨gs, below, leads'⟩ := h.stack
  refine ⟨mode', ⟨ordinary.world.sound h.world, fs ++ gs, ?_, leads.append leads'⟩, fits.fits _⟩
  rw [stack, below, List.append_assoc]

lemma Midway.at (midway : Midway m₀ m') (h : At base b mode m₀) : At base b mode m' :=
  ⟨midway.world.sound h.world, midway.stack ▸ h.stack⟩

/-- What is left below a function that only waits to return is the function it was called from. -/
lemma dropReturning_leads (ground : Ground base b) (h : At base b .values m) {stack : List Frame}
    (dropped : dropReturning m.stack = some stack) :
    ∃ fs, stack = fs ++ base ∧ Leads .block fs b := by
  obtain ⟨fs, eq, leads⟩ := h.stack
  rw [eq] at dropped
  cases fs with
  | nil => cases ground.awaited.symm.trans dropped
  | cons f rest =>
    cases f with
    | ret =>
      obtain ⟨gs, below, leads⟩ := Leads.dropWhile_function leads.2.2 ground.ne_block base
      cases dropped
      exact ⟨gs, below, leads⟩
    | _ => cases dropped

/-- Where a frame lies on a stack: among the frames above, or below them. -/
lemma frame_above_or_below {fs above below : List Frame} {f : Frame}
    (stack : fs ++ base = above ++ f :: below) :
    (∃ within, fs = above ++ f :: within ∧ below = within ++ base) ∨
      ∃ inside, above = fs ++ inside ∧ base = inside ++ f :: below := by
  rcases List.append_eq_append_iff.1 stack with ⟨inside, rfl, rfl⟩ | ⟨within, rfl, eq⟩
  · exact .inr ⟨inside, rfl, rfl⟩
  · cases within with
    | nil => exact .inr ⟨[], by simp, eq.symm⟩
    | cons g within =>
      obtain ⟨rfl, rfl⟩ := List.cons.inj eq
      exact .inl ⟨within, rfl, rfl⟩

lemma Departs.stays {thread : Nat} {by_ : Resumer} {r : Resumption} {above : List Frame}
    (departs : Departs m thread by_ r above m')
    (stepped : step m = report m' thread by_ r.handed)
    (h : At base b mode m) (fits : m.control.Fits m.world mode) :
    Stays base b (step m) ∨ Exits base b m := by
  obtain ⟨fs, stack, leads⟩ := h.stack
  obtain ⟨outer, around, split⟩ := departs.stack
  rcases frame_above_or_below (stack.symm.trans split) with
    ⟨within, rfl, below⟩ | ⟨inside, rfl, below⟩
  · obtain ⟨_, first, rfl, inner, second⟩ := leads.around
    have sound := departs.sound h.world fits first
    rw [stepped]
    refine .inl (report_within ⟨sound, within, below, second⟩ thread ?_ _)
    cases by_ <;> first | rfl | cases inner
  · exact .inr (.departs departs h.world below leads fits stepped)

/-- A step keeps the order of frames, up to the end of the body that the work is for, or is one of
the work below. -/
theorem step_above (ground : Ground base b) (h : Within base b m) (working : ¬ Done base m) :
    Stays base b (step m) ∨ Exits base b m := by
  obtain ⟨mode, h, fits⟩ := h
  have deed := step_deed m
  generalize stepped : step m = p at deed
  rw [← stepped]
  cases deed with
  | works awaited ordinary =>
    rw [stepped]
    exact (awaited.at ground h fits working).imp_left ordinary.within
  | asks awaited midway heap gives asked =>
    rw [stepped]
    refine (awaited.at ground h fits working).imp_left fun h' => ?_
    exact (midway.at h').go ⟨rfl, _, gives h.world⟩
  | @binds m' target name u awaited midway heap planned =>
    rw [stepped]
    refine (awaited.at ground h fits working).imp_left fun h' => ?_
    have h'' := midway.at h'
    exact (h''.withHeap (h''.world.heap.newUserdata (planRead_offered planned))).give _
  | accesses control ordinary =>
    rw [control] at fits
    obtain ⟨rfl, -⟩ := fits
    rw [stepped]
    exact .inl (ordinary.within (h.withStore _))
  | fails control top below world =>
    obtain ⟨fs, stack, leads⟩ := h.stack
    rw [control] at fits
    rw [stepped]
    cases fs with
    | nil => exact absurd ⟨stack, by rw [control]; trivial⟩ working
    | cons f fs =>
      obtain ⟨awaits, -, leads⟩ := leads
      obtain ⟨rfl, rfl⟩ := List.cons.inj (top.symm.trans stack)
      refine .inl ⟨_, ⟨world.sound h.world, fs, rfl, leads⟩, ?_⟩
      rw [show ({ m with world := _, stack := _ } : Machine).control = m.control from rfl, control]
      exact below mode fits awaits
  | replaces awaited dropped world control =>
    rw [stepped]
    refine (awaited.at ground h fits working).imp_left fun h' => ?_
    refine ⟨.block, ⟨world.sound h.world, dropReturning_leads ground h' dropped⟩, ?_⟩
    rw [control]
    rfl
  | @catches v above below f depth c control top clear here mark ordinary =>
    obtain ⟨fs, stack, leads⟩ := h.stack
    rw [control] at fits
    rcases frame_above_or_below (stack.symm.trans top) with
      ⟨within, rfl, rest⟩ | ⟨inside, rfl, rest⟩
    · obtain ⟨c', -, awaits, -, second⟩ := leads.around
      have values : c' = .values := by cases f <;> first | exact awaits | cases here
      rw [values] at second
      rw [stepped]
      exact .inl ⟨_, ⟨h.world, within, rest, second⟩, ordinary.fits _⟩
    · refine .inr (.catches control stack rest leads fits (fun g mem => ?_) (fun g mem => ?_) mark)
      · exact clear g (List.mem_append_left inside mem)
      · exact clear g (List.mem_append_right fs mem)
  | @enters thread body inv after store control awaited world resumable =>
    rw [stepped]
    refine (awaited.at ground h fits working).imp_left fun h' => ?_
    have sound := (world.sound h'.world).withActive (thread :: m.world.active)
    have waits := waits_of_checkResumable resumable
    exact (h'.withWorld sound).go ⟨rfl, fun _ => waits, rfl⟩
  | starts control =>
    rw [control] at fits
    obtain ⟨rfl, waits, inside⟩ := fits
    rw [stepped]
    exact .inl (resume_within h waits inside _)
  | departs departs => exact departs.stays stepped h fits
  | halts empty ends =>
    obtain ⟨fs, stack, leads⟩ := h.stack
    obtain ⟨rfl, rfl⟩ := List.append_eq_nil_iff.1 (stack.symm.trans empty)
    obtain rfl : mode = b := leads
    rw [stepped]
    refine .inl ⟨?_, h.world⟩
    cases control : m.control with
    | values vs =>
      rw [control] at fits
      exact fits
    | completed | returning vs =>
      rw [control] at fits
      exact absurd fits ground.ne_block
    | finished v inv | failed failure =>
      exact absurd ⟨empty, by rw [control]; trivial⟩ working
    | _ =>
      rw [control] at ends
      rcases ends with ends | ⟨vs, ends⟩ <;> cases ends
  | escapes control clear =>
    obtain ⟨fs, stack, leads⟩ := h.stack
    rw [control] at fits
    rw [stepped]
    refine .inl ⟨?_, h.world⟩
    cases b with
    | values => rfl
    | block => exact absurd rfl ground.ne_block
    | body left =>
      obtain ⟨f, mem, catches⟩ := leads.exists_catches fits
      have free := clear f (stack ▸ List.mem_append_left base mem)
      cases catches.symm.trans free

end Above

/-- Steps keep the order of frames, up to the end of the body that the work is for. -/
theorem step_within (floor : Floor base b) (h : Within base b m) (working : ¬ Done base m) :
    Stays base b (step m) := by
  rcases step_above floor.ground h working with stays | exits
  · exact stays
  · cases exits with
    | arrives control stack top inside values =>
      cases floor with
      | empty => cases top
      | session thread outer around =>
        cases top
        cases inside
      | guard context finish outer left => cases values
    | departs departs sound below leads fits stepped =>
      cases floor with
      | empty => cases (List.append_eq_nil_iff.1 below.symm).2
      | session thread outer around =>
        rcases List.append_eq_singleton_iff.1 below.symm with ⟨rfl, same⟩ | ⟨-, nothing⟩
        · obtain ⟨rfl, rfl, rfl, rfl⟩ := Frame.resumed.inj (List.cons.inj same).1
          rw [List.append_nil] at departs
          rw [stepped]
          exact report_session (departs.sound sound fits leads) _ _
        · cases nothing
      | guard context finish outer left => exact (departs.ne_body fits leads).elim
    | catches control stack below leads plain clear free mark =>
      cases floor with
      | empty => cases (List.append_eq_nil_iff.1 below.symm).2
      | session thread outer around =>
        rcases List.append_eq_singleton_iff.1 below.symm with ⟨rfl, same⟩ | ⟨-, nothing⟩
        · cases same
          cases mark
        · cases nothing
      | guard context finish outer left =>
        obtain ⟨f, mem, catches⟩ := leads.exists_catches plain
        cases catches.symm.trans (clear f mem)

end ScriptBridge.Machine
