import Mathlib.Tactic.Lemma
import ScriptBridge.Proofs.Deed

/-!
# Coroutines and the order of frames

A coroutine that is left goes back to its mark and a raised value to a frame that takes care of it.
Neither goes past the guard of a method body: between a body and the scripts that it waits for there
is always a frame that catches, and none that a yield may cross. Resuming a coroutine puts its
frames back where they fit.
-/

namespace ScriptBridge.Machine

open Script Bridge

lemma values_isBody : Mode.values.isBody = false :=
  rfl

namespace Leads

variable {a b : Mode} {left : Invocation} {fs above below : List Frame} {f : Frame}

/-- Around a frame inside, the frames above it and below it fit. -/
lemma around (h : Leads a (above ++ f :: below) b) :
    ∃ c, Leads a above c ∧ f.Awaits c ∧ f.endsRun = false ∧ Leads (f.below c) below b :=
  h.split

/-- Scripts run for a body only above a frame that catches what they raise. -/
lemma exists_catches (h : Leads a fs (.body left)) (ha : a.isBody = false) :
    ∃ f ∈ fs, f.catches = true := by
  induction fs generalizing a with
  | nil =>
    cases h
    cases ha
  | cons f rest ih =>
    obtain ⟨awaits, -, h⟩ := h
    by_cases here : f.catches = true
    · exact ⟨f, List.mem_cons_self, here⟩
    · have inside : (f.below a).isBody = false := by
        cases f <;> first
          | exact absurd rfl here
          | exact absurd (awaits.symm.trans ha) Bool.noConfusion
          | rfl
      obtain ⟨g, mem, catches⟩ := ih h inside
      exact ⟨g, List.mem_cons_of_mem f mem, catches⟩

/-- Where no coroutine was resumed in between, the body itself waits for the scripts. -/
lemma exists_isHostWait (h : Leads a fs (.body left)) (ha : a.isBody = false)
    (none : ∀ f ∈ fs, f.isMark = false) : ∃ f ∈ fs, f.isHostWait = true := by
  induction fs generalizing a with
  | nil =>
    cases h
    cases ha
  | cons f rest ih =>
    obtain ⟨awaits, -, h⟩ := h
    by_cases here : f.isHostWait = true
    · exact ⟨f, List.mem_cons_self, here⟩
    · have inside : (f.below a).isBody = false := by
        cases f <;> first
          | exact absurd rfl here
          | exact absurd (awaits.symm.trans ha) Bool.noConfusion
          | exact absurd (none _ List.mem_cons_self) (Bool.noConfusion)
          | rfl
      obtain ⟨g, mem, waits⟩ := ih h inside fun g mem => none g (List.mem_cons_of_mem f mem)
      exact ⟨g, List.mem_cons_of_mem f mem, waits⟩

end Leads

section Worlds

variable {w : World}

lemma World.Sound.setThread (sound : w.Sound) (id : Nat) {t : Thread}
    (leads : ∀ stack depth, t = .suspended stack depth → Leads .values stack .values) :
    (w.setThread id t).Sound := by
  refine ⟨sound.registry, sound.heap, fun other stack depth waits => ?_⟩
  unfold World.thread World.setThread at waits
  rw [Array.getElem?_setIfInBounds] at waits
  split at waits
  · split at waits
    · exact leads stack depth waits
    · cases waits
  · exact sound.threads other stack depth waits

lemma World.Sound.withHeap (sound : w.Sound) {heap : Heap} (sound' : heap.Sound w.registry) :
    ({ w with heap } : World).Sound :=
  ⟨sound.registry, sound', sound.threads⟩

lemma World.Sound.leave (sound : w.Sound) (thread : Nat) : (Machine.leave w thread).Sound :=
  ⟨sound.registry, sound.heap, sound.threads⟩

lemma World.Sound.withActive (sound : w.Sound) (active : List Nat) :
    ({ w with active } : World).Sound :=
  ⟨sound.registry, sound.heap, sound.threads⟩

/-- What the host may resume is waiting. -/
lemma waits_of_checkResumable {thread : Nat} (ok : w.checkResumable thread = .ok ()) :
    (w.thread thread).waits = true := by
  have suspended : w.status thread = .suspended := by
    unfold World.checkResumable at ok
    split at ok
    · assumption
    · cases ok
    · cases ok
  have halted : World.status.halted w thread = .suspended := by
    unfold World.status at suspended
    split at suspended
    · split at suspended
      · cases suspended
      · split at suspended
        · cases suspended
        · exact suspended
    · exact suspended
  unfold World.status.halted at halted
  cases found : w.thread thread with
  | fresh f => rfl
  | suspended stack depth => rfl
  | active | finished | failed stack =>
    rw [found] at halted
    cases halted

end Worlds

section Coroutines

variable {base : List Frame} {b mode : Mode} {m : Machine}

lemma raisePlaced_within (h : At base b mode m) (hm : mode.isBody = false) (v : Value) :
    Within base b (raisePlaced m v) :=
  h.go hm

/-- Whoever resumed a coroutine goes on with what it is told. -/
lemma report_within {by_ : Resumer} (h : At base b by_.mode m) (thread : Nat)
    (inside : (Frame.resumed thread by_ 0 none).endsRun = false) (handed : Handed) :
    Stays base b (report m thread by_ handed) := by
  cases by_ with
  | session => cases inside
  | body inv =>
    apply At.go (h.withWorld (h.world.leave thread))
    rfl
  | wrapper =>
    cases handed with
    | ok vs => exact h.go rfl
    | error v => exact raisePlaced_within h values_isBody v

/-- The run is over when the host resumed the coroutine. -/
lemma report_session (sound : m.world.Sound) (thread : Nat) (handed : Handed) :
    Stays base .values (report m thread .session handed) :=
  ⟨rfl, sound.leave thread⟩

/-- Resuming puts the frames of the coroutine above its mark. -/
theorem resume_within {by_ : Resumer} {thread : Nat} (h : At base b by_.mode m)
    (waits : by_.mode.isBody = true → (m.world.thread thread).waits = true)
    (inside : (Frame.resumed thread by_ 0 none).endsRun = false) (args : List Value) :
    Within base b (resume m thread args by_) := by
  obtain ⟨fs, stack, leads⟩ := h.stack
  have mark : Leads .values (.resumed thread by_ m.depth m.thread :: fs) b := by
    refine ⟨rfl, ?_, leads⟩
    cases by_ <;> first | rfl | cases inside
  have refused (halted : (m.world.thread thread).waits = false) (v : Value) :
      Within base b (raisePlaced m v) :=
    raisePlaced_within h
      (Bool.eq_false_iff.2 fun body => Bool.noConfusion ((waits body).symm.trans halted)) v
  unfold resume
  dsimp only
  split
  · refine ⟨.values, ⟨h.world.setThread thread (fun _ _ eq => by cases eq), ?_⟩, rfl⟩
    exact ⟨_, by rw [stack]; rfl, mark⟩
  · rename_i above depth found
    refine ⟨.values, ⟨h.world.setThread thread (fun _ _ eq => by cases eq), ?_⟩, rfl⟩
    refine ⟨above ++ .resumed thread by_ m.depth m.thread :: fs, ?_, ?_⟩
    · rw [stack]
      simp
    · exact (h.world.threads thread above depth found).append mark
  · rename_i found
    exact refused (by rw [found]; rfl) _
  · rename_i found
    exact refused (by rw [found]; rfl) _
  · rename_i found
    exact refused (by rw [found]; rfl) _

variable {thread : Nat} {by_ : Resumer} {r : Resumption} {above : List Frame} {m' : Machine}

/-- A coroutine that yields is left with frames that values may arrive at. -/
lemma Departs.sound (departs : Departs m thread by_ r above m') (sound : m.world.Sound)
    (fits : m.control.Fits m.world mode) (leads : Leads mode above .values) : m'.world.Sound := by
  obtain ⟨w, t, becomes, leaves, world⟩ := departs.world
  rw [world]
  refine (becomes.sound sound).setThread thread ?_
  rintro stack depth rfl
  cases r with
  | yielded vs =>
    obtain ⟨rfl, -⟩ := leaves
    have control : m.control = .call (.function (.builtin .coroutineYield)) vs := departs.control
    rw [control] at fits
    obtain rfl : mode = .values := fits
    exact leads
  | returned vs => cases leaves
  | raised v => cases leaves

/-- A yield does not go past a body. -/
lemma Departs.ne_body {left : Invocation} {fs inside : List Frame}
    (departs : Departs m thread by_ r (fs ++ inside) m') (fits : m.control.Fits m.world mode)
    (leads : Leads mode fs (.body left)) : False := by
  obtain ⟨w, t, -, leaves, -⟩ := departs.world
  have ends := departs.control
  have plain : mode.isBody = false := by
    cases r with
    | yielded vs =>
      rw [show m.control = _ from ends] at fits
      exact congrArg Mode.isBody fits
    | returned vs =>
      rw [show m.control = _ from ends] at fits
      exact congrArg Mode.isBody fits
    | raised v =>
      rw [show m.control = _ from ends] at fits
      exact fits
  cases r with
  | yielded vs =>
    have clear : ∀ f ∈ fs, f.isMark = false := fun f mem =>
      departs.inside f (List.mem_append_left inside mem)
    obtain ⟨f, mem, waits⟩ := leads.exists_isHostWait plain clear
    cases t with
    | suspended stack depth =>
      have free := leaves.2 f (List.mem_append_left inside mem)
      cases waits.symm.trans free
    | _ => cases leaves
  | returned vs =>
    cases t with
    | finished =>
      obtain ⟨f, mem, -⟩ := leads.exists_catches plain
      have nothing : fs ++ inside = [] := leaves
      cases nothing ▸ List.mem_append_left inside mem
    | _ => cases leaves
  | raised v =>
    obtain ⟨f, mem, catches⟩ := leads.exists_catches plain
    have clear : ∀ f ∈ fs ++ inside, f.catches = false := by
      cases t with
      | finished => exact leaves
      | failed stack => exact leaves
      | _ => cases leaves
    cases catches.symm.trans (clear f (List.mem_append_left inside mem))

end Coroutines

end ScriptBridge.Machine
