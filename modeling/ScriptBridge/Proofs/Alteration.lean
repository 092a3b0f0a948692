import Mathlib.Logic.Relation
import Mathlib.Tactic.Lemma
import ScriptBridge.Proofs.Stack

/-!
# What a step makes of the world

On its way a step makes changes of a few kinds to the world, and whatever all of them keep is kept
by every step. Binding something to a target, running an accessor and resuming coroutines are none
of them.
-/

namespace ScriptBridge.Machine

open Script Bridge

/-- A change that a step makes to the world on its way. -/
inductive World.Alters (w : World) : World → Prop
  /-- Tables, variables and closures may change at will. -/
  | memory {heap : Heap} (userdata : heap.userdata = w.heap.userdata)
      (handles : heap.handles = w.heap.handles) : Alters w { w with heap }
  | pushes (v : HostValue) : Alters w (w.push v).2
  | pushesMany (vs : List HostValue) : Alters w (w.pushMany vs).2
  | fails (e : ScriptError) : Alters w (w.failureValue e).2
  | makesThread (f : Value) : Alters w (w.newThread f).2
  | remembers (t : HostType) : Alters w (w.remember t)
  | closes {t closed : HostType} {args : List HostType} {registry : Registry}
      (ok : w.registry.close t args = .ok (closed, registry)) : Alters w { w with registry }
  | hooks (hook : Option Hook) : Alters w { w with hook }
  | logs (entry : LogEntry) : Alters w { w with store := w.store.addLog entry }
  | begins (inv : Invocation) (b : Body) :
      Alters w { w with store := (startBody w.store inv b).2 }
  | givesBack (o : HostObject) (mode : BorrowMode) :
      Alters w { w with store := w.store.giveBack o mode }

/-- What a world is after any number of such changes. -/
abbrev World.Becomes : World → World → Prop :=
  Relation.ReflTransGen World.Alters

variable {w w' : World}

section Kept

lemma World.Alters.noNewBinding (alters : w.Alters w') : w.heap.NoNewBinding w'.heap := by
  cases alters with
  | memory userdata handles => exact .of_eq userdata
  | pushes v => exact .push w.heap v
  | pushesMany vs => exact .pushMany w.options.maxTransferValues w.heap vs
  | fails e => exact .newUserdata w.heap rfl
  | _ => exact .of_eq rfl

/-- Nothing is bound to a target. -/
theorem World.Becomes.noNewBinding (becomes : w.Becomes w') : w.heap.NoNewBinding w'.heap := by
  induction becomes with
  | refl => exact .of_eq rfl
  | tail _ alters ih => exact ih.trans alters.noNewBinding

lemma World.Alters.extensions (alters : w.Alters w') :
    w'.registry.extensions = w.registry.extensions := by
  cases alters with
  | remembers t => exact Registry.remember_extensions w.registry t
  | @closes t closed args registry ok =>
    show registry.extensions = _
    unfold Registry.close at ok
    split at ok
    · cases ok
    · dsimp only at ok
      split at ok <;> cases ok <;> rfl
  | _ => rfl

/-- Coroutines may be new, but none waits that did not before. -/
lemma World.Alters.suspended (alters : w.Alters w') {id depth : Nat} {stack : List Frame}
    (waits : w'.thread id = .suspended stack depth) : w.thread id = .suspended stack depth := by
  cases alters with
  | makesThread f =>
    unfold World.thread World.newThread at waits
    rw [Array.getElem?_push] at waits
    split at waits
    · cases waits
    · exact waits
  | _ => exact waits

lemma World.Alters.sound (alters : w.Alters w') (sound : w.Sound) : w'.Sound := by
  have extensions := alters.extensions
  refine ⟨fun name m mem => ?_, ?_, fun id stack depth waits => ?_⟩
  · exact sound.registry name m (extensions ▸ mem)
  · exact (sound.heap.of_noNewBinding alters.noNewBinding).of_extensions extensions
  · exact sound.threads id stack depth (alters.suspended waits)

/-- A world stays sound. -/
theorem World.Becomes.sound (becomes : w.Becomes w') (sound : w.Sound) : w'.Sound := by
  induction becomes with
  | refl => exact sound
  | tail _ alters ih => exact alters.sound ih

end Kept

/-- Inside of a step the second machine is what the first one was, up to changes of the world. -/
structure Midway (m₀ m : Machine) : Prop where
  world : m₀.world.Becomes m.world
  stack : m.stack = m₀.stack

/-- The control is work of a mode that neither sets out host code nor has the host or one of its
bodies resume a coroutine. -/
def Control.IsOrdinary : Control → Mode → Prop
  | .exec _, mode | .completed, mode | .returning _, mode => mode = .block
  | .raising _, mode => mode.isBody = false
  | .body b inv, mode => mode = .body (inv.after b)
  | .finished _ inv, mode => mode = .body inv
  | .failed _, mode => mode.isBody = true
  | .host .., _ => False
  | .resume _ _ by_, mode =>
    match by_ with
    | .wrapper => mode = .values
    | _ => False
  | _, mode => mode = .values

lemma Control.IsOrdinary.fits {c : Control} {mode : Mode} (ordinary : c.IsOrdinary mode)
    (w : World) : c.Fits w mode := by
  cases c with
  | host code finish => cases ordinary
  | resume thread args by_ =>
    cases by_ with
    | wrapper =>
      obtain rfl : mode = .values := ordinary
      exact ⟨rfl, fun body => Bool.noConfusion body, rfl⟩
    | _ => cases ordinary
  | _ => exact ordinary

/-- The second machine does ordinary work for what the frames of the first one wait for. -/
structure Ordinary (awaited : Mode) (m₀ m : Machine) : Prop where
  world : m₀.world.Becomes m.world
  work : ∃ mode fs, m.stack = fs ++ m₀.stack ∧ Leads mode fs awaited ∧
    (∀ f ∈ fs, f.isMark = false) ∧ m.control.IsOrdinary mode

namespace Midway

variable {m₀ m : Machine} {mode : Mode}

lemma refl (m : Machine) : Midway m m :=
  ⟨.refl, rfl⟩

lemma alter (h : Midway m₀ m) {w : World} (alters : m.world.Alters w) : Midway m₀ (m.withWorld w) :=
  ⟨h.world.tail alters, h.stack⟩

lemma memory (h : Midway m₀ m) {heap : Heap} (userdata : heap.userdata = m.heap.userdata)
    (handles : heap.handles = m.heap.handles) : Midway m₀ (m.withHeap heap) :=
  h.alter (.memory userdata handles)

lemma declare (h : Midway m₀ m) (scope : Variables) (vars : List (String × Value)) :
    Midway m₀ (m.withHeap (m.heap.declare scope vars).2) :=
  h.memory (Heap.declare_userdata _ _ _) (Heap.declare_handles _ _ _)

lemma remember (h : Midway m₀ m) (t : HostType) : Midway m₀ (m.remember t) :=
  h.alter (.remembers t)

lemma withDepth (h : Midway m₀ m) (depth : Nat) : Midway m₀ { m with depth } :=
  ⟨h.world, h.stack⟩

lemma go (h : Midway m₀ m) {c : Control} (ordinary : c.IsOrdinary mode) :
    Ordinary mode m₀ (m.go c) :=
  ⟨h.world, mode, [], h.stack, rfl, List.forall_mem_nil _, ordinary⟩

lemma push (h : Midway m₀ m) (above : Mode) {f : Frame} {c : Control}
    (ordinary : c.IsOrdinary above) (awaits : f.Awaits above) (below : f.below above = mode)
    (inside : f.isMark = false) : Ordinary mode m₀ (m.push f c) := by
  refine ⟨h.world, above, [f], congrArg (f :: ·) h.stack, ⟨awaits, ?_, below⟩, ?_, ordinary⟩
  · cases f <;> first | rfl | cases inside
  · intro g mem
    rw [List.mem_singleton.1 mem]
    exact inside

lemma give (h : Midway m₀ m) (v : Value) : Ordinary .values m₀ (m.give v) :=
  h.go rfl

lemma raiseText (h : Midway m₀ m) (text : String) (plain : mode.isBody = false) :
    Ordinary mode m₀ (m.raiseText text) :=
  h.go plain

lemma raiseError (h : Midway m₀ m) (e : ScriptError) (plain : mode.isBody = false) :
    Ordinary mode m₀ (m.raiseError e) :=
  (h.alter (.fails e)).go plain

lemma raiseBridge (h : Midway m₀ m) (e : BridgeError) (plain : mode.isBody = false) :
    Ordinary mode m₀ (m.raiseBridge e) :=
  h.raiseError _ plain

lemma raiseConversion (h : Midway m₀ m) : Ordinary .values m₀ m.raiseConversion :=
  h.raiseError _ rfl

lemma raisePlaced (h : Midway m₀ m) (v : Value) : Ordinary .values m₀ (raisePlaced m v) :=
  h.go rfl

end Midway

end ScriptBridge.Machine
