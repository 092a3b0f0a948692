import Mathlib.Tactic.Lemma
import ScriptBridge.Proofs.Assignment
import ScriptBridge.Proofs.Heap
import ScriptBridge.Machine.Call

/-!
# The order of frames

A frame waits for what the work above it ends in and goes on with work that ends in something for
the frame below. So the frames of a stack fit together: values arrive where values are awaited, a
block ends inside a function, and a body ends at the guard that was put up for it, with the slots of
its call as it assigned them.
-/

namespace ScriptBridge.Machine

open Script Bridge

/-- What a piece of work ends in: values, the end of a block, or the end of a method body that
leaves its call so. -/
inductive Mode
  | values | block
  | body (left : Invocation)

def Mode.isBody : Mode → Bool
  | .body _ => true
  | _ => false

/-- What whoever resumed a coroutine goes on with. -/
def Resumer.mode : Resumer → Mode
  | .body inv => .body inv
  | _ => .values

namespace Frame

/-- The frame waits for work of this mode. -/
def Awaits : Frame → Mode → Prop
  | .next _, mode | .counting .., mode | .stepping .., mode | .whileBody .., mode
  | .function _, mode => mode = .block
  | .guard .., mode | .steps _, mode | .holding .., mode => mode.isBody = true
  | _, mode => mode = .values

/-- What the frame goes on towards when work that it waits for is done. -/
def below : Frame → Mode → Mode
  | .bind .., _ | .storeKey .., _ | .storeValue .., _ | .storeTo .., _ | .assign .., _
  | .discard _, _ | .ret, _ | .branch .., _ | .forFirst .., _ | .forLast .., _ | .whileTest .., _
  | .next _, _ | .counting .., _ | .stepping .., _ | .whileBody .., _ => .block
  | .steps rest, .body left => .body (left.afterAll rest)
  | .holding .., .body left => .body left
  | .emitting inv .., _ | .callingBack inv, _ => .body inv
  | .resumed _ by_ _ _, _ => by_.mode
  | _, _ => .values

/-- Whether the run is over with what the frame waits for. -/
def endsRun : Frame → Bool
  | .resumed _ .session _ _ => true
  | _ => false

end Frame

/-- Work of one mode, with these frames below it, goes on until work of another mode is done. -/
def Leads : Mode → List Frame → Mode → Prop
  | a, [], b => a = b
  | a, f :: rest, b => f.Awaits a ∧ f.endsRun = false ∧ Leads (f.below a) rest b

namespace Leads

variable {a b c : Mode} {fs gs : List Frame}

lemma append (h : Leads a fs b) (h' : Leads b gs c) : Leads a (fs ++ gs) c := by
  induction fs generalizing a with
  | nil =>
    cases h
    exact h'
  | cons f rest ih =>
    obtain ⟨awaits, inner, h⟩ := h
    exact ⟨awaits, inner, ih h⟩

lemma split (h : Leads a (fs ++ gs) c) : ∃ b, Leads a fs b ∧ Leads b gs c := by
  induction fs generalizing a with
  | nil => exact ⟨a, rfl, h⟩
  | cons f rest ih =>
    obtain ⟨awaits, inner, h⟩ := h
    obtain ⟨b, first, second⟩ := ih h
    exact ⟨b, ⟨awaits, inner, first⟩, second⟩

/-- Inside a block there is a function to return from, unless the work ends in the block. -/
lemma dropWhile_function (h : Leads .block fs b) (hb : b ≠ .block) (base : List Frame) :
    ∃ gs, (fs ++ base).dropWhile (fun
      | .function _ => false
      | _ => true) = gs ++ base ∧ Leads .block gs b := by
  induction fs with
  | nil => exact absurd h.symm hb
  | cons f rest ih =>
    cases f with
    | function outer => exact ⟨.function outer :: rest, rfl, h⟩
    | next r => exact ih h.2.2
    | counting name next rounds body r => exact ih h.2.2
    | stepping name next last body r => exact ih h.2.2
    | whileBody condition body r => exact ih h.2.2
    | _ => cases h.1

end Leads

/-- A coroutine that waits inside a yield is a piece of work that ends in values. -/
structure World.Sound (w : World) : Prop where
  registry : w.registry.Sound
  heap : w.heap.Sound w.registry
  threads : ∀ id stack depth, w.thread id = .suspended stack depth → Leads .values stack .values

/-- Whether a thread can be gone on with. -/
def Thread.waits : Thread → Bool
  | .fresh _ | .suspended .. => true
  | _ => false

/-- The control is work of this mode. A body leaves its call as its assignments make it, unless it
fails. Host code that is about to run was planned, and a body resumes only what can be resumed. -/
def Control.Fits (w : World) : Control → Mode → Prop
  | .exec _, mode | .completed, mode | .returning _, mode => mode = .block
  | .raising _, mode => mode.isBody = false
  | .host code _, mode => mode = .values ∧ Planned w code
  | .body b inv, mode => mode = .body (inv.after b)
  | .finished _ inv, mode => mode = .body inv
  | .failed _, mode => mode.isBody = true
  | .resume thread _ by_, mode =>
    mode = by_.mode ∧ (mode.isBody = true → (w.thread thread).waits = true) ∧
      (Frame.resumed thread by_ 0 none).endsRun = false
  | _, mode => mode = .values

/-- The frames above `base` take work of one mode to work of another one. -/
structure At (base : List Frame) (b mode : Mode) (m : Machine) : Prop where
  world : m.world.Sound
  stack : ∃ fs, m.stack = fs ++ base ∧ Leads mode fs b

/-- The machine works above `base` on something that ends in `b`. -/
def Within (base : List Frame) (b : Mode) (m : Machine) : Prop :=
  ∃ mode, At base b mode m ∧ m.control.Fits m.world mode

/-- After a step the machine still works above `base`, or the run is over. -/
def Stays (base : List Frame) (b : Mode) : Machine.Progress → Prop
  | .running m => Within base b m
  | .halted _ w => b = .values ∧ w.Sound

namespace At

variable {base : List Frame} {b mode : Mode} {m : Machine}

lemma go (h : At base b mode m) {c : Control} (fits : c.Fits m.world mode) :
    Within base b (m.go c) :=
  ⟨mode, ⟨h.world, h.stack⟩, fits⟩

lemma push (h : At base b mode m) {a : Mode} {f : Frame} {c : Control}
    (fits : c.Fits m.world a) (awaits : f.Awaits a) (below : f.below a = mode)
    (inner : f.endsRun = false) : Within base b (m.push f c) := by
  obtain ⟨fs, stack, leads⟩ := h.stack
  refine ⟨a, ⟨h.world, f :: fs, ?_, awaits, inner, ?_⟩, fits⟩
  · show f :: m.stack = f :: fs ++ base
    rw [stack, List.cons_append]
  · rw [below]
    exact leads

lemma withHeap (h : At base b mode m) {heap : Heap} (sound : heap.Sound m.world.registry) :
    At base b mode (m.withHeap heap) :=
  ⟨⟨h.world.registry, sound, h.world.threads⟩, h.stack⟩

/-- Changing tables, variables or closures leaves the userdata alone. -/
lemma withStore (h : At base b mode m) (store : Store) : At base b mode (m.withStore store) :=
  ⟨⟨h.world.registry, h.world.heap, h.world.threads⟩, h.stack⟩

lemma withWorld (h : At base b mode m) {w : World} (sound : w.Sound) :
    At base b mode (m.withWorld w) :=
  ⟨sound, h.stack⟩

lemma give (h : At base b .values m) (v : Value) : Within base b (m.give v) :=
  h.go rfl

lemma raiseText (h : At base b mode m) (hm : mode.isBody = false) (text : String) :
    Within base b (m.raiseText text) :=
  h.go hm

lemma raiseError (h : At base b mode m) (hm : mode.isBody = false) (e : ScriptError) :
    Within base b (m.raiseError e) :=
  (h.withHeap (h.world.heap.of_noNewBinding (.newUserdata _ rfl))).go hm

lemma raiseBridge (h : At base b mode m) (hm : mode.isBody = false) (e : BridgeError) :
    Within base b (m.raiseBridge e) :=
  h.raiseError hm _

lemma raiseConversion (h : At base b mode m) (hm : mode.isBody = false) :
    Within base b m.raiseConversion :=
  h.raiseError hm _

end At

end ScriptBridge.Machine
