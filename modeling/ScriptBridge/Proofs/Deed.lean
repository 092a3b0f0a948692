import Mathlib.Data.List.TakeDrop
import Mathlib.Tactic.Lemma
import ScriptBridge.Proofs.Request

/-!
# What a step can do

Every step of any machine does ordinary work for what the work at hand is awaited by, sets out host
code or binds a member, runs an accessor, or goes back and forth between frames and coroutines in
one of a few ways. What steps keep is derived from this.
-/

namespace ScriptBridge.Machine

open Script Bridge

/-- How a resumed coroutine comes to a halt. -/
inductive Resumption
  | yielded (vs : List Value)
  | returned (vs : List Value)
  | raised (v : Value)

namespace Resumption

/-- What whoever resumed the coroutine is handed. -/
def handed : Resumption → Handed
  | yielded vs | returned vs => .ok vs
  | raised v => .error v

/-- The control at which a coroutine comes to a halt like this. -/
def EndsAt : Resumption → Control → Prop
  | yielded vs, c => c = .call (.function (.builtin .coroutineYield)) vs
  | returned vs, c => c = .values vs
  | raised v, c => c = .raising v

/-- What a coroutine is left as, and what keeps its frames from being in the way of it: host code
that waits holds a yield back, and a value is raised past frames that do not catch. -/
def Leaves (above : List Frame) : Resumption → Thread → Prop
  | yielded _, .suspended stack _ => stack = above ∧ ∀ f ∈ above, f.isHostWait = false
  | returned _, .finished => above = []
  | raised _, .finished | raised _, .failed _ => ∀ f ∈ above, f.catches = false
  | _, _ => False

end Resumption

/-- Whether the frame on top of the stack is given something other than values. -/
def Control.endsBlock : Control → Bool
  | .completed | .returning _ | .finished .. | .failed _ => true
  | _ => false

/-- The work at hand is of a mode, or what it has come to is for a frame that then goes on towards
work of that mode. The second machine is the first one without that frame. -/
inductive Awaited (m : Machine) (mode : Mode) : Machine → Prop
  | here (fits : ∀ mode', m.control.Fits m.world mode' → mode' = mode) : Awaited m mode m
  | popped {f : Frame} {rest : List Frame} (stack : m.stack = f :: rest)
      (fits : ∀ mode', m.control.Fits m.world mode' → f.Awaits mode' → mode = f.below mode')
      (inside : m.control.endsBlock = true ∨ (∃ vs, m.control = .values vs) ∧ f.isMark = false) :
      Awaited m mode { m with stack := rest }

/-- The step leaves a coroutine that was resumed: its frames are those above its mark, which was the
innermost one, and the second machine is back at what was below. -/
structure Departs (m : Machine) (thread : Nat) (by_ : Resumer) (r : Resumption)
    (above : List Frame) (m' : Machine) : Prop where
  control : r.EndsAt m.control
  stack : ∃ outer around, m.stack = above ++ .resumed thread by_ outer around :: m'.stack
  inside : ∀ f ∈ above, f.isMark = false
  world : ∃ w t, m.world.Becomes w ∧ r.Leaves above t ∧ m'.world = w.setThread thread t

/-- The world after a step. -/
def Progress.world : Machine.Progress → World
  | .running m => m.world
  | .halted _ w => w

lemma report_heap (m : Machine) (thread : Nat) (by_ : Resumer) (handed : Handed) :
    (report m thread by_ handed).world.heap = m.heap := by
  cases by_ with
  | session => rfl
  | body inv => rfl
  | wrapper => cases handed <;> rfl

lemma resume_heap (m : Machine) (thread : Nat) (args : List Value) (by_ : Resumer) :
    (resume m thread args by_).heap = m.heap := by
  unfold resume
  dsimp only
  split <;> rfl

/-- What a step can do. -/
inductive Deed (m : Machine) : Machine.Progress → Prop
  | works {mode : Mode} {m₀ m' : Machine} (awaited : Awaited m mode m₀)
      (ordinary : Ordinary mode m₀ m') : Deed m (.running m')
  /-- Host code is set out, along a route that was asked for if it is an accessor. -/
  | asks {m₀ m' : Machine} {code : HostCode} {finish : Finish} {route : Route}
      (awaited : Awaited m .values m₀) (midway : Midway m₀ m') (heap : m'.heap = m.heap)
      (gives : m.world.Sound → route.Gives m'.world code)
      (asked : m.world.Sound → HasIndexed m.heap → code.isAccess = true →
        Requests m.world m.control route) :
      Deed m (.running (m'.go (.host code finish)))
  /-- What was read of a target is bound to it. -/
  | binds {m' : Machine} {target : Target} {name : String} {u : Userdata}
      (awaited : Awaited m .values m) (midway : Midway m m') (heap : m'.heap = m.heap)
      (planned : planRead m'.world.registry target name = .ok (.bound u)) :
      Deed m (.running (giveUserdata m' u))
  | accesses {target : Target} {name : String} {accessor : Accessor} {finish : Finish}
      {m' : Machine} (control : m.control = .host (.access target name accessor) finish)
      (ordinary : Ordinary .values
        (m.withStore (runAccessor m.heap m.world.store target.object? accessor).2) m') :
      Deed m (.running m')
  /-- A body has failed, and so has what is below. -/
  | fails {f : Frame} {rest : List Frame} {failure : HostFailure} {w : World}
      (control : m.control = .failed failure) (stack : m.stack = f :: rest)
      (below : ∀ mode, mode.isBody = true → f.Awaits mode → (f.below mode).isBody = true)
      (world : m.world.Becomes w) : Deed m (.running { m with world := w, stack := rest })
  /-- A call takes the place of a function that only waits to return. -/
  | replaces {m' : Machine} {rest : Rest} (awaited : Awaited m .values m)
      (dropped : dropReturning m.stack = some m'.stack) (world : m.world.Becomes m'.world)
      (control : m'.control = .exec rest) : Deed m (.running m')
  | catches {v : Value} {above below : List Frame} {f : Frame} {depth : Nat} {c : Control}
      (control : m.control = .raising v) (stack : m.stack = above ++ f :: below)
      (clear : ∀ g ∈ above, g.catches = false) (here : f.catches = true)
      (mark : f.isMark = false) (ordinary : c.IsOrdinary (f.below .values)) :
      Deed m (.running { m with stack := below, depth, control := c })
  /-- A body has a coroutine resumed that can be resumed. -/
  | enters {thread : Nat} {body : Body} {inv after : Invocation} {store : Store}
      (control : m.control = .body body after) (awaited : Awaited m (.body inv) m)
      (world : m.world.Becomes { m.world with store })
      (resumable : m.world.checkResumable thread = .ok ()) :
      Deed m (.running { m with
        world := { m.world with store, active := thread :: m.world.active }
        control := .resume thread [] (.body inv) })
  | starts {thread : Nat} {args : List Value} {by_ : Resumer}
      (control : m.control = .resume thread args by_) :
      Deed m (.running (resume m thread args by_))
  | departs {thread : Nat} {by_ : Resumer} {r : Resumption} {above : List Frame} {m' : Machine}
      (departs : Departs m thread by_ r above m') : Deed m (report m' thread by_ r.handed)
  | halts {o : Outcome} (empty : m.stack = [])
      (ends : m.control.endsBlock = true ∨ ∃ vs, m.control = .values vs) :
      Deed m (.halted o m.world)
  | escapes {v : Value} (control : m.control = .raising v)
      (clear : ∀ f ∈ m.stack, f.catches = false) : Deed m (.halted (.raised v) m.world)

variable {m m₀ m₁ : Machine}

lemma Awaited.world {mode : Mode} (awaited : Awaited m mode m₀) : m₀.world = m.world := by
  cases awaited <;> rfl

/-- The control is work that ends in values. -/
lemma awaited_values {c : Control} (control : m.control = c)
    (fits : ∀ mode, c.Fits m.world mode → mode = .values) : Awaited m .values m :=
  .here fun mode fits' => fits mode (control ▸ fits')

section Members

/-- What an operation runs was planned, and if it is an accessor the operation was asked for. -/
lemma perform_deed (op : Operation) {finish : Finish} (awaited : Awaited m .values m₀)
    (h : Midway m₀ m₁) (heap : m₁.heap = m.heap)
    (bound : m₁.world.Sound → op.Bound m₁.world.registry)
    (asked : m.world.Sound → HasIndexed m.heap →
      ∀ code, op.plan (consulted m₁ op).world = .ok code → code.isAccess = true →
        Requests m.world m.control (.operation op)) :
    Deed m (.running (perform m₁ finish op)) := by
  obtain ⟨h', same⟩ := consulted_midway h op
  unfold perform
  cases planned : op.plan (consulted m₁ op).world with
  | error e => exact .works awaited (h'.raiseBridge e rfl)
  | ok code =>
    refine .asks awaited h' (same.trans heap) (fun sound => ?_) fun sound indexed access =>
      asked sound indexed code planned access
    have bound' := bound (h.world.sound (awaited.world ▸ sound))
    exact .operation (by cases op <;> exact bound') planned

lemma applyOperator_deed (awaited : Awaited m .values m₀) (h : Midway m₀ m₁)
    (heap : m₁.heap = m.heap) (op : Operator) (x y : Value) :
    Deed m (.running (applyOperator m₁ op x y)) := by
  cases pulled : m₁.world.pullMany [x, y] with
  | error e =>
    unfold applyOperator
    rw [pulled]
    exact .works awaited (h.raiseBridge e rfl)
  | ok operands =>
    rw [applyOperator_eq pulled]
    refine perform_deed _ awaited h heap (fun _ => trivial) fun _ _ code planned access => ?_
    obtain ⟨inv, -, rfl⟩ := map_eq_ok.1 planned
    cases access

lemma arithmetic_deed (awaited : Awaited m .values m₀) (h : Midway m₀ m₁)
    (heap : m₁.heap = m.heap) (op : BinaryOp) (x y : Value) :
    Deed m (.running (arithmetic m₁ op x y)) := by
  unfold arithmetic
  split
  · exact .works awaited (h.give _)
  · split
    · exact .works awaited (h.push .values rfl rfl rfl rfl)
    · exact applyOperator_deed awaited h heap _ _ _
    · split
      · split
        · exact .works awaited (h.give _)
        · exact .works awaited (h.raiseText _ rfl)
      · exact .works awaited (h.raiseText _ rfl)

theorem operate_deed (awaited : Awaited m .values m₀) (h : Midway m₀ m₁)
    (heap : m₁.heap = m.heap) (op : BinaryOp) (x y : Value) :
    Deed m (.running (operate m₁ op x y)) := by
  cases op with
  | add | sub | mul | div => exact arithmetic_deed awaited h heap _ _ _
  | concat => exact .works awaited (concatenate_ordinary h _ _)
  | eq | ne => exact .works awaited (equate_ordinary h _ _ _)
  | lt | gt | le | ge => exact .works awaited (compare_ordinary h _ _ _ _)

theorem operateUnary_deed (awaited : Awaited m .values m₀) (h : Midway m₀ m₁)
    (heap : m₁.heap = m.heap) (op : UnaryOp) (x : Value) :
    Deed m (.running (operateUnary m₁ op x)) := by
  cases op with
  | neg =>
    unfold operateUnary negate
    dsimp only
    split
    · exact .works awaited (h.give _)
    · split
      · exact .works awaited (h.push .values rfl rfl rfl rfl)
      · exact applyOperator_deed awaited h heap _ _ _
      · split
        · exact .works awaited (h.give _)
        · exact .works awaited (h.raiseText _ rfl)
  | not => exact .works awaited (h.give _)
  | length => exact .works awaited (length_ordinary h x)

variable {id budget : Nat} {key v : Value} {target : Target}

lemma readMember_deed (control : m.control = .index (.userdata id) key (budget + 1))
    (proxy : m.heap.target? (m.heap.userdatum id) = some target) :
    Deed m (.running (readMember m target key)) := by
  have awaited := awaited_values control fun mode fits => fits
  have h := Midway.refl m
  unfold readMember
  split
  · exact .works awaited h.raiseConversion
  · rename_i name named
    have h' := h.remember target.cls
    dsimp only
    cases planned : planRead (m.remember target.cls).world.registry target name with
    | error e => exact .works awaited (h'.raiseBridge e rfl)
    | ok plan =>
      cases plan with
      | bound u => exact .binds awaited h' rfl planned
      | type t => exact .works awaited (deliver_ordinary h' (.type t))
      | run code =>
        refine .asks awaited h' rfl (fun _ => .read planned) fun _ _ _ => ?_
        exact control ▸ .read proxy named

lemma writeMember_deed (control : m.control = .store (.userdata id) key v (budget + 1))
    (proxy : m.heap.target? (m.heap.userdatum id) = some target) :
    Deed m (.running (writeMember m target key v)) := by
  have awaited := awaited_values control fun mode fits => fits
  cases named : memberName? key with
  | none =>
    unfold writeMember
    rw [named]
    exact .works awaited (Midway.refl m).raiseConversion
  | some name =>
    rw [writeMember_eq named]
    refine perform_deed _ awaited (.refl m) rfl (fun _ => trivial) fun _ _ code _ _ => ?_
    exact control ▸ .write v proxy named

lemma indexUserdata_deed (control : m.control = .index (.userdata id) key (budget + 1)) :
    Deed m (.running (indexUserdata m id key)) := by
  have awaited := awaited_values control fun mode fits => fits
  have h := Midway.refl m
  unfold indexUserdata
  dsimp only
  split
  · exact .works awaited (h.give _)
  · split
    · split
      · exact readMember_deed control ‹_›
      · exact .works awaited (h.raiseError _ rfl)
    · split
      · exact readMember_deed control ‹_›
      · exact .works awaited (h.raiseError _ rfl)
    · rename_i target p bound
      refine perform_deed (.indexGet target p [m.world.pull key]) awaited h rfl
        (fun sound => ?_) fun _ _ code _ _ => ?_
      · exact (bound ▸ sound.heap.userdatum id :)
      · exact control ▸ .getAt key bound
    · exact .works awaited (h.give _)
    · exact .works awaited (h.raiseText _ rfl)

theorem index_deed {object : Value} (control : m.control = .index object key budget) :
    Deed m (.running (index m object key budget)) := by
  have awaited := awaited_values control fun mode fits => fits
  have h := Midway.refl m
  unfold index
  split
  · exact .works awaited (h.raiseText _ rfl)
  · split
    · split
      · split
        · exact .works awaited (h.give _)
        · exact .works awaited (h.push .values rfl rfl rfl rfl)
        · exact .works awaited (h.go rfl)
      · exact .works awaited (h.give _)
    · split
      · exact .works awaited (h.go rfl)
      · exact .works awaited (h.raiseText _ rfl)
    · exact indexUserdata_deed control
    · exact .works awaited (h.raiseText _ rfl)

lemma storeUserdata_deed (control : m.control = .store (.userdata id) key v (budget + 1)) :
    Deed m (.running (storeUserdata m id key v)) := by
  have awaited := awaited_values control fun mode fits => fits
  have h := Midway.refl m
  unfold storeUserdata
  dsimp only
  split
  · split
    · exact writeMember_deed control ‹_›
    · exact .works awaited (h.raiseError _ rfl)
  · split
    · exact writeMember_deed control ‹_›
    · exact .works awaited (h.raiseError _ rfl)
  · rename_i target p bound
    refine perform_deed (.indexSet target p [m.world.pull key] (m.world.pull v)) awaited h rfl
      (fun sound => ?_) fun _ _ code _ _ => ?_
    · exact (bound ▸ sound.heap.userdatum id :)
    · exact control ▸ .setAt key v bound
  · exact .works awaited (h.raiseText _ rfl)

theorem store_deed {object : Value} (control : m.control = .store object key v budget) :
    Deed m (.running (store m object key v budget)) := by
  have awaited := awaited_values control fun mode fits => fits
  have h := Midway.refl m
  unfold store
  split
  · exact .works awaited (h.raiseText _ rfl)
  · split
    · split
      · exact .works awaited (storeRaw_ordinary h _ _ _)
      · split
        · exact .works awaited (storeRaw_ordinary h _ _ _)
        · exact .works awaited (h.go rfl)
        · exact .works awaited (h.go rfl)
    · exact storeUserdata_deed control
    · exact .works awaited (h.raiseText _ rfl)

end Members

section Coroutines

variable {fs : List Frame} {p : Frame → Bool}

/-- The first frame of a kind, if there is one. -/
lemma first_or_none (p : Frame → Bool) (fs : List Frame) :
    (∃ above f below, fs = above ++ f :: below ∧ p f = true ∧ ∀ g ∈ above, p g = false) ∨
      ∀ g ∈ fs, p g = false := by
  induction fs with
  | nil => exact Or.inr fun g mem => by cases mem
  | cons f rest ih =>
    by_cases here : p f = true
    · exact Or.inl ⟨[], f, rest, rfl, here, fun g mem => by cases mem⟩
    · rcases ih with ⟨above, g, below, rfl, found, none⟩ | none
      · refine Or.inl ⟨f :: above, g, below, rfl, found, ?_⟩
        exact List.forall_mem_cons.2 ⟨Bool.eq_false_iff.2 here, none⟩
      · exact Or.inr (List.forall_mem_cons.2 ⟨Bool.eq_false_iff.2 here, none⟩)

lemma span_append (none : ∀ g ∈ fs, p g = false) (rest : List Frame) :
    (fs ++ rest).span (!p ·) = (fs ++ (rest.span (!p ·)).1, (rest.span (!p ·)).2) := by
  rw [List.span_eq_takeWhile_dropWhile, List.span_eq_takeWhile_dropWhile]
  have all : ∀ g ∈ fs, (!p g) = true := fun g mem => by rw [none g mem]; rfl
  rw [List.takeWhile_append_of_pos all, List.dropWhile_append_of_pos all]

/-- A stack is cut at its first frame of a kind. -/
lemma span_first (none : ∀ g ∈ fs, p g = false) {f : Frame} (here : p f = true)
    (rest : List Frame) : (fs ++ f :: rest).span (!p ·) = (fs, f :: rest) := by
  rw [span_append none, List.span_eq_takeWhile_dropWhile]
  simp [here]

lemma span_none (none : ∀ g ∈ fs, p g = false) : fs.span (!p ·) = (fs, []) := by
  simpa [List.span, List.span.loop] using span_append none []

/-- Suspending the running coroutine goes back to its mark. -/
lemma yield_deed (h : Midway m m₁) {vs : List Value}
    (control : m.control = .call (.function (.builtin .coroutineYield)) vs) :
    Deed m (yield m₁ vs) := by
  have awaited := awaited_values control fun mode fits => fits
  rcases first_or_none Frame.isMark m₁.stack with ⟨above, f, below, stack, mark, inside⟩ | none
  · have cut : m₁.stack.span (!·.isMark) = (above, f :: below) := by
      rw [stack, span_first inside mark]
    unfold yield
    rw [cut]
    cases f with
    | resumed thread by_ outer around =>
      dsimp only
      split
      · exact .works awaited (h.raiseText _ rfl)
      · rename_i free
        have waits : ∀ f ∈ above, f.isHostWait = false := fun f mem =>
          Bool.eq_false_iff.2 fun waits => free (List.any_eq_true.2 ⟨f, mem, waits⟩)
        have yields : (Resumption.yielded vs).EndsAt m.control := control
        exact .departs ⟨yields, ⟨outer, around, h.stack.symm.trans stack⟩, inside,
          ⟨m₁.world, .suspended above m₁.depth, h.world, ⟨rfl, waits⟩, rfl⟩⟩
    | _ => cases mark
  · unfold yield
    rw [span_none none]
    exact .works awaited (h.raiseText _ rfl)

lemma isMark_of_not_catches {f : Frame} (none : f.catches = false) : f.isMark = false := by
  cases f <;> first | rfl | cases none

/-- A raised value is caught, ends the running coroutine, or nothing takes care of it. -/
lemma raised_deed {v : Value} (control : m.control = .raising v) : Deed m (raised m v) := by
  rcases first_or_none Frame.catches m.stack with ⟨above, f, below, stack, catches, clear⟩ | clear
  · have inside : ∀ g ∈ above, g.isMark = false := fun g mem => isMark_of_not_catches (clear g mem)
    have cut : m.stack.span (!·.catches) = (above, f :: below) := by
      rw [stack, span_first clear catches]
    unfold raised
    rw [cut]
    cases f with
    | resumed thread by_ outer around =>
      have departs {t : Thread} (leaves : (Resumption.raised v).Leaves above t) (m' : Machine)
          (stack' : m'.stack = below) (world : m'.world = m.world.setThread thread t) :
          Departs m thread by_ (.raised v) above m' :=
        ⟨control, ⟨outer, around, by rw [stack, stack']⟩, inside, m.world, t, .refl, leaves, world⟩
      cases by_ with
      | wrapper => exact .departs (departs (t := .finished) clear _ rfl rfl)
      | _ => exact .departs (departs (t := .failed above) clear _ rfl rfl)
    | protect => exact .catches control stack clear rfl rfl rfl
    | emitting inv holder event rest arg => exact .catches control stack clear rfl rfl rfl
    | callingBack inv => exact .catches control stack clear rfl rfl rfl
    | _ => cases catches
  · unfold raised
    rw [span_none clear]
    exact .escapes control clear

end Coroutines

section Calls

/-- A call takes the place of a function that only waits to return, or goes on top. -/
lemma callClosure_deed (awaited : Awaited m .values m) (h : Midway m m₁) (id : Nat)
    (args : List Value) : Deed m (.running (callClosure m₁ id args)) := by
  have h' : Midway m (m₁.withHeap (bindArguments m₁.heap (m₁.heap.closure id) args).2) :=
    h.declare _ _
  unfold callClosure
  dsimp only
  split
  · rename_i stack dropped
    exact .replaces awaited (h.stack ▸ dropped) h'.world rfl
  · split
    · exact .works awaited (h'.raiseText _ rfl)
    · exact .works awaited ((h'.withDepth (m₁.depth + 1)).push .block rfl rfl rfl rfl)

/-- A method of an event proxy subscribes or unsubscribes the handler, or is refused. -/
lemma callEvent_deed (h : Midway m m₁) (heap : m₁.heap = m.heap) (finish : Finish)
    {f : Builtin} {self : Value} {rest : List Value}
    (control : m.control = .call (.function (.builtin f)) (self :: rest))
    {accessor : Declared Event → Routine → Accessor}
    {route : Target → Declared Event → Routine → Route}
    (asked : ∀ {id target e} r others, m.world.heap.userdatum id = .event target e →
      Requests m.world (.call (.function (.builtin f)) (.userdata id :: .function r :: others))
        (route target e r))
    (gives : ∀ {target e} r, Offered m₁.world.registry (.event target e) →
      (route target e r).Gives m₁.world (.access target e.item.name (accessor e r))) :
    Deed m (.running (callEvent m₁ finish accessor self ((self :: rest)[1]?.getD .nil))) := by
  have awaited := awaited_values control fun mode fits => fits
  unfold callEvent
  generalize handler : (self :: rest)[1]?.getD .nil = second
  split
  · rename_i id
    split
    · rename_i target e r bound
      obtain ⟨others, rfl⟩ := exists_handler handler
      have offered (sound : m.world.Sound) : Offered m₁.world.registry (.event target e) :=
        bound ▸ (h.world.sound sound).heap.userdatum id
      rw [heap] at bound
      exact .asks awaited h heap (fun sound => gives r (offered sound))
        fun _ _ _ => control ▸ asked r others bound
    · exact .works awaited h.raiseConversion
    · exact .works awaited (h.raiseError _ rfl)
  · exact .works awaited h.raiseConversion

/-- A method of an indexer that is called on something else, or with too many arguments, is
refused. -/
lemma callIndexer_deed (awaited : Awaited m .values m) (h : Midway m m₁) (finish : Finish)
    {plan : Target → Declared Property → List HostValue → Except BridgeError HostCode}
    {self : Value} {args : List Value}
    (planned : ∀ id target p values, self = .userdata id →
      m₁.heap.userdatum id = .indexer target p → m₁.world.pullMany args = .ok values →
        Deed m (.running (runPlanned m₁ finish (plan target p values)))) :
    Deed m (.running (callIndexer m₁ finish plan self args)) := by
  unfold callIndexer
  split
  · split
    · rename_i bound
      cases pulled : m₁.world.pullMany args with
      | error e => exact .works awaited (h.raiseBridge e rfl)
      | ok values => exact planned _ _ _ _ rfl bound pulled
    · exact .works awaited (h.raiseError _ rfl)
  · exact .works awaited h.raiseConversion

lemma indexerGet_deed (h : Midway m m₁) (heap : m₁.heap = m.heap) {self : Value}
    {args : List Value}
    (control : m.control = .call (.function (.builtin .indexerGet)) (self :: args)) :
    Deed m (.running (callIndexer m₁ .value (planIndexGet m₁.world.coercer) self args)) := by
  have awaited := awaited_values control fun mode fits => fits
  refine callIndexer_deed awaited h .value ?_
  rintro id target p values rfl bound pulled
  refine perform_deed (.indexGet target p values) awaited h heap (fun sound => ?_)
    fun _ _ code _ _ => ?_
  · exact (bound ▸ sound.heap.userdatum id :)
  · rw [heap] at bound
    rw [control, pullMany_eq_ok pulled, show m₁.world.heap = m.world.heap from heap]
    exact .get args bound

lemma indexerSet_deed (h : Midway m m₁) (heap : m₁.heap = m.heap) {self : Value}
    {rest : List Value}
    (control : m.control = .call (.function (.builtin .indexerSet)) (self :: rest)) :
    Deed m (.running (callIndexer m₁ .nothing (fun target p args =>
      planIndexSet m₁.world.coercer target p args.dropLast (args.getLastD .nil)) self rest)) := by
  have awaited := awaited_values control fun mode fits => fits
  refine callIndexer_deed awaited h .nothing ?_
  rintro id target p values rfl bound pulled
  refine perform_deed (.indexSet target p values.dropLast (values.getLastD .nil)) awaited h
    heap (fun sound => ?_) fun _ indexed code planned _ => ?_
  · exact (bound ▸ sound.heap.userdatum id :)
  · rw [heap] at bound
    rw [pullMany_eq_ok pulled, show m₁.world.heap = m.world.heap from heap] at planned ⊢
    rcases List.eq_nil_or_concat' rest with rfl | ⟨args, v, rfl⟩
    · exact absurd planned (planIndexSet_nil (indexed.userdatum bound))
    · have last : pullAll m.world.heap (args ++ [v])
          = pullAll m.world.heap args ++ [m.world.pull v] :=
        List.map_append
      rw [last, List.dropLast_concat, List.getLastD_concat, control]
      exact .set args v bound

theorem callBuiltin_deed (h : Midway m m₁) (heap : m₁.heap = m.heap) {f : Builtin}
    {args : List Value} (control : m.control = .call (.function (.builtin f)) args) :
    Deed m (callBuiltin m₁ f args) := by
  have awaited := awaited_values control fun mode fits => fits
  cases f with
  | coroutineYield => exact yield_deed h control
  | setmetatable => exact .works awaited (setMetatable_ordinary h args)
  | error => exact .works awaited (raiseLevel_ordinary h _ _)
  | tostring =>
    cases args with
    | nil => exact .works awaited (h.raisePlaced _)
    | cons v args => exact .works awaited (toText_ordinary h v)
  | coroutineCreate | coroutineWrap =>
    unfold callBuiltin
    dsimp only
    split
    · exact .works awaited ((h.alter (.makesThread _)).give _)
    · exact .works awaited (h.raisePlaced _)
  | subscribe =>
    cases args with
    | nil => exact .works awaited h.raiseConversion
    | cons self rest => exact callEvent_deed h heap .nothing control .subscribe .subscribe
  | unsubscribe =>
    cases args with
    | nil => exact .works awaited h.raiseConversion
    | cons self rest => exact callEvent_deed h heap .value control .unsubscribe .unsubscribe
  | indexerGet =>
    cases args with
    | nil => exact .works awaited h.raiseConversion
    | cons self rest => exact indexerGet_deed h heap control
  | indexerSet =>
    cases args with
    | nil => exact .works awaited h.raiseConversion
    | cons self rest => exact indexerSet_deed h heap control
  | _ =>
    unfold callBuiltin
    dsimp only
    repeat' split
    all_goals first
      | exact .works awaited (h.go rfl)
      | exact .works awaited (h.push .values rfl rfl rfl rfl)

theorem callUserdata_deed (awaited : Awaited m .values m) (h : Midway m m₁)
    (heap : m₁.heap = m.heap) (id : Nat) (args : List Value) :
    Deed m (.running (callUserdata m₁ id args)) := by
  have methods {op : Operation} {finish : Finish} {plan : Except BridgeError Invocation}
      (bound : m₁.world.Sound → op.Bound m₁.world.registry)
      (planned : op.plan (consulted m₁ op).world = plan.map .method) :
      Deed m (.running (perform m₁ finish op)) := by
    refine perform_deed _ awaited h heap bound fun _ _ code ok access => ?_
    obtain ⟨inv, -, rfl⟩ := map_eq_ok.1 (planned.symm.trans ok)
    cases access
  cases type : m₁.heap.userdatum id with
  | type handle =>
    cases pulled : m₁.world.pullMany args with
    | error e =>
      unfold callUserdata
      simp only [type, pulled]
      split
      · exact .works awaited (h.raiseBridge e rfl)
      · exact .works awaited (h.raiseError _ rfl)
    | ok vs =>
      by_cases proxy : ∃ t, m₁.heap.target? (.type handle) = some (.type t)
      · obtain ⟨t, pinned⟩ := proxy
        cases closed : t.isOpen with
        | true =>
          unfold callUserdata
          simp only [type, pinned, pulled, closed, if_true]
          exact .works awaited (closeType_ordinary h t vs)
        | false =>
          rw [callUserdata_type_eq type pinned closed pulled]
          exact methods (fun _ => trivial) rfl
      · unfold callUserdata
        simp only [type]
        split
        · rename_i t pinned
          exact absurd ⟨t, pinned⟩ proxy
        · exact .works awaited (h.raiseError _ rfl)
  | methods target name overloads =>
    cases pulled : m₁.world.pullMany args with
    | error e =>
      unfold callUserdata
      simp only [type, pulled]
      exact .works awaited (h.raiseBridge e rfl)
    | ok vs =>
      obtain ⟨withValue, eq⟩ := callUserdata_methods_eq type pulled
      rw [eq]
      exact methods (fun sound => (type ▸ sound.heap.userdatum id :)) rfl
  | _ =>
    unfold callUserdata
    simp only [type]
    exact .works awaited (h.raiseText _ rfl)

theorem call_deed (h : Midway m m₁) (heap : m₁.heap = m.heap) {f : Value} {args : List Value}
    (control : m.control = .call f args) : Deed m (call m₁ f args) := by
  have awaited := awaited_values control fun mode fits => fits
  unfold call
  split
  · exact callClosure_deed awaited h _ _
  · exact callBuiltin_deed h heap control
  · exact callUserdata_deed awaited h heap _ _
  · split
    · exact .works awaited (h.raiseText _ rfl)
    · split
      · exact .works awaited (h.raiseText _ rfl)
      · exact .works awaited (h.go rfl)
  · exact .works awaited (h.raiseText _ rfl)

/-- What a call does is not changed by a hook that sees the call. -/
theorem callHooked_deed {f : Value} {args : List Value} (control : m.control = .call f args) :
    Deed m (callHooked m f args) := by
  have awaited := awaited_values control fun mode fits => fits
  unfold callHooked
  split
  · exact .works awaited ((Midway.refl m).raiseText _ rfl)
  · split
    · rename_i fired
      obtain ⟨h, heap⟩ := fire_ok (.refl m) fired
      exact call_deed h heap control
    · rename_i fired
      exact .works awaited (fire_error (.refl m) fired rfl)

end Calls

section HostCode

/-- A method gets its guard; an accessor is done at once. -/
theorem runHost_deed {code : HostCode} {finish : Finish} (control : m.control = .host code finish) :
    Deed m (.running (runHost m code finish)) := by
  cases code with
  | method inv =>
    have awaited := awaited_values control fun mode fits => fits.1
    exact .works awaited (runMethod_ordinary (.refl m) inv finish)
  | access target name accessor =>
    have h := Midway.refl
      (m.withStore (runAccessor m.heap m.world.store target.object? accessor).2)
    refine .accesses control ?_
    unfold runHost
    dsimp only
    split
    · rename_i eq
      rw [eq] at h ⊢
      exact deliverAs_ordinary h _ _
    · rename_i eq
      rw [eq] at h ⊢
      exact h.raiseBridge _ rfl

/-- A body ends, waits for scripts, or has a coroutine resumed. -/
theorem runBody_deed {body : Body} {inv : Invocation} (control : m.control = .body body inv) :
    Deed m (.running (runBody m body inv)) := by
  have leaves := startBody_leaves m.world.store inv body
  have awaited : Awaited m (.body (inv.after body)) m :=
    .here fun mode fits => by rw [control] at fits; exact fits
  have h := (Midway.refl m).alter (.begins inv body)
  unfold runBody
  split
  rename_i step store started
  rw [started] at leaves h
  cases step with
  | finished v inv' =>
    refine .works awaited (h.go ?_)
    exact congrArg Mode.body leaves.symm
  | failed failure => exact .works awaited (h.go rfl)
  | emit holder event arg =>
    rw [← leaves] at awaited
    exact .works awaited (emitNext_ordinary h _ _ _ _ _)
  | callBack f args =>
    rw [← leaves] at awaited
    exact .works awaited (h.push .values rfl rfl rfl rfl)
  | hold o mode body' =>
    refine .works awaited (h.push (.body (inv.after body')) rfl rfl ?_ rfl)
    exact congrArg Mode.body leaves
  | sequence bodies =>
    refine .works awaited (h.push (.body inv) rfl rfl ?_ rfl)
    exact congrArg Mode.body leaves
  | coroutineStatus name =>
    rw [← leaves] at awaited
    exact .works awaited (h.go rfl)
  | resume name =>
    rw [← leaves] at awaited
    dsimp only
    unfold resumeFromBody
    split
    · exact .works awaited (h.go rfl)
    · split
      · exact .works awaited (h.go rfl)
      · rename_i resumable
        exact .enters control awaited h.world resumable
  | environment name =>
    rw [← leaves] at awaited
    exact .works awaited (h.go rfl)

end HostCode

section Frames

variable {f : Frame} {rest : List Frame}

/-- Values go to a frame that awaits them. -/
theorem receive_deed {vs : List Value} (control : m.control = .values vs)
    (stack : m.stack = f :: rest) : Deed m (receive { m with stack := rest } vs f) := by
  have h := Midway.refl { m with stack := rest }
  have awaited (mode : Mode) (inside : f.isMark = false)
      (below : f.Awaits .values → mode = f.below .values) :
      Awaited m mode { m with stack := rest } := by
    refine .popped stack (fun mode' fits awaits => ?_) (.inr ⟨⟨vs, control⟩, inside⟩)
    rw [control] at fits
    obtain rfl : mode' = .values := fits
    exact below awaits
  cases f with
  | resumed thread by_ outer around =>
    have returns : (Resumption.returned vs).EndsAt m.control := control
    exact .departs ⟨returns, ⟨outer, around, stack⟩, List.forall_mem_nil _,
      ⟨m.world, .finished, .refl, rfl, rfl⟩⟩
  | operate op a => exact operate_deed (awaited _ rfl fun _ => rfl) h rfl _ _ _
  | unary op => exact operateUnary_deed (awaited _ rfl fun _ => rfl) h rfl _ _
  | junction op e scope => exact .works (awaited _ rfl fun _ => rfl) (join_ordinary h _ _ _ _)
  | entryValue table key others scope =>
    exact .works (awaited _ rfl fun _ => rfl) (fillEntry_ordinary h _ _ _ _ _)
  | sequence =>
    refine .works (awaited _ rfl fun _ => rfl) (Midway.give ?_ _)
    exact h.memory rfl rfl
  | bind names others =>
    refine .works (awaited .block rfl fun _ => rfl) (Midway.go ?_ rfl)
    exact h.declare _ _
  | assign name others =>
    exact .works (awaited .block rfl fun _ => rfl) ((assign_midway h _ _ _).go rfl)
  | forLast name start body others =>
    exact .works (awaited _ rfl fun _ => rfl) (startLoop_ordinary h _ _ _ _ _)
  | whileTest condition body others =>
    refine .works (awaited .block rfl fun _ => rfl) ?_
    split
    · exact tick_ordinary h _ fun m' h' => h'.push .block rfl rfl rfl rfl
    · exact h.go rfl
  | text =>
    refine .works (awaited .values rfl fun _ => rfl) ?_
    split
    · exact h.give _
    · exact h.raiseText _ rfl
  | emitting inv holder event others arg =>
    exact .works (awaited _ rfl fun _ => rfl) (emitNext_ordinary h _ _ _ _ _)
  | callingBack inv => exact .works (awaited (.body inv) rfl fun _ => rfl) (h.go rfl)
  | function outer =>
    exact .works (awaited .values rfl fun awaits => by cases awaits)
      ((h.withDepth outer).go rfl)
  | next others | counting name next rounds body others | stepping name next last body others
  | whileBody condition body others =>
    exact .works (awaited .values rfl fun awaits => by cases awaits) (h.go rfl)
  | guard context finish | steps bodies | holding o mode =>
    exact .works (awaited .values rfl fun awaits => by cases awaits) (h.go rfl)
  | callee args scope | receiver method args scope | method object args scope
  | indexKey key scope | right op e scope | entryKey table value others scope =>
    exact .works (awaited .values rfl fun _ => rfl)
      (h.push .values rfl rfl rfl rfl)
  | storeKey key value others | storeValue object value others | storeTo object key others
  | forFirst name last body others =>
    exact .works (awaited .block rfl fun _ => rfl)
      (h.push .values rfl rfl rfl rfl)
  | branch yes no others =>
    exact .works (awaited .block rfl fun _ => rfl)
      (h.push .block rfl rfl rfl rfl)
  | discard others | ret =>
    exact .works (awaited .block rfl fun _ => rfl) (h.go rfl)
  | _ => exact .works (awaited .values rfl fun _ => rfl) (h.go rfl)

/-- The end of a block is for the frame on top. -/
lemma awaited_block {mode : Mode} (stack : m.stack = f :: rest)
    (ends : m.control = .completed ∨ ∃ vs, m.control = .returning vs)
    (below : f.Awaits .block → mode = f.below .block) :
    Awaited m mode { m with stack := rest } := by
  have block : ∀ mode', m.control.Fits m.world mode' → mode' = .block := by
    rcases ends with control | ⟨vs, control⟩ <;> rw [control] <;> exact fun _ fits => fits
  refine .popped stack (fun mode' fits awaits => ?_) (.inl ?_)
  · obtain rfl := block mode' fits
    exact below awaits
  · rcases ends with control | ⟨vs, control⟩ <;> rw [control] <;> rfl

lemma afterFailure_deed {failure : HostFailure} (control : m.control = .failed failure)
    (stack : m.stack = f :: rest) :
    Deed m (.running (afterFailure { m with stack := rest } failure f)) := by
  have passes (none : ∀ mode, mode.isBody = true → ¬ f.Awaits mode) :
      Deed m (.running { m with stack := rest, control := .failed failure }) := by
    have deed := Deed.fails control stack
      (fun mode body awaits => absurd awaits (none mode body)) (.refl (a := m.world))
    rwa [control] at deed
  cases f with
  | guard context finish =>
    refine .works (.popped stack (fun mode fits awaits => rfl) (.inl (control ▸ rfl))) ?_
    exact (Midway.refl { m with stack := rest }).raiseBridge _ rfl
  | holding o mode =>
    have below : ∀ mode', mode'.isBody = true → (Frame.holding o mode).Awaits mode' →
        ((Frame.holding o mode).below mode').isBody = true := by
      intro mode' body _
      cases mode' <;> first | rfl | cases body
    have deed := Deed.fails control stack below
      (.single (.givesBack (w := m.world) o mode))
    rwa [control] at deed
  | steps bodies =>
    have below : ∀ mode', mode'.isBody = true → (Frame.steps bodies).Awaits mode' →
        ((Frame.steps bodies).below mode').isBody = true := by
      intro mode' body _
      cases mode' <;> first | rfl | cases body
    have deed := Deed.fails control stack below (.refl (a := m.world))
    rwa [control] at deed
  | _ =>
    refine passes fun mode body awaits => ?_
    obtain rfl := awaits
    cases body

lemma popped_deed {empty : Outcome} {k : Machine → Frame → Machine.Progress}
    (ends : m.control.endsBlock = true ∨ ∃ vs, m.control = .values vs)
    (next : ∀ f rest, m.stack = f :: rest → Deed m (k { m with stack := rest } f)) :
    Deed m (popped m empty k) := by
  unfold popped
  split
  · rename_i nothing
    exact .halts nothing ends
  · rename_i f rest stack
    exact next f rest stack

end Frames

/-- Every step of any machine is one of the deeds. -/
theorem step_deed (m : Machine) : Deed m (step m) := by
  have h := Midway.refl m
  have ends {c : Control} (control : m.control = c) (ends : c.endsBlock = true) :
      m.control.endsBlock = true ∨ ∃ vs, m.control = .values vs :=
    .inl (control ▸ ends)
  unfold step
  cases control : m.control with
  | exec rest =>
    have awaited : Awaited m .block m := .here fun mode fits => by
      rw [control] at fits
      exact fits
    exact .works awaited (exec_ordinary h rest)
  | evaluate e scope =>
    exact .works (awaited_values control fun _ fits => fits) (evaluate_ordinary h scope e)
  | evaluateAll done es scope =>
    exact .works (awaited_values control fun _ fits => fits) (evaluateAll_ordinary h done scope es)
  | values vs =>
    exact popped_deed (.inr ⟨vs, control⟩) fun f rest stack => receive_deed control stack
  | completed =>
    refine popped_deed (ends control rfl) fun f rest stack => ?_
    obtain ⟨mode, ordinary, below⟩ := afterBlock_ordinary (.refl { m with stack := rest }) f
    exact .works (awaited_block stack (.inl control) below) ordinary
  | returning vs =>
    refine popped_deed (ends control rfl) fun f rest stack => ?_
    obtain ⟨mode, ordinary, below⟩ := returnFrom_ordinary (.refl { m with stack := rest }) vs f
    exact .works (awaited_block stack (.inr ⟨vs, control⟩) below) ordinary
  | raising v => exact raised_deed control
  | call f args => exact callHooked_deed control
  | index object key budget => exact index_deed control
  | store object key v budget => exact store_deed control
  | host code finish => exact runHost_deed control
  | body body inv => exact runBody_deed control
  | finished v inv =>
    refine popped_deed (ends control rfl) fun f rest stack => ?_
    obtain ⟨mode, ordinary, below⟩ := afterBody_ordinary (.refl { m with stack := rest }) v inv f
    refine .works (.popped stack (fun mode' fits awaits => ?_) (.inl (control ▸ rfl))) ordinary
    rw [control] at fits
    obtain rfl : mode' = .body inv := fits
    exact below awaits
  | failed failure =>
    exact popped_deed (ends control rfl) fun f rest stack => afterFailure_deed control stack
  | resume thread args by_ => exact .starts control

end ScriptBridge.Machine
