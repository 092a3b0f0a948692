import Mathlib.Tactic.Lemma
import ScriptBridge.Proofs.Deed
import ScriptBridge.Proofs.Proxy

/-!
# What a step does to coroutines

A step works above the mark of the running coroutine, has a body enter the resume of a coroutine,
starts that coroutine, or comes back from one to whoever resumed it; or the run is over outside of
all coroutines. On its way it makes userdata and coroutines, but collects and resumes none.
-/

namespace ScriptBridge.Machine

open Script Bridge

/-- The stack from the mark of the running coroutine on. -/
def outer (stack : List Frame) : List Frame :=
  stack.dropWhile (!·.isMark)

/-- The coroutine that is about to be resumed by the host or one of its bodies. -/
def Control.entered : Control → List Nat
  | .resume _ _ .wrapper => []
  | .resume thread _ _ => [thread]
  | _ => []

/-- Coroutines may be new, and none of the others has changed. -/
def World.Extends (w w' : World) : Prop :=
  ∃ fresh : List Value, w'.threads.toList = w.threads.toList ++ fresh.map .fresh

/-- Proxies and coroutines may be new, and no coroutine was resumed. -/
structure World.Grows (w w' : World) : Prop where
  makes : ∃ made, w.heap.Makes made w'.heap
  active : w'.active = w.active
  threads : w.Extends w'

/-- A function that only waits to return does so without passing the mark, and the mark awaits
values. -/
structure Tidy (m : Machine) : Prop where
  returning : ∀ stack, dropReturning m.stack = some stack → outer stack = outer m.stack
  awaited : m.control.endsBlock = true → ∀ f stack, m.stack = f :: stack → f.isMark = false

/-- The second machine comes out of a step of the first one above the mark of the running coroutine,
and is not about to resume another one, unless it is a script that does so. -/
structure Works (m m' : Machine) : Prop where
  grows : m.world.Grows m'.world
  outer : Tidy m → Machine.outer m'.stack = Machine.outer m.stack
  entered : m'.control.entered = []

/-- What a step does to coroutines. -/
inductive Effect (m : Machine) : Machine.Progress → Prop
  | works {m' : Machine} (works : Works m m') : Effect m (.running m')
  | enters {thread : Nat} {inv : Invocation} {store : Store}
      (resumable : m.world.checkResumable thread = .ok ()) (entered : m.control.entered = []) :
      Effect m (.running { m with
        world := { m.world with store, active := thread :: m.world.active }
        control := .resume thread [] (.body inv) })
  | starts {thread : Nat} {args : List Value} {by_ : Resumer}
      (control : m.control = .resume thread args by_) :
      Effect m (.running (resume m thread args by_))
  | ends {thread : Nat} {by_ : Resumer} {r : Resumption} {above : List Frame} {m' : Machine}
      (departs : Departs m thread by_ r above m') : Effect m (report m' thread by_ r.handed)
  | halts {o : Outcome} (unmarked : ∀ f ∈ m.stack, f.isMark = false)
      (entered : m.control.entered = []) : Effect m (.halted o m.world)

section Worlds

variable {w w' w'' : World}

namespace World.Grows

lemma of_heap {heap : Heap} {made : Ledger} (makes : w.heap.Makes made heap) :
    w.Grows { w with heap } :=
  ⟨⟨made, makes⟩, rfl, [], (List.append_nil _).symm⟩

lemma refl (w : World) : w.Grows w :=
  of_heap (.refl w.heap)

lemma trans (first : w.Grows w') (second : w'.Grows w'') : w.Grows w'' := by
  obtain ⟨⟨made, makes⟩, active, fresh, threads⟩ := first
  obtain ⟨⟨made', makes'⟩, active', fresh', threads'⟩ := second
  refine ⟨⟨_, makes.trans makes'⟩, active'.trans active, fresh ++ fresh', ?_⟩
  rw [threads', threads, List.append_assoc, List.map_append]

lemma newThread (w : World) (f : Value) : w.Grows (w.newThread f).2 :=
  ⟨⟨[], .refl w.heap⟩, rfl, [f], Array.toList_push⟩

/-- Heap, coroutines and the list of those resumed are all that counts. -/
lemma of_eq (heap : w'.heap = w.heap) (active : w'.active = w.active)
    (threads : w'.threads = w.threads) : w.Grows w' :=
  ⟨⟨[], .quiet (by rw [heap]) (by rw [heap])⟩, active, [], by rw [threads]; simp⟩

end World.Grows

lemma World.Alters.grows (alters : w.Alters w') : w.Grows w' := by
  cases alters with
  | memory userdata handles => exact .of_heap (.quiet userdata handles)
  | pushes v =>
    obtain ⟨made, makes, -⟩ := push_pins w.heap v
    exact .of_heap makes
  | pushesMany vs =>
    obtain ⟨made, makes, -⟩ := pushMany_pins w.options.maxTransferValues w.heap vs
    exact .of_heap makes
  | fails e => exact .of_heap (.other w.heap rfl)
  | makesThread f => exact .newThread w f
  | _ => exact .of_eq rfl rfl rfl

lemma World.Becomes.grows (becomes : w.Becomes w') : w.Grows w' := by
  induction becomes with
  | refl => exact .refl w
  | tail _ alters ih => exact ih.trans alters.grows

lemma planRead_bound {r : Registry} {target : Target} {name : String} {u : Userdata}
    (planned : planRead r target name = .ok (.bound u)) : u.handle? = none := by
  unfold planRead at planned
  obtain ⟨member, -, planned⟩ := bind_eq_ok.1 planned
  cases member with
  | event e =>
    cases planned
    rfl
  | methods group overloads =>
    cases planned
    rfl
  | property p =>
    dsimp only at planned
    split at planned
    · cases planned
      rfl
    · split at planned <;> cases planned
  | field f => cases planned
  | nested t => cases planned

end Worlds

section Stacks

lemma outer_append {above : List Frame} (inside : ∀ f ∈ above, f.isMark = false)
    (rest : List Frame) : outer (above ++ rest) = outer rest :=
  List.dropWhile_append_of_pos fun f mem => by rw [inside f mem]; rfl

lemma outer_cons {f : Frame} (inside : f.isMark = false) (rest : List Frame) :
    outer (f :: rest) = outer rest :=
  List.dropWhile_cons_of_pos (by rw [inside]; rfl)

end Stacks

variable {m m₀ m' : Machine} {mode : Mode}

/-- The frame that is given the result of the work at hand is no mark. -/
lemma Awaited.outer (awaited : Awaited m mode m₀) (tidy : Tidy m) :
    Machine.outer m₀.stack = Machine.outer m.stack := by
  cases awaited with
  | here fits => rfl
  | @popped f rest stack fits inside =>
    have unmarked : f.isMark = false := by
      rcases inside with ends | ⟨-, inside⟩
      · exact tidy.awaited ends f rest stack
      · exact inside
    rw [stack, outer_cons unmarked]

lemma Control.IsOrdinary.entered {c : Control} (ordinary : c.IsOrdinary mode) : c.entered = [] := by
  cases c with
  | resume thread args by_ =>
    cases by_ with
    | wrapper => rfl
    | _ => cases ordinary
  | _ => rfl

lemma Ordinary.outer (ordinary : Ordinary mode m₀ m') :
    Machine.outer m'.stack = Machine.outer m₀.stack := by
  obtain ⟨mode', fs, stack, leads, inside, -⟩ := ordinary.work
  rw [stack, outer_append inside]

lemma Ordinary.entered (ordinary : Ordinary mode m₀ m') : m'.control.entered = [] := by
  obtain ⟨mode', fs, -, -, -, ordinary⟩ := ordinary.work
  exact ordinary.entered

/-- Whoever comes to a halt is not about to resume another coroutine. -/
lemma Resumption.EndsAt.entered {r : Resumption} {c : Control} (ends : r.EndsAt c) :
    c.entered = [] := by
  cases r <;> obtain rfl : c = _ := ends <;> rfl

/-- Every step of any machine has one of the effects. -/
theorem step_effect (m : Machine) : Effect m (step m) := by
  have deed := step_deed m
  generalize step m = p at deed
  cases deed with
  | works awaited ordinary =>
    refine .works ⟨?_, fun tidy => ?_, ordinary.entered⟩
    · exact awaited.world ▸ ordinary.world.grows
    · exact ordinary.outer.trans (awaited.outer tidy)
  | asks awaited midway heap gives asked =>
    refine .works ⟨?_, fun tidy => ?_, rfl⟩
    · exact awaited.world ▸ midway.world.grows
    · exact (congrArg Machine.outer midway.stack).trans (awaited.outer tidy)
  | binds awaited midway heap planned =>
    refine .works ⟨?_, fun tidy => ?_, rfl⟩
    · exact midway.world.grows.trans (.of_heap (.other _ (planRead_bound planned)))
    · exact congrArg Machine.outer midway.stack
  | @accesses target name accessor finish m' control ordinary =>
    have store : m.world.Grows
        (m.withStore (runAccessor m.heap m.world.store target.object? accessor).2).world :=
      .of_eq rfl rfl rfl
    exact .works ⟨store.trans ordinary.world.grows, fun _ => ordinary.outer, ordinary.entered⟩
  | fails control stack below world =>
    refine .works ⟨world.grows, fun tidy => ?_, ?_⟩
    · have unmarked := tidy.awaited (by rw [control]; rfl) _ _ stack
      rw [stack, outer_cons unmarked]
    · exact (congrArg Control.entered control :)
  | replaces awaited dropped world control =>
    refine .works ⟨world.grows, fun tidy => tidy.returning _ dropped, ?_⟩
    rw [control]
    rfl
  | catches control stack clear here mark ordinary =>
    refine .works ⟨.refl m.world, fun _ => ?_, ordinary.entered⟩
    have inside := fun g mem => isMark_of_not_catches (clear g mem)
    rw [stack, outer_append inside, outer_cons mark]
  | enters control awaited world resumable =>
    exact .enters resumable (by rw [control]; rfl)
  | starts control => exact .starts control
  | departs departs => exact .ends departs
  | halts empty ends =>
    refine .halts (fun f mem => by simp [empty] at mem) ?_
    cases control : m.control with
    | resume thread args by_ =>
      rw [control] at ends
      rcases ends with ends | ⟨vs, ends⟩ <;> cases ends
    | _ => rfl
  | escapes control clear =>
    exact .halts (fun f mem => isMark_of_not_catches (clear f mem)) (by rw [control]; rfl)

end ScriptBridge.Machine
