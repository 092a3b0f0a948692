import Mathlib.Tactic.Lemma
import ScriptBridge.Proofs.Step
import ScriptBridge.Session.Basic

/-!
# Reached worlds and visited machines

A world is reached from a new session by whatever the host does between runs and by runs that the
host starts, to their end or up to the last step allowed. A machine is visited when it occurs in
such a run. Reached worlds are sound, so host code that a visited machine is about to run was
planned.
-/

namespace ScriptBridge.Session

open Script Bridge Machine

/-- What the host does to a world between runs. -/
inductive Acts (w : World) : World → Prop
  /-- Values are moved in and out, tables filled, functions made, userdata collected. -/
  | heap {heap : Heap} (kept : w.heap.NoNewBinding heap) : Acts w { w with heap }
  | store (store : Store) : Acts w { w with store }
  | thread (f : Value) : Acts w (w.newThread f).2
  | active (active : List Nat) : Acts w { w with active }
  | remember (t : HostType) : Acts w (w.remember t)
  | settings (coroutines : Named Nat) (environment : List (String × String))
      (hook : Option Hook) : Acts w { w with coroutines, environment, hook }
  | close {t closed : HostType} {args : List HostType} {registry : Registry}
      (ok : w.registry.close t args = .ok (closed, registry)) : Acts w { w with registry }
  /-- A static method group is bound to its type. -/
  | register {t : HostType} {method : String} {overloads : List (Declared Method)}
      (found : (w.registry.metadata t).statics.methodGroup? method = some overloads) :
      Acts w { w with heap := (w.heap.newUserdata (.methods (.type t) method overloads)).2 }

/-- How the host starts a run. -/
inductive Opens (w : World) : Control → Prop
  | call (f : Value) (args : List Value) : Opens w (.call f args)
  | index (object key : Value) (budget : Nat) : Opens w (.index object key budget)
  | store (object key v : Value) (budget : Nat) : Opens w (.store object key v budget)
  | write {target : Target} {name : String} {v : HostValue} {code : HostCode}
      (planned : planWrite w.coercer w.registry target name v = .ok code) :
      Opens w (.host code .nothing)
  | resume (thread : Nat) (args : List Value) : Opens w (.resume thread args .session)

/-- The second machine is the first one some steps later. -/
inductive Runs (m : Machine) : Machine → Prop
  | here : Runs m m
  | step {m' m'' : Machine} (h : Runs m m') (stepped : step m' = .running m'') : Runs m m''

/-- The worlds that a session gets into. -/
inductive Reached : World → Prop
  | create (options : Options) (registered types : List HostType) (nextIdentity : Nat)
      (closer : Closer) (engine : Engine) :
      Reached (create options (.build registered nextIdentity closer) types engine)
  | act {w w' : World} (h : Reached w) (acts : Acts w w') : Reached w'
  | halted {w w' : World} {c : Control} {m : Machine} {o : Outcome} (h : Reached w)
      (opens : Opens w c) (runs : Runs { world := w, control := c } m)
      (halts : step m = .halted o w') : Reached w'
  | stopped {w : World} {c : Control} {m : Machine} (h : Reached w) (opens : Opens w c)
      (runs : Runs { world := w, control := c } m) : Reached m.world

/-- The machines that occur in the runs of a session. -/
def Visited (m : Machine) : Prop :=
  ∃ w c, Reached w ∧ Opens w c ∧ Runs { world := w, control := c } m

/-- The machine works above a floor that bears no method body, or is about to resume a coroutine
for the host. -/
inductive Settled (m : Machine) : Prop
  | working {base : List Frame} (floor : Floor base .values) (within : Within base .values m)
  | resuming {thread : Nat} {args : List Value} (sound : m.world.Sound) (stack : m.stack = [])
      (control : m.control = .resume thread args .session)

section Soundness

variable {w w' : World} {m m' : Machine}

lemma not_done {base : List Frame} (within : Within base .values m) : ¬ Done base m := by
  rintro ⟨same, finished⟩
  obtain ⟨mode, ⟨-, fs, stack, leads⟩, fits⟩ := within
  have nothing : fs = [] := by
    rw [same] at stack
    exact List.append_left_eq_self.1 stack.symm
  rw [nothing] at leads
  cases leads
  cases control : m.control with
  | finished v inv =>
    rw [control] at fits
    cases fits
  | failed failure =>
    rw [control] at fits
    cases fits
  | _ =>
    rw [control] at finished
    exact finished

lemma resume_session (sound : m.world.Sound) (stack : m.stack = []) (thread : Nat)
    (args : List Value) : Settled (Machine.resume m thread args .session) := by
  have refused (text : String) : Settled (raisePlaced m (.ofString text)) :=
    .working .empty (raisePlaced_within ⟨sound, [], stack, rfl⟩ values_isBody _)
  have started : (m.world.setThread thread .active).Sound :=
    sound.setThread thread fun _ _ eq => by cases eq
  unfold Machine.resume
  dsimp only
  split
  · refine .working (.session thread m.depth m.thread) ⟨.values, ⟨started, [], ?_, rfl⟩, rfl⟩
    rw [stack]
    rfl
  · rename_i above depth found
    have leads := sound.threads thread above depth found
    refine .working (.session thread m.depth m.thread) ⟨.values, ⟨started, above, ?_, leads⟩, rfl⟩
    rw [stack]
  · exact refused _
  · exact refused _
  · exact refused _

lemma Settled.stays (h : Settled m) :
    (∀ m', step m = .running m' → Settled m') ∧ ∀ o w, step m = .halted o w → w.Sound := by
  cases h with
  | working floor within =>
    have stays := step_within floor within (not_done within)
    refine ⟨fun m' eq => ?_, fun o w eq => ?_⟩
    · rw [eq] at stays
      exact .working floor stays
    · rw [eq] at stays
      exact stays.2
  | @resuming thread args sound stack control =>
    have eq' : step m = .running (Machine.resume m thread args .session) := by
      unfold step
      rw [control]
    refine ⟨fun m' eq => ?_, fun o w eq => ?_⟩
    · rw [eq'] at eq
      cases eq
      exact resume_session sound stack thread args
    · rw [eq'] at eq
      cases eq

lemma Settled.world (h : Settled m) : m.world.Sound := by
  cases h with
  | working floor within =>
    obtain ⟨mode, h, -⟩ := within
    exact h.world
  | resuming sound stack control => exact sound

lemma Opens.settled {c : Control} (opens : Opens w c) (sound : w.Sound) :
    Settled { world := w, control := c } := by
  have work {c : Control} (fits : c.Fits w .values) : Settled { world := w, control := c } :=
    .working .empty ⟨.values, ⟨sound, [], rfl, rfl⟩, fits⟩
  cases opens with
  | call f args => exact work rfl
  | index object key budget => exact work rfl
  | store object key v budget => exact work rfl
  | write planned => exact work ⟨rfl, .operation (.write _ _ _), .operation trivial planned⟩
  | resume thread args => exact .resuming sound rfl rfl

/-- What holds of the machine at first holds after any number of steps. -/
lemma Runs.settled (runs : Runs m m') (h : Settled m) : Settled m' := by
  induction runs with
  | here => exact h
  | step _ stepped ih => exact ih.stays.1 _ stepped

lemma Acts.sound (acts : Acts w w') (sound : w.Sound) : w'.Sound := by
  cases acts with
  | heap kept => exact sound.withHeap (sound.heap.of_noNewBinding kept)
  | store store => exact ⟨sound.registry, sound.heap, sound.threads⟩
  | thread f => exact World.Alters.sound (.makesThread f) sound
  | active active => exact sound.withActive active
  | settings coroutines environment hook => exact ⟨sound.registry, sound.heap, sound.threads⟩
  | remember t => exact World.Alters.sound (.remembers t) sound
  | close ok => exact World.Alters.sound (.closes ok) sound
  | register found => exact sound.withHeap (sound.heap.newUserdata found)

lemma build_sound (registered : List HostType) (nextIdentity : Nat) :
    (Registry.build registered nextIdentity closer).Sound := by
  intro name m mem
  obtain ⟨t, -, mem⟩ := List.mem_flatMap.1 mem
  obtain ⟨m', -, eq⟩ := List.mem_filterMap.1 mem
  obtain ⟨name', extended, eq⟩ := Option.map_eq_some_iff.1 eq
  cases eq
  exact extended

lemma openLibrary_sound (sound : w.Sound) (library : String × List (String × Builtin)) :
    (openLibrary w library).Sound :=
  ⟨sound.registry, sound.heap.of_noNewBinding (.of_eq rfl), sound.threads⟩

/-- A new session has the base functions, and then the libraries one by one. -/
lemma create_induction {P : World → Prop} (options : Options) (registry : Registry)
    (types : List HostType) (engine : Engine)
    (bare : P
      { options, engine, registry,
        heap := (Heap.newTable { border := engine.border } (functionTable baseFunctions)).2,
        store := .ofTypes types, globals := 0 })
    (opened : ∀ w library, P w → P (openLibrary w library)) :
    P (create options registry types engine) := by
  unfold create
  dsimp only
  split
  · exact List.foldlRecOn libraries openLibrary bare fun w h library _ => opened w library h
  · exact bare

lemma create_sound (options : Options) {registry : Registry} (sound : registry.Sound)
    (types : List HostType) (engine : Engine) : (create options registry types engine).Sound := by
  apply create_induction
  · refine ⟨sound, fun u mem => ?_, fun id stack depth waits => ?_⟩
    · cases Array.not_mem_empty u mem
    · cases waits
  · exact fun w library sound => openLibrary_sound sound library

/-- In a world that a session gets into, everything bound is offered by its target. -/
theorem Reached.sound (h : Reached w) : w.Sound := by
  induction h with
  | create options registered types nextIdentity closer engine =>
    exact create_sound options (build_sound registered nextIdentity) types engine
  | act _ acts ih => exact acts.sound ih
  | halted _ opens runs halts ih => exact (runs.settled (opens.settled ih)).stays.2 _ _ halts
  | stopped _ opens runs ih => exact (runs.settled (opens.settled ih)).world

theorem Visited.settled (h : Visited m) : Settled m := by
  obtain ⟨w, c, reached, opens, runs⟩ := h
  exact runs.settled (opens.settled reached.sound)

lemma Visited.registry (h : Visited m) : m.world.registry.Sound :=
  h.settled.world.registry

/-- Host code that is about to run was planned. -/
theorem Visited.planned (h : Visited m) {code : HostCode} {finish : Finish}
    (control : m.control = .host code finish) : Planned m.world code := by
  cases h.settled with
  | working floor within =>
    obtain ⟨mode, -, fits⟩ := within
    rw [control] at fits
    exact fits.2
  | resuming sound stack resuming =>
    rw [control] at resuming
    cases resuming

/-- A script reads what is bound to an object or a type that it holds. -/
lemma step_reading (m : Machine) {id budget : Nat} {target : Target} {name : String} {u : Userdata}
    (control : m.control = .index (.userdata id) (.ofString name) (budget + 1))
    (held : m.heap.target? (m.heap.userdatum id) = some target)
    (planned : planRead (m.world.registry.remember target.cls) target name = .ok (.bound u)) :
    step m = .running (giveUserdata (m.remember target.cls) u) := by
  have read : readMember m target (.ofString name) = giveUserdata (m.remember target.cls) u := by
    unfold readMember
    rw [memberName?_ofString]
    dsimp only
    rw [show (m.remember target.cls).world.registry = m.world.registry.remember target.cls from rfl,
      planned]
    rfl
  rw [← read]
  unfold step
  rw [control]
  show Progress.running (indexUserdata m id (.ofString name)) = _
  unfold indexUserdata
  dsimp only
  cases datum : m.heap.userdatum id with
  | object _ | type _ =>
    rw [datum] at held
    dsimp only [proxyMethod?]
    rw [held]
  | _ =>
    rw [datum] at held
    cases held

/-- What is bound to an object or a type can be had. -/
lemma Reached.bound (h : Reached w) {id : Nat} {target : Target} {name : String} {u : Userdata}
    (held : w.heap.target? (w.heap.userdatum id) = some target)
    (planned : planRead (w.registry.remember target.cls) target name = .ok (.bound u)) :
    Reached { w.remember target.cls with heap := (w.heap.newUserdata u).2 } :=
  .stopped h (.index (.userdata id) (.ofString name) 1)
    (Runs.here.step (step_reading _ rfl held planned))

end Soundness

section Bench

/-- A session without registered types. -/
def bench : World :=
  create {} (.build [] 0) []

lemma reached_bench : Reached bench :=
  .create {} [] [] 0 .blank .standard

lemma bench_extensionsFor : bench.registry.extensionsFor = fun _ => [] := by
  funext name
  show extensionsAmong ((Registry.catalog []).types.flatMap Registry.extensionsOf) name = []
  rw [Registry.catalog, Registry.visit]
  rfl

/-- A field of integers. -/
def reading : Field where
  name := "reading"
  kind := .int .i64
  isStatic := false
  isConstant := false
  hidden := false
  source := .accessor .plain
  set := some .plain

/-- An addition that is not for scripts. -/
def hiddenSum : Method where
  name := "+"
  params := [⟨"left", .object "demo.Meter", .input, none⟩, ⟨"right", .any, .input, none⟩]
  returns := some .any
  isStatic := true
  hidden := true
  isExtension := false
  typeParams := 0
  label := "sum"
  body := .give (.slot 0)

def meter : HostType where
  identity := 100
  name := "Meter"
  ns := some "demo"
  primitive := none
  members := { fields := [reading], operators := [(.add, hiddenSum)] }
  typeParams := none
  home := "demo.Meter"
  base := none
  nested := []
  typeArgs := []

def device : HostObject :=
  ⟨1, meter⟩

/-- What assigning the field of the instance comes to. -/
def writeReading : HostCode :=
  .access (.object device) "reading" (.setField ⟨meter, 0, reading⟩ (.int 3))

lemma planWrite_reading :
    planWrite bench.coercer bench.registry (.object device) "reading" (.int 3)
      = .ok writeReading := by
  unfold planWrite findMember
  rw [Registry.metadata_eq, bench_extensionsFor]
  rfl

/-- The host assigns the field. -/
def writingReading : Machine where
  world := bench
  control := .host writeReading .nothing

lemma visited_writingReading : Visited writingReading :=
  ⟨bench, _, reached_bench, .write planWrite_reading, .here⟩

end Bench

end ScriptBridge.Session
