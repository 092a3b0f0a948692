import ScriptBridge.Proofs.Leftover
import ScriptBridge.Proofs.Request
import ScriptBridge.Proofs.Session

/-!
# What accessors are given

A setter is given what the assigned value is coerced to, and an indexed accessor is given one index
for each index parameter, coerced from the argument in its place. This holds of every accessor that
runs, and the value and the arguments are those of the assignment, access or call that asked for it.
-/

namespace ScriptBridge.Machine

open Script Bridge

/-- One index for each index parameter, in order: the argument in its place, coerced to the kind of
the parameter. -/
structure Indexes (c : Coercer) (p : Property) (args index : List HostValue) : Prop where
  given : args.length = p.indexParams.length
  taken : index.length = p.indexParams.length
  coerced : List.Forall₂ (fun (place : Param × HostValue) i => c place.2 place.1.kind = .ok i)
    (p.indexParams.zip args) index

/-- An accessor is given what the route to it asks for, coerced to the declared kinds. -/
inductive Kinded (c : Coercer) : Route → Accessor → Prop
  | getField {target : Target} {name : String} (f : Declared Field) :
      Kinded c (.read target name) (.getField f)
  | setField {target : Target} {name : String} {v value : HostValue} {f : Declared Field}
      (setter : f.item.set.isSome = true) (notConstant : f.item.isConstant = false)
      (coerced : c v f.item.kind = .ok value) :
      Kinded c (.operation (.write target name v)) (.setField f value)
  | getPlain {target : Target} {name : String} {p : Declared Property} {get : Access}
      (getter : p.item.get = some get) (plain : p.item.isIndexed = false) :
      Kinded c (.read target name) (.getProperty p get [])
  | setPlain {target : Target} {name : String} {v value : HostValue} {p : Declared Property}
      {set : Access} (setter : p.item.set = some set) (plain : p.item.isIndexed = false)
      (coerced : c v p.item.kind = .ok value) :
      Kinded c (.operation (.write target name v)) (.setProperty p set [] value)
  | getIndexed {target : Target} {p : Declared Property} {args index : List HostValue}
      {get : Access} (getter : p.item.get = some get) (indexed : p.item.isIndexed = true)
      (indexes : Indexes c p.item args index) :
      Kinded c (.operation (.indexGet target p args)) (.getProperty p get index)
  | setIndexed {target : Target} {p : Declared Property} {args index : List HostValue}
      {v value : HostValue} {set : Access} (setter : p.item.set = some set)
      (indexed : p.item.isIndexed = true) (indexes : Indexes c p.item args index)
      (coerced : c v p.item.kind = .ok value) :
      Kinded c (.operation (.indexSet target p args v)) (.setProperty p set index value)
  | subscribe (target : Target) (e : Declared Event) (handler : Routine) :
      Kinded c (.subscribe target e handler) (.subscribe e handler)
  | unsubscribe (target : Target) (e : Declared Event) (handler : Routine) :
      Kinded c (.unsubscribe target e handler) (.unsubscribe e handler)

/-- A route through an indexer goes to a property with index parameters. -/
def Route.IsIndexed : Route → Prop
  | .operation (.indexGet _ p _) | .operation (.indexSet _ p _ _) => p.item.isIndexed = true
  | _ => True

section Plans

variable {c : Coercer} {r : Registry} {target target' : Target} {name name' : String}
  {p : Declared Property} {args : List HostValue} {v : HostValue} {accessor : Accessor}

lemma coerceIndex_eq_ok {p : Property} {index : List HostValue}
    (coerced : coerceIndex c target p args = .ok index) : Indexes c p args index := by
  unfold coerceIndex at coerced
  split at coerced
  · cases coerced
  · rename_i counted
    have given : args.length = p.indexParams.length := by simpa using counted
    have each := mapM_eq_ok.1 coerced
    refine ⟨given, ?_, each⟩
    rw [← each.length_eq, List.length_zip, given, Nat.min_self]

lemma kinded_of_planRead
    (planned : planRead r target name = .ok (.run (.access target' name' accessor))) :
    Kinded c (.read target name) accessor := by
  obtain ⟨member, -, planned⟩ := bind_eq_ok.1 planned
  cases member with
  | field f =>
    cases planned
    exact .getField f
  | property p =>
    dsimp only at planned
    split at planned
    · cases planned
    · rename_i plain
      split at planned
      · rename_i get getter
        cases planned
        exact .getPlain getter (Bool.eq_false_iff.2 plain)
      · cases planned
  | _ => cases planned

lemma kinded_of_planWrite
    (planned : planWrite c r target name v = .ok (.access target' name' accessor)) :
    Kinded c (.operation (.write target name v)) accessor := by
  obtain ⟨member, -, planned⟩ := bind_eq_ok.1 planned
  cases member with
  | field f =>
    dsimp only at planned
    split at planned
    · rename_i setter notConstant
      obtain ⟨value, coerced, planned⟩ := bind_eq_ok.1 planned
      cases planned
      exact .setField (by rw [setter]; rfl) notConstant coerced
    · cases planned
  | property p =>
    dsimp only at planned
    split at planned
    · cases planned
    · rename_i plain
      split at planned
      · rename_i set setter
        obtain ⟨value, coerced, planned⟩ := bind_eq_ok.1 planned
        cases planned
        exact .setPlain setter (Bool.eq_false_iff.2 plain) coerced
      · cases planned
  | _ => cases planned

lemma kinded_of_planIndexGet (indexed : p.item.isIndexed = true)
    (planned : planIndexGet c target p args = .ok (.access target' name' accessor)) :
    Kinded c (.operation (.indexGet target p args)) accessor := by
  unfold planIndexGet at planned
  split at planned
  · cases planned
  · rename_i get getter
    obtain ⟨index, coerced, planned⟩ := bind_eq_ok.1 planned
    cases planned
    exact .getIndexed getter indexed (coerceIndex_eq_ok coerced)

lemma kinded_of_planIndexSet (indexed : p.item.isIndexed = true)
    (planned : planIndexSet c target p args v = .ok (.access target' name' accessor)) :
    Kinded c (.operation (.indexSet target p args v)) accessor := by
  unfold planIndexSet at planned
  split at planned
  · cases planned
  · rename_i set setter
    obtain ⟨index, coerced, planned⟩ := bind_eq_ok.1 planned
    obtain ⟨value, coerced', planned⟩ := bind_eq_ok.1 planned
    cases planned
    exact .setIndexed setter indexed (coerceIndex_eq_ok coerced) coerced'

/-- Whatever accessor a route leads to is given what the route asks for. -/
theorem Route.Gives.kinded {w : World} {route : Route} (indexed : route.IsIndexed)
    (gives : route.Gives w (.access target name accessor)) : Kinded w.coercer route accessor := by
  cases gives with
  | @operation op _ bound planned =>
    cases op with
    | write target' name' v => exact kinded_of_planWrite planned
    | indexGet target' p args => exact kinded_of_planIndexGet indexed planned
    | indexSet target' p args v => exact kinded_of_planIndexSet indexed planned
    | call target' group overloads args =>
      obtain ⟨inv, -, eq⟩ := map_eq_ok.1 planned
      cases eq
    | construct t args =>
      obtain ⟨inv, -, eq⟩ := map_eq_ok.1 planned
      cases eq
    | operator op operands =>
      obtain ⟨inv, -, eq⟩ := map_eq_ok.1 planned
      cases eq
  | read planned => exact kinded_of_planRead planned
  | subscribe handler bound => exact .subscribe _ _ handler
  | unsubscribe handler bound => exact .unsubscribe _ _ handler

end Plans

section Indexers

variable {h h' : Heap} {m : Machine}

lemma HasIndexed.of_noNewBinding (indexed : HasIndexed h) (kept : h.NoNewBinding h') :
    HasIndexed h' := by
  intro u mem
  rcases kept u mem with old | unbound
  · exact indexed u old
  · cases u with
    | indexer target p => cases unbound
    | _ => trivial

lemma HasIndexed.newUserdata (indexed : HasIndexed h) {u : Userdata}
    (bound : Userdata.IsIndexed u) : HasIndexed (h.newUserdata u).2 := by
  intro u' mem
  rcases Array.mem_push.1 mem with old | rfl
  · exact indexed u' old
  · exact bound

/-- A property without index parameters is never bound. -/
lemma isIndexed_of_planRead {r : Registry} {target : Target} {name : String} {u : Userdata}
    (planned : planRead r target name = .ok (.bound u)) : Userdata.IsIndexed u := by
  obtain ⟨member, -, planned⟩ := bind_eq_ok.1 planned
  cases member with
  | property p =>
    dsimp only at planned
    split at planned
    · rename_i indexed
      cases planned
      exact indexed
    · split at planned <;> cases planned
  | event e =>
    cases planned
    trivial
  | methods group overloads =>
    cases planned
    trivial
  | field f => cases planned
  | nested t => cases planned

lemma Requests.isIndexed {w : World} {control : Control} {route : Route}
    (indexed : HasIndexed w.heap) (asked : Requests w control route) : route.IsIndexed := by
  cases asked with
  | getAt key bound => exact indexed.userdatum bound
  | setAt key v bound => exact indexed.userdatum bound
  | get args bound => exact indexed.userdatum bound
  | set args v bound => exact indexed.userdatum bound
  | _ => trivial

/-- A step binds nothing to a target but what was read of it. -/
lemma step_binds (m : Machine) : m.heap.NoNewBinding (step m).world.heap ∨
    ∃ r target name u, planRead r target name = .ok (.bound u) ∧
      (step m).world.heap = (m.heap.newUserdata u).2 := by
  have deed := step_deed m
  generalize step m = p at deed
  cases deed with
  | works awaited ordinary =>
    have kept := ordinary.world.noNewBinding
    rw [awaited.world] at kept
    exact .inl kept
  | asks awaited midway heap gives asked => exact .inl (.of_eq (congrArg Heap.userdata heap))
  | binds awaited midway heap planned =>
    refine .inr ⟨_, _, _, _, planned, ?_⟩
    rw [← heap]
    rfl
  | accesses control ordinary => exact .inl ordinary.world.noNewBinding
  | fails control stack below world => exact .inl world.noNewBinding
  | replaces awaited dropped world control => exact .inl world.noNewBinding
  | catches => exact .inl (.of_eq rfl)
  | enters => exact .inl (.of_eq rfl)
  | @starts thread args by_ control =>
    exact .inl (.of_eq (congrArg Heap.userdata (resume_heap m thread args by_)))
  | @departs thread by_ r above m' departs =>
    obtain ⟨w, t, becomes, -, world⟩ := departs.world
    refine .inl (becomes.noNewBinding.trans (.of_eq ?_))
    rw [report_heap, Machine.heap, world]
    rfl
  | halts => exact .inl (.of_eq rfl)
  | escapes => exact .inl (.of_eq rfl)

/-- Steps bind indexed properties only. -/
lemma hasIndexed_step (indexed : HasIndexed m.heap) : HasIndexed (step m).world.heap := by
  rcases step_binds m with kept | ⟨r, target, name, u, planned, heap⟩
  · exact indexed.of_noNewBinding kept
  · rw [heap]
    exact indexed.newUserdata (isIndexed_of_planRead planned)

lemma Control.IsOrdinary.not_host {c : Control} {mode : Mode} (ordinary : c.IsOrdinary mode)
    (code : HostCode) (finish : Finish) : c ≠ .host code finish := by
  rintro rfl
  cases ordinary

/-- Host code is set out along a route, and an accessor along one that was asked for. -/
lemma step_requests (sound : m.world.Sound) (indexed : HasIndexed m.heap) {m' : Machine}
    (stepped : step m = .running m') {code : HostCode} {finish : Finish}
    (control : m'.control = .host code finish) : ∃ route : Route, route.Gives m'.world code ∧
      (code.isAccess = true → Requests m.world m.control route) := by
  have never {mode : Mode} {P : Prop} (ordinary : m'.control.IsOrdinary mode) : P :=
    absurd control (ordinary.not_host code finish)
  have deed := step_deed m
  rw [stepped] at deed
  generalize eq : Machine.Progress.running m' = p at deed
  cases deed with
  | works awaited ordinary =>
    cases eq
    obtain ⟨mode, fs, -, -, -, ordinary⟩ := ordinary.work
    exact never ordinary
  | asks awaited midway heap gives asked =>
    cases eq
    cases control
    exact ⟨_, gives sound, asked sound indexed⟩
  | accesses access ordinary =>
    cases eq
    obtain ⟨mode, fs, -, -, -, ordinary⟩ := ordinary.work
    exact never ordinary
  | catches raising stack clear here mark ordinary =>
    cases eq
    exact never ordinary
  | binds | enters =>
    cases eq
    cases control
  | fails failed stack below world =>
    cases eq
    cases failed.symm.trans control
  | replaces awaited dropped world going =>
    cases eq
    cases going.symm.trans control
  | starts resuming =>
    cases eq
    unfold resume at control
    dsimp only at control
    split at control <;> cases control
  | @departs thread by_ r above m'' departs =>
    cases by_ with
    | session => cases eq
    | body inv =>
      cases eq
      cases control
    | wrapper =>
      cases handed : r.handed <;> rw [handed] at eq <;> cases eq <;> cases control
  | halts | escapes => cases eq

end Indexers

end ScriptBridge.Machine

namespace ScriptBridge.Session

open Script Bridge Machine

section Sessions

variable {w w' : World} {m m' : Machine}

lemma Runs.hasIndexed (runs : Runs m m') (indexed : HasIndexed m.heap) : HasIndexed m'.heap := by
  induction runs with
  | here => exact indexed
  | step runs stepped ih =>
    have next := hasIndexed_step ih
    rw [stepped] at next
    exact next

lemma Acts.hasIndexed (acts : Acts w w') (indexed : HasIndexed w.heap) : HasIndexed w'.heap := by
  cases acts with
  | heap kept => exact indexed.of_noNewBinding kept
  | register found => exact indexed.newUserdata trivial
  | _ => exact indexed

theorem Reached.hasIndexed (h : Reached w) : HasIndexed w.heap := by
  induction h with
  | create options registered types nextIdentity closer engine =>
    refine create_induction (P := fun w => HasIndexed w.heap) options _ types engine ?_ ?_
    · intro u mem
      cases Array.not_mem_empty u mem
    · exact fun w library indexed => indexed.of_noNewBinding (.of_eq rfl)
  | act _ acts ih => exact acts.hasIndexed ih
  | halted h opens runs halts ih =>
    have last := hasIndexed_step (runs.hasIndexed ih)
    rw [halts] at last
    exact last
  | stopped h opens runs ih => exact runs.hasIndexed ih

/-- All indexers of a session stand for properties with index parameters. -/
theorem Visited.hasIndexed (h : Visited m) : HasIndexed m.heap := by
  obtain ⟨w, c, reached, opens, runs⟩ := h
  exact runs.hasIndexed reached.hasIndexed

/-- A step that comes to an accessor was asked for it, and the accessor is given what was asked
for. -/
theorem Visited.step_kinded (visited : Visited m) (stepped : step m = .running m')
    {target : Target} {name : String} {accessor : Accessor} {finish : Finish}
    (control : m'.control = .host (.access target name accessor) finish) :
    ∃ route, Requests m.world m.control route ∧
      route.Gives m'.world (.access target name accessor) ∧
      Kinded m'.world.coercer route accessor := by
  obtain ⟨route, gives, asked⟩ :=
    step_requests visited.settled.world visited.hasIndexed stepped control
  have asked := asked rfl
  exact ⟨route, asked, gives, gives.kinded (asked.isIndexed visited.hasIndexed)⟩

lemma access_of_planWrite {target : Target} {name : String} {v : HostValue} {code : HostCode}
    (planned : planWrite w.coercer w.registry target name v = .ok code) :
    ∃ accessor, code = .access target name accessor ∧
      Kinded w.coercer (.operation (.write target name v)) accessor := by
  obtain ⟨accessor, rfl, -⟩ := planWrite_offered planned
  exact ⟨accessor, rfl, kinded_of_planWrite planned⟩

/-- Host code that runs was come to by a step, or the host runs it to assign a member. -/
lemma Visited.step_or_write (visited : Visited m) {code : HostCode} {finish : Finish}
    (control : m.control = .host code finish) :
    (∃ m₀, Visited m₀ ∧ step m₀ = .running m) ∨
      ∃ target name v,
        planWrite m.world.coercer m.world.registry target name v = .ok code := by
  obtain ⟨w, c, reached, opens, runs⟩ := visited
  cases runs with
  | here =>
    cases opens with
    | write planned =>
      cases control
      exact Or.inr ⟨_, _, _, planned⟩
    | _ => cases control
  | @step m₀ _ runs stepped => exact Or.inl ⟨m₀, ⟨w, c, reached, opens, runs⟩, stepped⟩

end Sessions

section Globals

/-- What is planned does not depend on what was looked up before. -/
lemma planWrite_remember (w : World) (t : HostType) (target : Target) (name : String)
    (v : HostValue) : planWrite (w.remember t).coercer (w.remember t).registry target name v
      = planWrite w.coercer w.registry target name v :=
  planWrite_congr (funext fun s => Registry.metadata_remember _ s t) _ target name v

variable {w w' : World} {path : String} {v : HostValue} {id : Nat} {target : Target}

lemma assignMember_refused {name : String} {e : BridgeError}
    (planned : planWrite w.coercer w.registry target name v = .error e) :
    assignMember w target name v = (.error e, w.remember target.cls) := by
  rw [← planWrite_remember] at planned
  unfold assignMember
  dsimp only
  rw [planned]

/-- Through a proxy, what comes after the last dot is a member that the host assigns. -/
lemma setGlobal_proxy
    (opened : openSegments w path (.table w.globals) (parents path) = (.ok (.userdata id), w'))
    (proxy : w'.heap.target? (w'.heap.userdatum id) = some target) :
    setGlobal w path v = assignMember w' target (lastSegment path) v := by
  rw [setGlobal, opened]
  show assignLast w' path (.userdata id) (lastSegment path) v = _
  rw [assignLast, proxy]

lemma assignMember_world {name : String} {code : HostCode}
    (planned : planWrite w.coercer w.registry target name v = .ok code) :
    (assignMember w target name v).2
      = (start (w.remember target.cls) (.host code .nothing)).2 := by
  rw [← planWrite_remember] at planned
  unfold assignMember
  dsimp only
  rw [planned, ← runValues_world]
  dsimp only
  split
  · rename_i eq
    rw [eq]
  · rename_i eq
    rw [eq]

end Globals

/-- However a step has come to an accessor, a script has asked for it, and what the accessor is
given is what was asked for, coerced to the declared kinds: constant fields are never assigned, a
property without index parameters has no index, and one with index parameters has one for each of
them. No accessor runs otherwise, except that the host assigns a member, which it does in the same
way. That is what assigning a global variable through the proxy of an object or type comes to. -/
theorem accessors_kinded :
    (∀ (m : Machine) (target : Target) (name : String) (accessor : Accessor) (finish : Finish),
      Visited m → m.control = .host (.access target name accessor) finish →
        (∀ m₀, Visited m₀ → step m₀ = .running m →
          ∃ route, Requests m₀.world m₀.control route ∧
            route.Gives m.world (.access target name accessor) ∧
            Kinded m.world.coercer route accessor) ∧
        ((∃ m₀, Visited m₀ ∧ step m₀ = .running m) ∨
          ∃ v, planWrite m.world.coercer m.world.registry target name v
              = .ok (.access target name accessor) ∧
            Kinded m.world.coercer (.operation (.write target name v)) accessor)) ∧
    ∀ (w w' : World) (path : String) (v : HostValue) (id : Nat) (target : Target),
      openSegments w path (.table w.globals) (parents path) = (.ok (.userdata id), w') →
      w'.heap.target? (w'.heap.userdatum id) = some target →
        (∃ e, planWrite w'.coercer w'.registry target (lastSegment path) v = .error e ∧
          setGlobal w path v = (.error e, w'.remember target.cls)) ∨
        ∃ accessor, Kinded w'.coercer (.operation (.write target (lastSegment path) v)) accessor ∧
          (setGlobal w path v).2
            = (start (w'.remember target.cls)
                (.host (.access target (lastSegment path) accessor) .nothing)).2 := by
  refine ⟨fun m target name accessor finish visited control => ⟨fun m₀ before stepped => ?_, ?_⟩,
    fun w w' path v id target opened proxy => ?_⟩
  · exact before.step_kinded stepped control
  · refine (visited.step_or_write control).imp_right ?_
    rintro ⟨target', name', v, planned⟩
    obtain ⟨accessor', eq, kinded⟩ := access_of_planWrite planned
    cases eq
    exact ⟨v, planned, kinded⟩
  · rw [setGlobal_proxy opened proxy]
    cases planned : planWrite w'.coercer w'.registry target (lastSegment path) v with
    | error e =>
      exact Or.inl ⟨e, rfl, assignMember_refused planned⟩
    | ok code =>
      obtain ⟨accessor, rfl, kinded⟩ := access_of_planWrite planned
      exact Or.inr ⟨accessor, kinded, assignMember_world planned⟩

section Bench

/-- A property of numbers in rows and columns. -/
def cell : Property where
  name := "cell"
  kind := .int .i64
  isStatic := true
  hidden := false
  indexParams := [⟨"row", .int .i64, .input, none⟩, ⟨"column", .f64, .input, none⟩]
  get := some .plain
  set := some .plain

def sheet : HostType :=
  { meter with
    identity := 103, name := "Sheet", home := "demo.Sheet"
    members := { fields := [{ reading with isStatic := true }], properties := [cell] } }

def sheetCell : Declared Property := ⟨sheet, 0, cell⟩

/-- The class is a global variable. -/
def sheetBench : World :=
  installType bench sheet

lemma installType_registry (w : World) (t : HostType) : (installType w t).registry = w.registry :=
  rfl

lemma sheetBench_bare : sheetBench.registry.extensionsFor = fun _ => [] := by
  rw [sheetBench, installType_registry]
  exact bench_extensionsFor

lemma planRead_cell {r : Registry} (bare : r.extensionsFor = fun _ => []) :
    planRead r (.type sheet) "cell" = .ok (.bound (.indexer (.type sheet) sheetCell)) := by
  unfold planRead findMember
  rw [Registry.metadata_eq, bare]
  rfl

/-- A script has read the property. -/
def cellBench : World :=
  { sheetBench.remember sheet with
    heap := (sheetBench.heap.newUserdata (.indexer (.type sheet) sheetCell)).2 }

lemma reached_sheetBench : Reached sheetBench :=
  reached_bench.installType sheet

lemma reached_cellBench : Reached cellBench := by
  have held : sheetBench.heap.target? (sheetBench.heap.userdatum 0) = some (.type sheet) := by
    rfl
  have bare := (Registry.remember_extensionsFor _ sheet).trans sheetBench_bare
  exact reached_sheetBench.bound held (planRead_cell bare)

/-- The host calls the method of the indexer with a row, a column and a value. -/
def settingCell : Machine where
  world := cellBench
  control := .call (.function (.builtin .indexerSet)) [.userdata 1, .int 2, .int 3, .float 7.0]

/-- The setter is about to run. -/
def setCell : Machine where
  world := cellBench
  control := .host (.access (.type sheet) "cell"
    (.setProperty sheetCell .plain [.int 2, .float 3.0] (.int 7))) .nothing

lemma step_settingCell : step settingCell = .running setCell :=
  rfl

lemma visited_settingCell : Visited settingCell :=
  ⟨cellBench, _, reached_cellBench, .call _ _, .here⟩

lemma visited_setCell : Visited setCell :=
  ⟨cellBench, _, reached_cellBench, .call _ _, Runs.here.step step_settingCell⟩

lemma bare_create (options : Options) (registry : Registry) (types : List HostType)
    (engine : Engine) : (create options registry types engine).heap.Bare := by
  have empty : ({ border := engine.border } : Heap).Bare := fun _ => rfl
  refine create_induction (P := fun w => w.heap.Bare) options registry types engine ?_ ?_
  · exact empty.newTable rfl
  · exact fun w library bare => (bare.newTable rfl).rawSet _ _ _

lemma bare_sheetBench : sheetBench.heap.Bare :=
  (Heap.Bare.keptByPushing.type _ sheet (bare_create _ _ _ _)).rawSet _ _ _

lemma openSegments_sheet :
    openSegments sheetBench "Sheet.reading" (.table sheetBench.globals) (parents "Sheet.reading")
      = (.ok (.userdata 0), sheetBench) := by
  rw [show parents "Sheet.reading" = ["Sheet"] from by decide +kernel]
  rw [openSegments, openSegment_eq bare_sheetBench]
  rfl

lemma planWrite_sheet :
    planWrite sheetBench.coercer sheetBench.registry (.type sheet) "reading" (.float 5.0)
      = .ok (.access (.type sheet) "reading"
          (.setField ⟨sheet, 0, { reading with isStatic := true }⟩ (.int 5))) := by
  unfold planWrite findMember
  rw [Registry.metadata_eq, sheetBench_bare]
  rfl

/-- A call assigns a cell: the column and the value are made the numbers that are declared. The host
assigns a field of the class through a global variable. -/
theorem accessors_kinded_sheet :
    (∃ route, Requests cellBench settingCell.control route ∧ Kinded cellBench.coercer route
      (.setProperty sheetCell .plain [.int 2, .float 3.0] (.int 7))) ∧
    ∃ accessor, Kinded sheetBench.coercer (.operation (.write (.type sheet) "reading" (.float 5.0)))
        accessor ∧
      (setGlobal sheetBench "Sheet.reading" (.float 5.0)).2
        = (start (sheetBench.remember sheet)
            (.host (.access (.type sheet) "reading" accessor) .nothing)).2 := by
  obtain ⟨runs, assigned⟩ := accessors_kinded
  constructor
  · obtain ⟨asked, -⟩ := runs setCell _ _ _ _ visited_setCell rfl
    obtain ⟨route, asked, -, kinded⟩ := asked settingCell visited_settingCell step_settingCell
    exact ⟨route, asked, kinded⟩
  · have last : lastSegment "Sheet.reading" = "reading" := by decide +kernel
    rcases assigned sheetBench sheetBench "Sheet.reading" (.float 5.0) 0 (.type sheet)
      openSegments_sheet rfl with ⟨e, refused, -⟩ | ⟨accessor, kinded, world⟩
    · rw [last, planWrite_sheet] at refused
      cases refused
    · rw [last] at kinded world
      exact ⟨accessor, kinded, world⟩

end Bench

end ScriptBridge.Session
