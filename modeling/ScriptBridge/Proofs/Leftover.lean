import ScriptBridge.Proofs.Globals

/-!
# Failed assignments

An assignment that fails leaves the tables that were there as they were, with one exception: where
the value is refused after a table was made for a missing one, the new table stays. A path may lead
through objects and types too; accessing their members makes new tables at most.
-/

namespace ScriptBridge.Script.Heap

open Bridge

/-- The tables that were there are as they were. -/
def SameTables (h h' : Heap) : Prop :=
  ∀ id < h.tables.size, h'.table id = h.table id

/-- The tables that were there are as they were, none has a metatable, and names lead from new
tables to new tables only. -/
structure Spares (h h' : Heap) : Prop where
  same : h.SameTables h'
  grown : h.tables.size ≤ h'.tables.size
  bare : h'.Bare
  new : ∀ s : Slot, h.tables.size ≤ s.table →
    h'.slot s = .nil ∨ ∃ id, h'.slot s = .table id ∧ h.tables.size ≤ id

namespace Spares

variable {h h' : Heap}

lemma refl (bare : h.Bare) : h.Spares h where
  same _ _ := rfl
  grown := Nat.le_refl _
  bare := bare
  new s beyond := by
    have empty : h.table s.table = {} := table_of_size_le h beyond
    exact Or.inl (slot_of_empty empty s.name)

lemma newTable (spares : h.Spares h') {t : Table} (plain : t.metatable = none)
    (unnamed : ∀ name, t.get (.ofString name) = .nil) : h.Spares (h'.newTable t).2 where
  same id bound := by
    rw [table_newTable, if_neg (Nat.ne_of_lt (Nat.lt_of_lt_of_le bound spares.grown))]
    exact spares.same id bound
  grown := by
    show h.tables.size ≤ (h'.tables.push t).size
    rw [Array.size_push]
    exact Nat.le_succ_of_le spares.grown
  bare := spares.bare.newTable plain
  new s beyond := by
    unfold Heap.slot rawGet
    rw [table_newTable]
    split
    · exact Or.inl (unnamed s.name)
    · exact spares.new s beyond

lemma keptByPushing (h : Heap) : KeptByPushing h.Spares where
  table _ vs spares := spares.newTable rfl (Table.get_ofList_ofString vs)
  object _ _ spares := ⟨spares.same, spares.grown, spares.bare, spares.new⟩
  type _ _ spares := ⟨spares.same, spares.grown, spares.bare, spares.new⟩

/-- A new table may be stored in a new one. -/
lemma linked (spares : h.Spares h') {s : Slot} (beyond : h.tables.size ≤ s.table) :
    h.Spares (h'.linked s) := by
  have made := spares.newTable (t := {}) rfl fun _ => rfl
  refine ⟨fun id bound => ?_, ?_, made.bare.rawSet _ _ _, fun s' beyond' => ?_⟩
  · unfold Heap.linked rawSet
    rw [table_setTable_of_ne _ _ (by omega)]
    exact made.same id bound
  · rw [linked_size]
    exact Nat.le_succ_of_le spares.grown
  · rcases rawSet_cases (h'.newTable {}).2 s.table s'.table (.ofString s.name) (.ofString s'.name)
      (.table h'.tables.size) with stored | kept
    · exact Or.inr ⟨_, stored, spares.grown⟩
    · unfold Heap.slot Heap.linked
      rw [kept]
      exact made.new s' beyond'

/-- A table made for an empty slot is all that changes. -/
lemma linked_old (spares : h.Spares h') {s : Slot} (bound : s.table < h.tables.size) :
    (h.rawSet s.table (.ofString s.name) (.table h'.tables.size)).Spares (h'.linked s) := by
  have made := spares.newTable (t := {}) rfl fun _ => rfl
  have inside : s.table < h'.tables.size := Nat.lt_of_lt_of_le bound spares.grown
  refine ⟨fun id old => ?_, ?_, made.bare.rawSet _ _ _, fun s' beyond => ?_⟩
  · rw [rawSet_size] at old
    rw [table_linked inside, rawSet, table_setTable h _ bound]
    split
    · rename_i here
      rw [here, spares.same _ bound]
    · rw [if_neg (by have := spares.grown; omega)]
      exact spares.same id old
  · rw [rawSet_size, linked_size]
    exact Nat.le_succ_of_le spares.grown
  · rw [rawSet_size] at beyond ⊢
    unfold Heap.slot rawGet
    rw [table_linked inside, if_neg (by omega)]
    split
    · exact Or.inl rfl
    · exact spares.new s' beyond

end Spares

end ScriptBridge.Script.Heap

namespace ScriptBridge.Machine

open Script Bridge Session

/-- What is done for the host to read or assign a member. -/
def Control.accesses (w : World) : Control → Prop
  | .index (.userdata id) _ budget => isTarget w id = true ∧ budget ≠ 0
  | .host (.access ..) .value | .host (.access ..) .nothing | .values _ | .raising _ => True
  | _ => False

/-- The machine reads or assigns a member, and has spared the tables so far. -/
structure Accessing (h : Heap) (m : Machine) : Prop where
  stack : m.stack = []
  spares : h.Spares m.heap
  control : m.control.accesses m.world

namespace Accessing

variable {h : Heap} {m : Machine}

lemma remember (accessing : Accessing h m) (t : HostType) : Accessing h (m.remember t) := by
  obtain ⟨stack, spares, control⟩ := accessing
  refine ⟨stack, spares, ?_⟩
  unfold Control.accesses at control ⊢
  exact control

lemma give (accessing : Accessing h m) (v : Value) : Accessing h (m.give v) :=
  ⟨accessing.stack, accessing.spares, trivial⟩

lemma raiseError (accessing : Accessing h m) (e : ScriptError) : Accessing h (m.raiseError e) := by
  obtain ⟨same, grown, bare, new⟩ := accessing.spares
  exact ⟨accessing.stack, ⟨same, grown, bare, new⟩, trivial⟩

lemma giveUserdata (accessing : Accessing h m) (u : Userdata) : Accessing h (giveUserdata m u) := by
  obtain ⟨same, grown, bare, new⟩ := accessing.spares
  exact ⟨accessing.stack, ⟨same, grown, bare, new⟩, trivial⟩

lemma deliver (accessing : Accessing h m) (v : HostValue) : Accessing h (deliver m v) := by
  have spares := (Heap.Spares.keptByPushing h).push m.heap v accessing.spares
  have after {answer : Except BridgeError Value} {w : World} (eq : m.world.push v = (answer, w)) :
      Accessing h ((m.withWorld w).go (.values [])) := by
    obtain rfl : (m.world.push v).2 = w := congrArg Prod.snd eq
    exact ⟨accessing.stack, spares, trivial⟩
  unfold Machine.deliver
  split
  · rename_i eq
    exact (after eq).give _
  · rename_i eq
    exact (after eq).raiseError _

lemma runHost (accessing : Accessing h m) {code : HostCode} {finish : Finish}
    (control : m.control = .host code finish) : Accessing h (runHost m code finish) := by
  have allowed := accessing.control
  rw [control] at allowed
  have stored (store : Store) (v : Value) : Accessing h ((m.withStore store).give v) :=
    ⟨accessing.stack, accessing.spares, trivial⟩
  cases code with
  | method inv => cases finish <;> cases allowed
  | access target name accessor =>
    unfold Machine.runHost
    dsimp only
    split
    · cases finish with
      | value => exact (stored _ .nil).deliver _
      | nothing => exact ⟨accessing.stack, accessing.spares, trivial⟩
      | results withValue => cases allowed
    · exact (stored _ .nil).raiseError _

lemma readMember (accessing : Accessing h m) (target : Target) (key : Value) :
    Accessing h (readMember m target key) := by
  unfold Machine.readMember
  cases memberName? key with
  | none => exact accessing.raiseError _
  | some name =>
    have remembered := accessing.remember target.cls
    dsimp only
    unfold Machine.read
    split
    · exact remembered.raiseError _
    · exact remembered.giveUserdata _
    · exact remembered.deliver _
    · rename_i code planned
      obtain ⟨accessor, rfl, -⟩ := planRead_offered planned
      exact ⟨accessing.stack, accessing.spares, trivial⟩

lemma index (accessing : Accessing h m) {id : Nat} {key : Value} {budget : Nat}
    (control : m.control = .index (.userdata id) key budget) :
    Accessing h (index m (.userdata id) key budget) := by
  obtain ⟨isTarget, some⟩ : isTarget m.world id = true ∧ budget ≠ 0 := by
    have allowed := accessing.control
    rw [control] at allowed
    exact allowed
  obtain ⟨target, found⟩ := Option.isSome_iff_exists.1 isTarget
  obtain ⟨budget, rfl⟩ := Nat.exists_eq_succ_of_ne_zero some
  show Accessing h (indexUserdata m id key)
  unfold indexUserdata
  cases proxy : m.heap.userdatum id with
  | object handle =>
    rw [show m.world.heap = m.heap from rfl, proxy] at found
    simp only [proxyMethod?, found]
    exact accessing.readMember target key
  | type handle =>
    rw [show m.world.heap = m.heap from rfl, proxy] at found
    simp only [proxyMethod?, found]
    exact accessing.readMember target key
  | _ =>
    rw [show m.world.heap = m.heap from rfl, proxy] at found
    simp [Heap.target?] at found

/-- A step of an access spares the tables. -/
lemma step (accessing : Accessing h m) :
    match step m with
    | .running m' => Accessing h m'
    | .halted _ w => h.Spares w.heap := by
  have allowed := accessing.control
  unfold Machine.step
  cases control : m.control with
  | values vs =>
    unfold popped
    rw [accessing.stack]
    exact accessing.spares
  | raising v =>
    unfold raised
    rw [accessing.stack]
    exact accessing.spares
  | index object key budget =>
    rw [control] at allowed
    cases object with
    | userdata id => exact accessing.index control
    | _ => cases allowed
  | host code finish => exact accessing.runHost control
  | _ =>
    rw [control] at allowed
    cases allowed

/-- So does an access as a whole. -/
lemma run (accessing : Accessing h m) (fuel : Nat) : h.Spares (run fuel m).2.heap := by
  induction fuel generalizing m with
  | zero => exact accessing.spares
  | succ fuel ih =>
    have stepped := accessing.step
    unfold Machine.run
    split
    · rename_i eq
      rw [eq] at stepped
      exact ih stepped
    · rename_i eq
      rw [eq] at stepped
      exact stepped

end Accessing

end ScriptBridge.Machine

namespace ScriptBridge.Session

open Script Bridge Machine

variable {w w' : World} {h : Heap} {path : String} {v : HostValue} {e : BridgeError}

lemma runValues_world (run : Machine.Outcome × World) : (runValues run).2 = run.2 := by
  unfold runValues
  split <;> rfl

lemma runValue_world (run : Machine.Outcome × World) : (runValue run).2 = run.2 := by
  rw [← runValues_world run]
  unfold runValue
  split <;> rename_i eq <;> rw [eq]

lemma readSegment_spares (spares : h.Spares w.heap) {id : Nat} (target : isTarget w id = true)
    (name : String) : h.Spares (readSegment w (.userdata id) name).2.heap := by
  have accessing : Accessing h
      { world := w, control := .index (.userdata id) (.ofString name) metatableBudget } :=
    ⟨rfl, spares, target, by decide⟩
  unfold readSegment
  rw [runValue_world]
  exact accessing.run _

lemma assignMember_spares (spares : h.Spares w.heap) (target : Target) (name : String)
    (v : HostValue) : h.Spares (assignMember w target name v).2.heap := by
  unfold assignMember
  dsimp only
  split
  · exact spares
  · rename_i code planned
    obtain ⟨accessor, rfl, -⟩ := planWrite_offered planned
    have accessing : Accessing h
        { world := w.remember target.cls
          control := .host (.access target name accessor) .nothing } :=
      ⟨rfl, spares, trivial⟩
    have kept : h.Spares (start (w.remember target.cls) _).2.heap := accessing.run w.engine.steps
    rw [← runValues_world] at kept
    split <;> rename_i eq <;> rw [eq] at kept <;> exact kept

lemma push_spares (spares : h.Spares w.heap) (v : HostValue) : h.Spares (w.push v).2.heap :=
  (Heap.Spares.keptByPushing h).push w.heap v spares

/-- From a new table on, names lead to new tables and make new ones. -/
lemma openSegments_new (spares : h.Spares w.heap) {id : Nat} (beyond : h.tables.size ≤ id)
    (path : String) (names : List String) :
    h.Spares (openSegments w path (.table id) names).2.heap ∧
      ∃ last, (openSegments w path (.table id) names).1 = .ok (.table last) := by
  induction names generalizing w id with
  | nil => exact ⟨spares, id, rfl⟩
  | cons name rest ih =>
    rw [openSegments, openSegment_eq spares.bare]
    rcases spares.new ⟨id, name⟩ beyond with missing | ⟨next, there, beyond'⟩
    · rw [missing]
      exact ih (spares.linked beyond) spares.grown
    · rw [there]
      exact ih spares beyond'

/-- A new table was made for a slot that was empty; nothing else changed. -/
structure LeftTable (h h' : Heap) (slot : Slot) (id : Nat) : Prop where
  there : slot.table < h.tables.size
  missing : h.slot slot = .nil
  made : h.tables.size ≤ id
  spares : (h.rawSet slot.table (.ofString slot.name) (.table id)).Spares h'

/-- Whatever a path leads through, at most one slot is given a new table on the way. -/
lemma openSegments_spares (spares : h.Spares w.heap) (path : String) (current : Value)
    (names : List String) :
    h.Spares (openSegments w path current names).2.heap ∨
      (∃ slot id, LeftTable h (openSegments w path current names).2.heap slot id) ∧
        ∃ last, (openSegments w path current names).1 = .ok (.table last) := by
  induction names generalizing w current with
  | nil => exact Or.inl spares
  | cons name rest ih =>
    cases current with
    | table id =>
      by_cases there : id < h.tables.size
      · rw [openSegments, openSegment_eq spares.bare]
        have same : w.heap.slot ⟨id, name⟩ = h.slot ⟨id, name⟩ := by
          unfold Heap.slot Heap.rawGet
          rw [spares.same id there]
        cases found : w.heap.slot ⟨id, name⟩ with
        | nil =>
          have linked := spares.linked_old (s := ⟨id, name⟩) there
          have beyond : (h.rawSet id (.ofString name) (.table w.heap.tables.size)).tables.size
              ≤ w.heap.tables.size := by
            rw [Heap.rawSet_size]
            exact spares.grown
          have onward := openSegments_new (w := { w with heap := w.heap.linked ⟨id, name⟩ }) linked
            beyond path rest
          refine Or.inr ⟨⟨⟨id, name⟩, w.heap.tables.size, there, same.symm.trans found,
            spares.grown,
            onward.1⟩, onward.2⟩
        | _ => exact ih spares _
      · exact Or.inl (openSegments_new spares (Nat.le_of_not_lt there) path _).1
    | userdata id =>
      unfold openSegments openSegment
      dsimp only
      by_cases target : isTarget w id = true
      · rw [if_pos target]
        have read := readSegment_spares spares target name
        rcases answer : readSegment w (.userdata id) name with ⟨result, w'⟩
        rw [answer] at read
        cases result with
        | ok next => exact ih read next
        | error e => exact Or.inl read
      · rw [if_neg target]
        exact Or.inl spares
    | _ => exact Or.inl spares

lemma assignLast_failed (spares : h.Spares w.heap) {current : Value} {name : String}
    (failed : assignLast w path current name v = (.error e, w')) :
    h.Spares w'.heap ∧ ∀ id, current = .table id → (w.push v).1 = .error e := by
  have world : (assignLast w path current name v).2 = w' := congrArg Prod.snd failed
  cases current with
  | table id =>
    have pushed := push_spares spares v
    unfold assignLast at failed
    dsimp only at failed
    rcases pushes : w.push v with ⟨answer, w₁⟩
    rw [pushes] at failed pushed
    cases answer with
    | ok x =>
      cases (storeSegment_eq pushed.bare id name x).symm.trans failed
    | error e' =>
      cases failed
      exact ⟨pushed, fun _ _ => rfl⟩
  | userdata id =>
    refine ⟨?_, fun _ eq => Value.noConfusion eq⟩
    rw [← world]
    unfold assignLast
    dsimp only
    split
    · exact assignMember_spares spares _ _ _
    · exact spares
  | _ =>
    refine ⟨?_, fun _ eq => Value.noConfusion eq⟩
    rw [← world]
    exact spares

/-- What is left where a parent was missing is what assigning nil would have made. -/
lemma assigned_of_refused (plain : IsPlain w) {slot : Slot} {made : List String}
    (route : changed w path = some (slot, made)) (missing : made ≠ [])
    (pushes : (opened w path).push v = (.error e, w')) :
    w.heap.Assigned w'.heap slot made .nil := by
  obtain ⟨grows, -, -⟩ := push_opened plain pushes
  have assigned := Heap.assigned_rawSet (x := .nil) plain.closed plain.globals route grows
  obtain ⟨inside, empty⟩ := Heap.openTables_last plain.closed plain.globals route
  have last := (Heap.table_of_grows grows inside).trans (empty missing)
  rwa [Heap.rawSet_nil _ _ last] at assigned

/-- If the value is refused, the tables are as they were exactly if no parent was missing. -/
lemma sameTables_of_refused_iff (plain : IsPlain w) {slot : Slot} {made : List String}
    (route : changed w path = some (slot, made))
    (pushes : (opened w path).push v = (.error e, w')) :
    w.heap.SameTables w'.heap ↔ made = [] := by
  constructor
  · intro same
    by_contra missing
    have bound := Heap.changed_bound plain.closed plain.globals route
    have empty := Heap.changed_missing route missing
    have chain := (assigned_of_refused plain route missing pushes).chain
    obtain ⟨name, rest, rfl⟩ := List.exists_cons_of_ne_nil missing
    have start := chain.1
    unfold Heap.slot Heap.rawGet at start empty
    rw [same _ bound, empty] at start
    cases start
  · rintro rfl id bound
    have untouched : (opened w path).heap = w.heap := congrArg Prod.snd (Heap.changed_there route).1
    obtain ⟨grows, -, -⟩ := push_opened plain pushes
    rw [untouched] at grows
    exact Heap.table_of_grows grows bound

/-- Where the path meets only tables and nil before its last segment, an assignment fails because
the value is refused. -/
lemma refused_of_failed (plain : IsPlain w) {slot : Slot} {made : List String}
    (route : changed w path = some (slot, made)) (failed : setGlobal w path v = (.error e, w')) :
    (opened w path).push v = (.error e, w') := by
  have effect := setGlobal_eq plain route v
  rw [failed] at effect
  rcases pushes : (opened w path).push v with ⟨answer, pushed⟩
  rw [pushes] at effect
  cases answer with
  | ok x => cases effect
  | error e' =>
    cases effect
    rfl

/-- Whatever the path meets, a table is left only where the value was refused after it was made. -/
lemma sameTables_or_left (plain : IsPlain w) (failed : setGlobal w path v = (.error e, w')) :
    w.heap.SameTables w'.heap ∨
      (¬ ∃ x, (w.push v).1 = .ok x) ∧ ∃ slot id, LeftTable w.heap w'.heap slot id := by
  have walked := openSegments_spares (.refl plain.bare) path (.table w.globals) (parents path)
  unfold setGlobal at failed
  rcases answer : openSegments w path (.table w.globals) (parents path) with ⟨result, w₁⟩
  rw [answer] at failed walked
  cases result with
  | error e' =>
    cases failed
    rcases walked with spares | ⟨-, last, ok⟩
    · exact Or.inl spares.same
    · cases ok
  | ok current =>
    rcases walked with spares | ⟨⟨slot, id, left⟩, last, ok⟩
    · exact Or.inl (assignLast_failed spares failed).1.same
    · obtain ⟨kept, refused⟩ := assignLast_failed left.spares failed
      refine Or.inr ⟨?_, slot, id, left.there, left.missing, left.made, kept⟩
      cases ok
      rw [accepted_iff w w₁ v]
      rintro ⟨x, accepted⟩
      cases accepted.symm.trans (refused last rfl)

/-- An assignment that fails leaves the tables as they were, unless the value is refused after a
table was made for an empty slot. Where the path meets only tables and nil before its last segment,
that is so exactly if there was nil: then the tables made for it stay, the last one empty. -/
theorem setGlobal_failed (plain : IsPlain w) (failed : setGlobal w path v = (.error e, w')) :
    (w.heap.SameTables w'.heap ∨
      (¬ ∃ x, (w.push v).1 = .ok x) ∧ ∃ slot id, LeftTable w.heap w'.heap slot id) ∧
    ∀ slot made, changed w path = some (slot, made) →
      (w.heap.SameTables w'.heap ↔ made = []) ∧
        (made ≠ [] → w.heap.Assigned w'.heap slot made .nil) := by
  refine ⟨sameTables_or_left plain failed, fun slot made route => ?_⟩
  have pushes := refused_of_failed plain route failed
  exact ⟨sameTables_of_refused_iff plain route pushes,
    fun missing => assigned_of_refused plain route missing pushes⟩

/-- An array with a big integer in it. -/
def refusedPanes : HostValue :=
  .array [.int 1, .big 1]

lemma setGlobal_refused :
    ∃ w', setGlobal maze mazePath refusedPanes
      = (.error (.unsupportedValueKind "bigint 1 has no Lua representation"), w') ∧
        (opened maze mazePath).push refusedPanes
          = (.error (.unsupportedValueKind "bigint 1 has no Lua representation"), w') :=
  ⟨_, setGlobal_eq maze_plain changed_maze refusedPanes, rfl⟩

/-- The big integer is refused when the table for the last segment was made, and the table stays,
empty. -/
theorem refused_maze :
    ∃ w', setGlobal maze mazePath refusedPanes
        = (.error (.unsupportedValueKind "bigint 1 has no Lua representation"), w') ∧
      w'.heap.slot ⟨1, "window"⟩ = .table 2 ∧ w'.heap.table 2 = {} := by
  obtain ⟨w', failed, -⟩ := setGlobal_refused
  obtain ⟨start, next, entry, ends⟩ :=
    (((setGlobal_failed maze_plain failed).2 _ _ changed_maze).2 (by decide)).chain
  refine ⟨w', failed, start, ?_⟩
  cases ends
  exact entry

/-- A failing assignment can change a table that names lead to. -/
theorem not_always_unchanged :
    ¬ ∀ (w : World) (path : String) (v : HostValue) (e : BridgeError) (w' : World), IsPlain w →
      setGlobal w path v = (.error e, w') →
      ∀ names id, w.heap.Leads (.table w.globals) names (.table id) →
        w'.heap.table id = w.heap.table id := by
  intro always
  obtain ⟨w', failed, pushes⟩ := setGlobal_refused
  have reached : maze.heap.Leads (.table maze.globals) ["config"] (.table 1) := ⟨0, rfl, rfl⟩
  have same := always maze mazePath refusedPanes _ w' maze_plain failed ["config"] 1 reached
  have start := (assigned_of_refused maze_plain changed_maze (by decide) pushes).chain.1
  unfold Heap.slot Heap.rawGet at start
  rw [same] at start
  cases start

end ScriptBridge.Session
