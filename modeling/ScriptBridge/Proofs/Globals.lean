import ScriptBridge.Proofs.Path

/-!
# Assigning and reading global variables

On tables without metatables the walks along a path read and store slots and nothing else. So an
assignment does to the heap what `Heap.Assigned` says, and reading the path afterwards gives the
value, unless the assignment changed a slot on the way.
-/

namespace ScriptBridge.Machine

open Script

/-- The machine halts within so many steps. -/
def HaltsIn (n : Nat) (m : Machine) (o : Outcome) (w : World) : Prop :=
  ∀ fuel, run (fuel + n) m = (o, w)

section Halting

variable {m m' : Machine} {n : Nat} {o : Outcome} {w w' : World} {c : Control}

lemma HaltsIn.step (halts : HaltsIn n m' o w) (stepped : Machine.step m = .running m') :
    HaltsIn (n + 1) m o w := by
  intro fuel
  rw [← Nat.add_assoc, run, stepped]
  exact halts fuel

lemma haltsIn_values {vs : List Value} (control : m.control = .values vs) (stack : m.stack = []) :
    HaltsIn 1 m (.returned vs) m.world := by
  intro fuel
  unfold run Machine.step popped
  rw [control, stack]

lemma HaltsIn.start (halts : HaltsIn n { world := w, control := c } o w') (short : n ≤ 1000) :
    Machine.start w c = (o, w') := by
  have enough : w.engine.steps = w.engine.steps - n + n :=
    (Nat.sub_add_cancel (Nat.le_trans short w.engine.enough)).symm
  unfold Machine.start
  rw [enough]
  exact halts _

end Halting

section Tables

variable {m : Machine} (bare : m.heap.Bare) (id : Nat) (key v : Value) (budget : Nat)

include bare

lemma metamethod_eq_nil (event : String) : m.heap.metamethod id event = .nil := by
  unfold Heap.metamethod
  rw [bare id]

/-- Without metatables a table gives what is in it. -/
lemma index_table :
    index m (.table id) key (budget + 1) = m.give (m.heap.rawGet id key) := by
  unfold index
  dsimp only
  split
  · rename_i empty
    rw [metamethod_eq_nil bare, empty]
  · rfl

lemma store_table : store m (.table id) key v (budget + 1) = storeRaw m id key v := by
  unfold store
  dsimp only
  rw [metamethod_eq_nil bare]
  exact ite_self _

end Tables

end ScriptBridge.Machine

namespace ScriptBridge.Session

open Script Bridge Machine

/-- The tables have no metatables and refer to tables that are there, in any way. -/
structure IsPlain (w : World) : Prop where
  bare : w.heap.Bare
  closed : w.heap.Closed
  globals : w.globals < w.heap.tables.size

/-- The world with a value stored in a slot. -/
def storeAt (w : World) (s : Slot) (x : Value) : World :=
  { w with heap := w.heap.rawSet s.table (.ofString s.name) x }

section Segments

variable {w : World} {id : Nat} {names made : List String} {last : String} {slot : Slot}
  {v x : Value}

lemma readSegment_eq (bare : w.heap.Bare) (id : Nat) (name : String) :
    readSegment w (.table id) name = (.ok (w.heap.slot ⟨id, name⟩), w) := by
  let m : Machine :=
    { world := w, control := .index (.table id) (.ofString name) metatableBudget }
  have stepped : step m = .running (m.give (w.heap.slot ⟨id, name⟩)) :=
    congrArg Progress.running (index_table (m := m) bare id (.ofString name) _)
  unfold readSegment
  rw [((haltsIn_values rfl rfl).step stepped).start (by decide)]
  rfl

lemma storeSegment_eq (bare : w.heap.Bare) (id : Nat) (name : String) (v : Value) :
    storeSegment w id name v = (.ok (), storeAt w ⟨id, name⟩ v) := by
  let m : Machine :=
    { world := w, control := .store (.table id) (.ofString name) v metatableBudget }
  have stepped : step m
      = .running ((m.withHeap (w.heap.rawSet id (.ofString name) v)).go (.values [])) :=
    congrArg Progress.running (store_table (m := m) bare id (.ofString name) v _)
  unfold storeSegment
  rw [((haltsIn_values rfl rfl).step stepped).start (by decide)]
  rfl

/-- A walk goes where the names lead through tables. -/
lemma walk_eq (bare : w.heap.Bare) (leads : w.heap.Leads v names x) :
    walk w v names = (.ok x, w) := by
  induction names generalizing v with
  | nil =>
    cases leads
    rfl
  | cons name rest ih =>
    obtain ⟨id, rfl, onward⟩ := leads
    rw [walk, if_pos (show leadsOn w (.table id) = true from rfl), readSegment_eq bare]
    exact ih onward

lemma openSegment_eq (bare : w.heap.Bare) (path : String) (id : Nat) (name : String) :
    openSegment w path (.table id) name
      = match w.heap.slot ⟨id, name⟩ with
        | .nil => (.ok (.table w.heap.tables.size), { w with heap := w.heap.linked ⟨id, name⟩ })
        | v => (.ok v, w) := by
  unfold openSegment
  dsimp only
  rw [readSegment_eq bare]
  cases found : w.heap.slot ⟨id, name⟩ with
  | nil =>
    have stored := storeSegment_eq (w := { w with heap := (w.heap.newTable {}).2 })
      (bare.newTable rfl) id name (.table w.heap.tables.size)
    dsimp only
    rw [show (w.heap.newTable {}).1 = w.heap.tables.size from rfl]
    rw [stored]
    rfl
  | _ => rfl

/-- On the way through tables, the missing ones are made. -/
lemma openSegments_eq (bare : w.heap.Bare) (closed : w.heap.Closed)
    (bound : id < w.heap.tables.size) (path : String)
    (route : w.heap.changed id names last = some (slot, made)) :
    openSegments w path (.table id) names
      = (.ok (.table (w.heap.openTables id names).1),
        { w with heap := (w.heap.openTables id names).2 }) := by
  induction names generalizing w id slot made with
  | nil => rfl
  | cons name rest ih =>
    rw [openSegments, openSegment_eq bare]
    cases found : w.heap.slot ⟨id, name⟩ with
    | nil =>
      obtain ⟨first, others, -, onward⟩ :=
        Heap.changed_of_empty (Heap.fresh_linked (s := ⟨id, name⟩) bound) rest last
      have opened := ih (w := { w with heap := w.heap.linked ⟨id, name⟩ }) (bare.linked _)
        (closed.linked bound) (by rw [Heap.linked_size]; omega) onward
      rw [Heap.openTables, found]
      exact opened
    | table next =>
      rw [Heap.changed, found] at route
      rw [Heap.openTables, found]
      exact ih bare closed (closed _ _ _ found) route
    | _ =>
      rw [Heap.changed, found] at route
      cases route

end Segments

section Paths

section Definitions

variable (w : World) (path : String)

/-- The slot that an assignment changes, and the names of the tables made behind it. There is one
if the path meets only tables and nil before its last segment. -/
def changed : Option (Slot × List String) :=
  w.heap.changed w.globals (parents path) (lastSegment path)

/-- The slots read on the way to the last segment, of the tables that are there. -/
def slotsRead : List Slot :=
  w.heap.slotsRead w.globals (parents path)

/-- The world with the tables on the way made. -/
def opened : World :=
  { w with heap := (w.heap.openTables w.globals (parents path)).2 }

/-- The slot that the value is stored in. -/
def lastSlot : Slot :=
  ⟨(w.heap.openTables w.globals (parents path)).1, lastSegment path⟩

end Definitions

variable {w : World} {path : String} {slot : Slot} {made : List String}

/-- Whether a value is pushed does not depend on what there is. -/
lemma accepted_iff (w w' : World) (v : HostValue) :
    (∃ x, (w.push v).1 = .ok x) ↔ ∃ x, (w'.push v).1 = .ok x :=
  (push_ok_iff w.heap v).trans (push_ok_iff w'.heap v).symm

/-- Pushing adds to the tables that were made. -/
lemma push_opened (plain : IsPlain w) {v : HostValue} {answer : Except BridgeError Value}
    {pushed : World} (pushes : (opened w path).push v = (answer, pushed)) :
    (opened w path).heap.tables.toList <+: pushed.heap.tables.toList ∧ pushed.heap.Bare ∧
      pushed.globals = w.globals := by
  have grows := (Heap.Extends.push (opened w path).heap v).tables
  have bare := Heap.Bare.keptByPushing.push (opened w path).heap v
    (Heap.openTables_bare plain.bare _ _)
  obtain rfl : ((opened w path).push v).2 = pushed := congrArg Prod.snd pushes
  exact ⟨grows, bare, rfl⟩

/-- An assignment makes the tables on the way, pushes the value and stores it in the last slot. -/
theorem setGlobal_eq (plain : IsPlain w) (route : changed w path = some (slot, made))
    (v : HostValue) :
    setGlobal w path v
      = match (opened w path).push v with
        | (.ok x, pushed) => (.ok (), storeAt pushed (lastSlot w path) x)
        | (.error e, pushed) => (.error e, pushed) := by
  unfold setGlobal
  rw [openSegments_eq plain.bare plain.closed plain.globals path route]
  show assignLast (opened w path) path (.table (lastSlot w path).table) _ v = _
  unfold assignLast
  dsimp only
  rcases pushes : (opened w path).push v with ⟨answer, pushed⟩
  cases answer with
  | error e => rfl
  | ok x => exact storeSegment_eq (push_opened plain pushes).2.1 _ _ x

lemma getGlobal_eq (bare : w.heap.Bare) {x : Value}
    (leads : w.heap.Leads (.table w.globals) (segments path) x) :
    getGlobal w path = (.ok (w.pull x), w) := by
  unfold getGlobal
  rw [walk_eq bare leads]

/-- Assigning a value that is pushed succeeds where the path meets only tables and nil before its
last segment. The path then reads as the value, unless the slot that it was stored in is read on
the way. All slots of the tables that were there are as they were but one: the last one, or the
first one that was missing, which starts a chain of new tables to the value. -/
theorem getGlobal_setGlobal (plain : IsPlain w) (route : changed w path = some (slot, made))
    {v : HostValue} (accepted : ∃ x, (w.push v).1 = .ok x) :
    ∃ x pushed assigned, (opened w path).push v = (.ok x, pushed) ∧
      setGlobal w path v = (.ok (), assigned) ∧
      (lastSlot w path ∉ slotsRead w path →
        getGlobal assigned path = (.ok (pushed.pull x), assigned)) ∧
      (∀ id < w.heap.tables.size, ∀ k, (id, k) ≠ (slot.table, .ofString slot.name) →
        assigned.heap.rawGet id k = w.heap.rawGet id k) ∧
      (made = [] → slot = lastSlot w path) ∧ (made ≠ [] → w.heap.slot slot = .nil) ∧
      assigned.heap.Chain w.heap.tables.size (assigned.heap.slot slot) made x := by
  obtain ⟨x, ok⟩ := (accepted_iff w (opened w path) v).1 accepted
  obtain ⟨pushed, pushes⟩ : ∃ pushed, (opened w path).push v = (.ok x, pushed) :=
    ⟨_, Prod.ext ok rfl⟩
  obtain ⟨grows, bare, globals⟩ := push_opened plain pushes
  have assigned := Heap.assigned_rawSet (x := x) plain.closed plain.globals route grows
  have stored := setGlobal_eq plain route v
  rw [pushes] at stored
  have there : made = [] → slot = lastSlot w path := by
    rintro rfl
    obtain ⟨last, name⟩ := Heap.changed_there route
    unfold lastSlot
    rw [last, ← name]
  refine ⟨x, _, _, pushes, stored, fun unread => ?_, fun id bound k => assigned.rawGet_eq bound,
    there, Heap.changed_missing route, assigned.chain⟩
  refine getGlobal_eq (bare.rawSet _ _ _) ?_
  rw [segments_eq, show (storeAt pushed (lastSlot w path) x).globals = w.globals from globals]
  refine assigned.leads plain.closed plain.globals route fun none => ?_
  rw [there none]
  exact unread

end Paths

section Maze

/-- Two tables that lead to each other, the first one also to itself. -/
def maze : World where
  options := {}
  registry := .build [] 0
  heap := { tables := #[
    { entries := [(.ofString "self", .table 0), (.ofString "config", .table 1)] },
    { entries := [(.ofString "parent", .table 0)] }] }
  globals := 0

lemma maze_plain : IsPlain maze where
  bare := by
    rintro (_ | _ | id) <;> rfl
  closed := by
    intro id k next found
    unfold Heap.rawGet Table.get at found
    match id with
    | 0 =>
      change (List.lookup k.key [(Value.ofString "self", Value.table 0),
        (Value.ofString "config", Value.table 1)]).getD .nil = _ at found
      rw [Table.lookup_cons, Table.lookup_cons] at found
      split at found
      · cases found
        decide
      · split at found <;> cases found
        decide
    | 1 =>
      change (List.lookup k.key [(Value.ofString "parent", Value.table 0)]).getD .nil = _ at found
      rw [Table.lookup_cons] at found
      split at found <;> cases found
      decide
    | id + 2 => cases found
  globals := by decide

/-- Round the maze and on to a table that is missing. -/
def mazePath : String :=
  "self.config.parent.config.window.panes"

lemma changed_maze : changed maze mazePath = some (⟨1, "window"⟩, ["panes"]) := by
  decide

/-- An array assigned under the path is read again as the table that was made of it, behind the
one that was missing. -/
theorem getGlobal_maze :
    (IsPlain maze ∧ lastSlot maze mazePath ∉ slotsRead maze mazePath) ∧
      ∃ assigned, setGlobal maze mazePath (.array [.int 1, .str "x"]) = (.ok (), assigned) ∧
        getGlobal assigned mazePath = (.ok (.table 3), assigned) := by
  have unread : lastSlot maze mazePath ∉ slotsRead maze mazePath := by decide
  obtain ⟨x, pushed, assigned, pushes, stored, read, -⟩ :=
    getGlobal_setGlobal maze_plain changed_maze (v := .array [.int 1, .str "x"]) ⟨.table 2, rfl⟩
  refine ⟨⟨maze_plain, unread⟩, assigned, stored, ?_⟩
  have result : Except.ok (.table 3) = Except.ok x := congrArg Prod.fst pushes
  cases result
  exact read unread

end Maze

end ScriptBridge.Session
