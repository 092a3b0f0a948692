import ScriptBridge.Proofs.Arrival
import ScriptBridge.Proofs.Slot
import ScriptBridge.Session.Globals

/-!
# Paths through tables

Splitting a path from the left gives the segments before its last dot and the one after it. Along
tables, an assignment changes one slot that is there: the last one, or the first one on the way
that is empty. This slot then starts a chain of new tables with one entry each, and reading the
path again follows the chain.
-/

namespace ScriptBridge.Session

section Splitting

lemma splitPath_ne_nil (cs : List Char) : splitPath cs ≠ [] := by
  fun_cases splitPath cs <;> simp

/-- All dots but the last one split what comes before the last one. -/
lemma splitPath_eq (cs : List Char) :
    splitPath cs = (match (cutPath cs).1 with
      | some front => splitPath front
      | none => []) ++ [(cutPath cs).2] := by
  induction cs with
  | nil => rfl
  | cons c rest ih =>
    rcases cut : cutPath rest with ⟨front, name⟩
    rw [cut] at ih
    cases front with
    | none =>
      have alone : splitPath rest = [name] := ih
      by_cases dot : c = '.'
      · subst dot
        simp [splitPath, cutPath, cut, alone]
      · simp [splitPath, cutPath, cut, alone, dot]
    | some front =>
      have more : splitPath rest = splitPath front ++ [name] := ih
      by_cases dot : c = '.'
      · subst dot
        simp [splitPath, cutPath, cut, more]
      · cases split : splitPath front with
        | nil => exact absurd split (splitPath_ne_nil front)
        | cons first others => simp [splitPath, cutPath, cut, more, split]

/-- Reading and assigning take a path apart into the same segments. -/
theorem segments_eq (path : String) : segments path = parents path ++ [lastSegment path] := by
  unfold segments parents parentPath? lastSegment
  rw [splitPath_eq]
  cases (cutPath path.toList).1 with
  | none => rfl
  | some front => simp [segments]

end Splitting

end ScriptBridge.Session

namespace ScriptBridge.Script

open Bridge

structure Slot where
  table : Nat
  name : String
deriving DecidableEq

namespace Heap

/-- What is under a slot. -/
def slot (h : Heap) (s : Slot) : Value :=
  h.rawGet s.table (.ofString s.name)

/-- The slots read on the way from a table along names, as far as they lead through tables. -/
def slotsRead (h : Heap) (id : Nat) : List String → List Slot
  | [] => []
  | name :: rest =>
    ⟨id, name⟩ :: match h.slot ⟨id, name⟩ with
      | .table next => slotsRead h next rest
      | _ => []

/-- The slot that an assignment changes under some names and a last one, and the names of the
tables that are made behind it: none if the tables are there. There is no such slot where a value
other than a table is in the way. -/
def changed (h : Heap) (id : Nat) : List String → String → Option (Slot × List String)
  | [], last => some (⟨id, last⟩, [])
  | name :: rest, last =>
    match h.slot ⟨id, name⟩ with
    | .nil => some (⟨id, name⟩, rest ++ [last])
    | .table next => changed h next rest last
    | _ => none

/-- The heap with a new table under a slot. -/
def linked (h : Heap) (s : Slot) : Heap :=
  (h.newTable {}).2.rawSet s.table (.ofString s.name) (.table h.tables.size)

/-- The table at the end of some names, and the heap with the tables made that are missing. -/
def openTables (h : Heap) (id : Nat) : List String → Nat × Heap
  | [] => (id, h)
  | name :: rest =>
    match h.slot ⟨id, name⟩ with
    | .table next => openTables h next rest
    | _ =>
      openTables (h.linked ⟨id, name⟩) h.tables.size rest

/-- Names lead from a value to another. -/
def Leads (h : Heap) : Value → List String → Value → Prop
  | v, [], x => v = x
  | v, name :: rest, x => ∃ id, v = .table id ∧ Leads h (h.slot ⟨id, name⟩) rest x

/-- A value is the start of a chain of tables, numbered in a row, that have one entry each, to the
value at its end. A table whose entry would be nil has none. -/
def Chain (h : Heap) (id : Nat) (v : Value) : List String → Value → Prop
  | [], x => v = x
  | name :: rest, x =>
    v = .table id ∧ ∃ next,
      h.table id = { entries := if next.isNil then [] else [(.ofString name, next)] } ∧
        Chain h (id + 1) next rest x

/-- No table has a metatable. -/
def Bare (h : Heap) : Prop :=
  ∀ id, (h.table id).metatable = none

/-- Tables refer to tables that are there. -/
def Closed (h : Heap) : Prop :=
  ∀ id k next, h.rawGet id k = .table next → next < h.tables.size

section Tables

variable {h : Heap} {id : Nat}

lemma Bare.newTable (bare : h.Bare) {t : Table} (plain : t.metatable = none) :
    (h.newTable t).2.Bare := by
  intro id
  rw [table_newTable]
  split
  · exact plain
  · exact bare id

lemma Bare.rawSet (bare : h.Bare) (id : Nat) (k v : Value) : (h.rawSet id k v).Bare := by
  intro id'
  by_cases bound : id < h.tables.size
  · unfold Heap.rawSet
    rw [table_setTable h _ bound]
    split
    · exact bare id
    · exact bare id'
  · unfold Heap.rawSet Heap.setTable
    rw [Array.setIfInBounds_eq_of_size_le (by omega)]
    exact bare id'

lemma Bare.keptByPushing : KeptByPushing Bare where
  table _ _ bare := bare.newTable rfl
  object _ _ bare := bare
  type _ _ bare := bare

lemma Bare.linked (bare : h.Bare) (s : Slot) : (h.linked s).Bare :=
  (bare.newTable rfl).rawSet _ _ _

variable (h) in
lemma linked_size (s : Slot) : (h.linked s).tables.size = h.tables.size + 1 := by
  unfold Heap.linked
  rw [rawSet_size]
  exact Array.size_push _

variable {s : Slot}

lemma table_linked (bound : s.table < h.tables.size) :
    (h.linked s).table id
      = if id = s.table then (h.table id).set (.ofString s.name) (.table h.tables.size)
        else if id = h.tables.size then {} else h.table id := by
  have inside : s.table < (h.newTable {}).2.tables.size := by
    show s.table < (h.tables.push {}).size
    rw [Array.size_push]
    omega
  unfold Heap.linked Heap.rawSet
  rw [table_setTable _ _ inside, table_newTable, table_newTable]
  split
  · rename_i here
    rw [if_neg (by omega), here]
  · rfl

lemma fresh_linked (bound : s.table < h.tables.size) : (h.linked s).table h.tables.size = {} := by
  rw [table_linked bound, if_neg (by omega), if_pos rfl]

lemma Closed.linked (closed : h.Closed) (bound : s.table < h.tables.size) :
    (h.linked s).Closed := by
  intro id k next found
  rw [linked_size]
  unfold rawGet at found
  rw [table_linked bound] at found
  split at found
  · rw [Table.get_set] at found
    split at found
    · cases found
      omega
    · have := closed id k next found
      omega
  · split at found
    · cases found
    · have := closed id k next found
      omega

end Tables

section Routes

variable {h f : Heap} {id : Nat} {names made : List String} {last : String} {slot : Slot}
  {v x : Value}

lemma slot_of_entry {name : String}
    (found : h.table id = { entries := if v.isNil then [] else [(.ofString name, v)] }) :
    h.slot ⟨id, name⟩ = v := by
  unfold Heap.slot rawGet
  rw [found, ← Table.set_empty, Table.get_set, if_pos rfl]

lemma slot_of_empty (empty : h.table id = {}) (name : String) : h.slot ⟨id, name⟩ = .nil := by
  unfold Heap.slot rawGet
  rw [empty]
  exact Table.get_empty _

/-- The names of a chain lead to its end. -/
lemma Chain.leads (chain : h.Chain id v made x) : h.Leads v made x := by
  induction made generalizing id v with
  | nil => exact chain
  | cons name rest ih =>
    obtain ⟨start, next, entry, onward⟩ := chain
    refine ⟨id, start, ?_⟩
    rw [slot_of_entry entry]
    exact ih onward

/-- In an empty table the first name changes, and the others are made. -/
lemma changed_of_empty (empty : h.table id = {}) (names : List String) (last : String) :
    ∃ name rest, names ++ [last] = name :: rest ∧
      h.changed id names last = some (⟨id, name⟩, rest) := by
  cases names with
  | nil => exact ⟨last, [], rfl, rfl⟩
  | cons name rest =>
    refine ⟨name, rest ++ [last], rfl, ?_⟩
    rw [changed, slot_of_empty empty]

lemma changed_bound (closed : h.Closed) (bound : id < h.tables.size)
    (route : h.changed id names last = some (slot, made)) : slot.table < h.tables.size := by
  induction names generalizing id with
  | nil =>
    cases route
    exact bound
  | cons name rest ih =>
    unfold changed at route
    split at route
    · cases route
      exact bound
    · rename_i next found
      exact ih (closed _ _ _ found) route
    · cases route

/-- Where tables are made, the slot was empty. -/
lemma changed_missing (route : h.changed id names last = some (slot, made)) (some : made ≠ []) :
    h.slot slot = .nil := by
  induction names generalizing id with
  | nil =>
    cases route
    exact absurd rfl some
  | cons name rest ih =>
    unfold changed at route
    split at route
    · rename_i found
      cases route
      exact found
    · exact ih route
    · cases route

/-- Where no table is made, the slot is that of the last name. -/
lemma changed_there (route : h.changed id names last = some (slot, [])) :
    h.openTables id names = (slot.table, h) ∧ slot.name = last := by
  induction names generalizing id with
  | nil =>
    cases route
    exact ⟨rfl, rfl⟩
  | cons name rest ih =>
    unfold changed at route
    split at route
    · simp at route
    · rename_i next found
      rw [openTables, found]
      exact ih route
    · cases route

/-- The second heap is the first one after an assignment: one slot of the tables that were there is
another, and starts a chain of new tables to the value. -/
structure Assigned (h f : Heap) (slot : Slot) (made : List String) (x : Value) : Prop where
  others : ∀ id < h.tables.size, id ≠ slot.table → f.table id = h.table id
  table : f.table slot.table = (h.table slot.table).set (.ofString slot.name) (f.slot slot)
  chain : f.Chain h.tables.size (f.slot slot) made x

namespace Assigned

variable (assigned : h.Assigned f slot made x)

include assigned

/-- Every other slot of a table that was there is as it was. -/
lemma rawGet_eq (bound : id < h.tables.size) {k : Value}
    (differs : (id, k) ≠ (slot.table, .ofString slot.name)) : f.rawGet id k = h.rawGet id k := by
  unfold rawGet
  by_cases here : id = slot.table
  · subst here
    have other : k.key ≠ (Value.ofString slot.name).key := fun same =>
      differs (Prod.ext rfl (Value.key_eq_ofString same))
    rw [assigned.table, Table.get_set, if_neg other]
  · rw [assigned.others id bound here]

lemma slot_eq (bound : id < h.tables.size) {name : String} (differs : (⟨id, name⟩ : Slot) ≠ slot) :
    f.slot ⟨id, name⟩ = h.slot ⟨id, name⟩ := by
  refine assigned.rawGet_eq bound fun same => differs ?_
  cases slot
  cases Value.ofString_inj.1 (congrArg Prod.snd same)
  cases congrArg Prod.fst same
  rfl

end Assigned

/-- An assignment behind a new table is one in the slot that the table was made for. -/
lemma Assigned.of_linked {first : String} (bound : slot.table < h.tables.size)
    (assigned : (h.linked slot).Assigned f ⟨h.tables.size, first⟩ made x) :
    h.Assigned f slot (first :: made) x := by
  have table : f.table slot.table
      = (h.table slot.table).set (.ofString slot.name) (.table h.tables.size) := by
    rw [assigned.others slot.table (by rw [linked_size]; omega) (by simp only; omega),
      table_linked bound, if_pos rfl]
  have start : f.slot slot = .table h.tables.size := by
    unfold Heap.slot rawGet
    rw [table, Table.get_set, if_pos rfl]
  refine ⟨fun id inside differs => ?_, ?_, start, f.slot ⟨h.tables.size, first⟩, ?_, ?_⟩
  · rw [assigned.others id (by rw [linked_size]; omega) (by simp only; omega),
      table_linked bound, if_neg differs, if_neg (by omega)]
  · rw [start, table]
  · have fresh := assigned.table
    simp only at fresh
    rw [fresh, fresh_linked bound, Table.set_empty]
  · have chain := assigned.chain
    rw [linked_size] at chain
    exact chain

/-- Storing a value in the table at the end of the names is an assignment, also after something
else was added to the heap. -/
theorem assigned_rawSet (closed : h.Closed) (bound : id < h.tables.size)
    (route : h.changed id names last = some (slot, made))
    (grown : (h.openTables id names).2.tables.toList <+: f.tables.toList) :
    h.Assigned (f.rawSet (h.openTables id names).1 (.ofString last) x) slot made x := by
  induction names generalizing h id slot made with
  | nil =>
    cases route
    rw [openTables] at grown ⊢
    have inside : id < f.tables.size := Nat.lt_of_lt_of_le bound (size_le_of_grows grown)
    have stored : (f.rawSet id (.ofString last) x).slot ⟨id, last⟩ = x := by
      unfold Heap.slot
      rw [rawGet_rawSet f _ _ _ inside, if_pos ⟨rfl, rfl⟩]
    refine ⟨fun id' bound' differs => ?_, ?_, stored⟩
    · rw [rawSet, table_setTable_of_ne f _ differs]
      exact table_of_grows grown bound'
    · rw [stored]
      show (f.rawSet id (.ofString last) x).table id = _
      rw [rawSet, table_setTable f _ inside, if_pos rfl, table_of_grows grown bound]
  | cons name rest ih =>
    cases found : h.slot ⟨id, name⟩ with
    | table next =>
      rw [openTables, found] at grown ⊢
      rw [changed, found] at route
      exact ih closed (closed _ _ _ found) route grown
    | nil =>
      rw [openTables, found] at grown ⊢
      rw [changed, found] at route
      cases route
      -- from here on all tables are new
      obtain ⟨first, others, names, onward⟩ :=
        changed_of_empty (fresh_linked (s := ⟨id, name⟩) bound) rest last
      have assigned := ih (closed.linked bound) (by rw [linked_size]; omega) onward grown
      rw [names]
      exact assigned.of_linked bound
    | _ =>
      rw [changed, found] at route
      cases route

/-- The table at the end of the names is there, and it is empty if it was made. -/
lemma openTables_last (closed : h.Closed) (bound : id < h.tables.size)
    (route : h.changed id names last = some (slot, made)) :
    (h.openTables id names).1 < (h.openTables id names).2.tables.size ∧
      (made ≠ [] → (h.openTables id names).2.table (h.openTables id names).1 = {}) := by
  induction names generalizing h id slot made with
  | nil =>
    cases route
    exact ⟨bound, fun missing => absurd rfl missing⟩
  | cons name rest ih =>
    cases found : h.slot ⟨id, name⟩ with
    | table next =>
      rw [changed, found] at route
      rw [openTables, found]
      exact ih closed (closed _ _ _ found) route
    | nil =>
      rw [openTables, found]
      obtain ⟨first, others, names, onward⟩ :=
        changed_of_empty (fresh_linked (s := ⟨id, name⟩) bound) rest last
      obtain ⟨inside, empty⟩ := ih (closed.linked bound) (by rw [linked_size]; omega) onward
      refine ⟨inside, fun _ => ?_⟩
      by_cases more : others = []
      · cases rest with
        | nil => exact fresh_linked bound
        | cons next rest => simp [more] at names
      · exact empty more
    | _ =>
      rw [changed, found] at route
      cases route

lemma openTables_bare (bare : h.Bare) (id : Nat) (names : List String) :
    (h.openTables id names).2.Bare := by
  induction names generalizing h id with
  | nil => exact bare
  | cons name rest ih =>
    unfold openTables
    split
    · exact ih bare _
    · exact ih (bare.linked _) _

/-- After an assignment the names lead to the value, unless the slot is one of those that lead
there. -/
theorem Assigned.leads (assigned : h.Assigned f slot made x) (closed : h.Closed)
    (bound : id < h.tables.size) (route : h.changed id names last = some (slot, made))
    (unread : made = [] → slot ∉ h.slotsRead id names) :
    f.Leads (.table id) (names ++ [last]) x := by
  induction names generalizing id with
  | nil =>
    cases route
    exact ⟨id, rfl, assigned.chain.leads⟩
  | cons name rest ih =>
    refine ⟨id, rfl, ?_⟩
    cases found : h.slot ⟨id, name⟩ with
    | nil =>
      rw [changed, found] at route
      cases route
      exact assigned.chain.leads
    | table next =>
      have differs : (⟨id, name⟩ : Slot) ≠ slot := by
        rintro rfl
        by_cases none : made = []
        · refine unread none ?_
          rw [slotsRead]
          exact List.mem_cons_self
        · have empty := changed_missing route none
          rw [found] at empty
          cases empty
      rw [assigned.slot_eq bound differs, found]
      rw [changed, found] at route
      refine ih (closed _ _ _ found) route fun none mem => unread none ?_
      rw [slotsRead, found]
      exact List.mem_cons_of_mem _ mem
    | _ =>
      rw [changed, found] at route
      cases route

end Routes

end Heap

end ScriptBridge.Script
