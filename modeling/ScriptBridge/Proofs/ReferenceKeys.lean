import ScriptBridge.Proofs.ViewMap

/-!
# Host references as keys

Each time the host names a key by an object or a type, a new proxy is pushed for it, which no table
has as a key yet. So what is stored under a reference is listed, but is not found under the
reference again, and storing under it twice leaves two entries.
-/

namespace ScriptBridge.HostValue

/-- An object or a type. -/
inductive IsReference : HostValue → Prop
  | object (o : HostObject) : IsReference (.object o)
  | type (t : HostType) : IsReference (.type t)

end ScriptBridge.HostValue

namespace ScriptBridge.Script

/-- The value is no userdata that is still to be made. -/
def Heap.Knows (h : Heap) (x : Value) : Prop :=
  ∀ id, x = .userdata id → id < h.userdata.size

/-- Keys and values of the table are known. -/
def Heap.KnowsAll (h : Heap) (table : Nat) : Prop :=
  ∀ e ∈ (h.table table).entries, h.Knows e.1 ∧ h.Knows e.2

namespace Table

variable (entries : List (Value × Value)) (k v : Value)

lemma insert_of_new (new : ∀ e ∈ entries, e.1 ≠ k) : insert entries k v = entries ++ [(k, v)] := by
  induction entries with
  | nil => rfl
  | cons e rest ih =>
    unfold insert
    rw [if_neg (by simpa using new e List.mem_cons_self),
      ih fun e mem => new e (List.mem_cons_of_mem _ mem), List.cons_append]

lemma erase_of_new (new : ∀ e ∈ entries, e.1 ≠ k) : erase entries k = entries :=
  List.filter_eq_self.2 fun e mem => by simpa using new e mem

lemma get_of_new {t : Table} (form : k.key = k) (new : ∀ e ∈ t.entries, e.1 ≠ k) :
    t.get k = .nil := by
  have missing : t.entries.lookup k = none :=
    List.lookup_eq_none_iff.2 fun e mem => by simpa using (new e mem).symm
  unfold get
  rw [form, missing]
  rfl

end Table

namespace Heap

variable {h h' : Heap} {table : Nat} {x : Value}

lemma Knows.later (knows : h.Knows x) (grows : h.Extends h') : h'.Knows x :=
  fun id same => Nat.lt_of_lt_of_le (knows id same) (size_le_of_grows grows.userdata)

lemma KnowsAll.later (knows : h.KnowsAll table) (grows : h.Extends h')
    (there : table < h.tables.size) : h'.KnowsAll table := by
  intro e mem
  rw [table_of_grows grows.tables there] at mem
  exact ⟨(knows e mem).1.later grows, (knows e mem).2.later grows⟩

/-- The next userdata is no key of the table. -/
lemma KnowsAll.ne_new (knows : h.KnowsAll table) :
    ∀ e ∈ (h.table table).entries, e.1 ≠ .userdata h.userdata.size :=
  fun e mem same => Nat.lt_irrefl _ ((knows e mem).1 _ same)

end Heap

end ScriptBridge.Script

namespace ScriptBridge.Session.TableView

open Script Bridge Machine HostValue

/-- A key under which a view finds and removes nothing. -/
structure Misses (w : World) (table : Nat) (k : HostValue) : Prop where
  get : get w table k = (.ok .nil, (w.push k).2)
  contains : contains w table k = (.ok false, (w.push k).2)
  remove : ∃ w', remove w table k = (.ok .nil, w') ∧ pairs w' table = pairs w table

section References

variable {w w' : World} {table : Nat} {k v : HostValue} {y : Value}

/-- A reference is pushed as a userdata that was not there. -/
lemma push_reference (reference : k.IsReference) (w : World) :
    w.push k = (.ok (.userdata w.heap.userdata.size), (w.push k).2) := by
  cases reference <;> rfl

/-- The new userdata is pulled as the reference, now and later. -/
lemma pull_reference (reference : k.IsReference) (tallies : ∃ proxies, w.heap.Tallies proxies)
    (room : (w.push k).2.heap.handles.slots.size ≤ UInt32.size)
    (later : (w.push k).2.heap.Later w'.heap) :
    w'.pull (.userdata w.heap.userdata.size) = k := by
  obtain ⟨proxies, tallies⟩ := tallies
  cases reference with
  | object o => exact pull_of_makes tallies (.object w.heap o) room later
  | type t => exact pull_of_makes tallies (.type w.heap t) room later

lemma knows_new (reference : k.IsReference) (w : World) :
    (w.push k).2.heap.Knows (.userdata w.heap.userdata.size) := by
  intro id same
  obtain rfl := Value.userdata.inj same
  cases reference <;> exact Nat.lt_of_lt_of_eq (Nat.lt_succ_self _) (Array.size_push _).symm

lemma heap_push (pushes : w.push v = (.ok y, w')) :
    Bridge.push w.heap v = (.ok y, w'.heap) := by
  obtain rfl : (w.push v).2 = w' := congrArg Prod.snd pushes
  exact Prod.ext (show (Bridge.push w.heap v).1 = .ok y from congrArg Prod.fst pushes) rfl

lemma push_grows (w : World) (v : HostValue) : w.heap.Extends (w.push v).2.heap :=
  Heap.Extends.push w.heap v

/-- What is pulled of known values stays the same. -/
lemma pull_later (later : w.heap.Later w'.heap) (knows : w.heap.Knows y) :
    w'.pull y = w.pull y := by
  cases y with
  | userdata id => exact later.pulls id (knows id rfl)
  | _ => rfl

lemma pairs_later (later : w.heap.Later w'.heap) (there : table < w.heap.tables.size)
    (knows : w.heap.KnowsAll table) : pairs w' table = pairs w table := by
  unfold pairs
  rw [later.table there]
  refine List.map_congr_left fun e mem => ?_
  exact Prod.ext (pull_later later (knows e mem).1) (pull_later later (knows e mem).2)

lemma entries_after_push (there : table < w.heap.tables.size) (v : HostValue) :
    ((w.push v).2.heap.table table).entries = (w.heap.table table).entries := by
  rw [Heap.table_of_grows (push_grows w v).tables there]

lemma entries_rawStore (there : table < w.heap.tables.size) (x y : Value) :
    ((rawStore w table x y).heap.table table).entries = ((w.heap.table table).set x y).entries := by
  unfold rawStore Heap.rawSet
  rw [Heap.table_setTable w.heap _ there, if_pos rfl]

/-- A view misses any reference, whatever is in its table. -/
lemma misses_reference (reference : k.IsReference) (tallies : ∃ proxies, w.heap.Tallies proxies)
    (there : table < w.heap.tables.size) (knows : w.heap.KnowsAll table)
    (room : (w.push k).2.heap.handles.slots.size ≤ UInt32.size) : Misses w table k := by
  have new : ∀ e ∈ ((w.push k).2.heap.table table).entries,
      e.1 ≠ .userdata w.heap.userdata.size := by
    rw [entries_after_push there]
    exact knows.ne_new
  have nothing : (w.push k).2.heap.rawGet table (.userdata w.heap.userdata.size) = .nil :=
    Table.get_of_new _ rfl new
  have got : TableView.get w table k = (.ok .nil, (w.push k).2) := by
    unfold TableView.get
    rw [push_reference reference]
    dsimp only
    rw [nothing]
    rfl
  refine ⟨got, ?_, rawStore (w.push k).2 table (.userdata w.heap.userdata.size) .nil, ?_, ?_⟩
  · unfold TableView.contains
    rw [got]
    rfl
  · unfold TableView.remove
    rw [push_reference reference]
    dsimp only
    rw [nothing]
    rfl
  · have there' := Nat.lt_of_lt_of_le there (size_le_of_grows (push_grows w k).tables)
    obtain ⟨proxies, tallies⟩ := tallies
    obtain ⟨later, -⟩ := push_later tallies (Prod.ext rfl rfl) room
    have same : pairs (rawStore (w.push k).2 table (.userdata w.heap.userdata.size) .nil) table
        = pairs (w.push k).2 table := by
      unfold pairs
      rw [entries_rawStore there']
      exact congrArg (List.map _) (Table.erase_of_new _ _ new)
    rw [same]
    exact pairs_later later there knows

/-- Storing under a reference pushes it and the value, and adds an entry at the end. -/
lemma set_reference (reference : k.IsReference) (there : table < w.heap.tables.size)
    (knows : w.heap.KnowsAll table) (some : v ≠ .nil)
    (stored : set w table k v = (.ok (), w')) :
    ∃ y w₂, (w.push k).2.push v = (.ok y, w₂) ∧
      w' = rawStore w₂ table (.userdata w.heap.userdata.size) y ∧
      (w'.heap.table table).entries
        = (w.heap.table table).entries ++ [(.userdata w.heap.userdata.size, y)] := by
  unfold set at stored
  rw [push_reference reference] at stored
  dsimp only at stored
  rcases pushes : (w.push k).2.push v with ⟨answer, w₂⟩
  rw [pushes] at stored
  cases answer with
  | error e => cases stored
  | ok y =>
    cases stored
    have there₁ : table < (w.push k).2.heap.tables.size :=
      Nat.lt_of_lt_of_le there (size_le_of_grows (push_grows w k).tables)
    have grows := push_grows (w.push k).2 v
    have same := entries_after_push there₁ v
    rw [pushes] at grows same
    rw [entries_after_push there] at same
    have filled : y.isNil = false := by
      rw [isNil_of_push (heap_push pushes)]
      cases v <;> first | rfl | exact absurd rfl some
    refine ⟨y, w₂, rfl, rfl, ?_⟩
    rw [entries_rawStore (Nat.lt_of_lt_of_le there₁ (size_le_of_grows grows.tables))]
    unfold Table.set
    rw [filled, if_neg Bool.false_ne_true]
    show Table.insert (w₂.heap.table table).entries (.userdata w.heap.userdata.size) y = _
    rw [same]
    exact Table.insert_of_new _ _ _ knows.ne_new

/-- What a table holds after a store under a reference is known again. -/
lemma set_reference_known (reference : k.IsReference)
    (tallies : ∃ proxies, w.heap.Tallies proxies) (there : table < w.heap.tables.size)
    (knows : w.heap.KnowsAll table) (some : v ≠ .nil)
    (stored : set w table k v = (.ok (), w'))
    (room : w'.heap.handles.slots.size ≤ UInt32.size) :
    (∃ proxies, w'.heap.Tallies proxies) ∧ table < w'.heap.tables.size ∧
      w'.heap.KnowsAll table ∧
      pairs w' table = pairs w table ++ [(k, pulledForm (w.push k).2 v)] := by
  obtain ⟨y, w₂, pushes, rfl, entries⟩ := set_reference reference there knows some stored
  have room₂ : w₂.heap.handles.slots.size ≤ UInt32.size := room
  have second := heap_push pushes
  have room₁ : (w.push k).2.heap.handles.slots.size ≤ UInt32.size := by
    have more := slots_le_push (w.push k).2.heap v
    rw [second] at more
    exact Nat.le_trans more room₂
  obtain ⟨proxies, tallied⟩ := tallies
  obtain ⟨later₁, more, tallied₁⟩ := push_later tallied (Prod.ext rfl rfl) room₁
  obtain ⟨later₂, more', tallied₂⟩ := push_later tallied₁ second room₂
  have later : w.heap.Later w₂.heap := later₁.trans later₂
  have there₂ := Nat.lt_of_lt_of_le there (size_le_of_grows later.grows.tables)
  have known : w₂.heap.Knows y := (known_of_push ⟨_, tallied₁⟩ pushes room₂).1
  refine ⟨⟨_, tallied₂.quiet rfl rfl⟩, ?_, ?_, ?_⟩
  · exact Nat.lt_of_lt_of_eq there₂ (Heap.rawSet_size _ _ _).symm
  · intro e mem
    rw [entries] at mem
    show w₂.heap.Knows e.1 ∧ w₂.heap.Knows e.2
    rcases List.mem_append.1 mem with old | new
    · exact ⟨(knows e old).1.later later.grows, (knows e old).2.later later.grows⟩
    · obtain rfl := List.mem_singleton.1 new
      exact ⟨(knows_new reference w).later later₂.grows, known⟩
  · have key : w₂.pull (.userdata w.heap.userdata.size) = k :=
      pull_reference reference ⟨_, tallied⟩ room₁ later₂
    have form : pulledForm (w.push k).2 v = w₂.pull y := by
      unfold pulledForm
      rw [pushes]
    have old := pairs_later later there knows
    unfold pairs at old ⊢
    rw [entries, List.map_append, ← old, form, later.table there]
    exact congrArg (fun p => _ ++ [(p, w₂.pull y)]) key

end References

/-- What is stored under an object or type is listed under it, but no object or type finds or
removes it; storing under an object or type once more leaves one entry more. -/
theorem misses_after_set {w w' : World} {table : Nat} {k k' v : HostValue}
    (tallies : ∃ proxies, w.heap.Tallies proxies) (there : table < w.heap.tables.size)
    (knows : w.heap.KnowsAll table) (reference : k.IsReference) (reference' : k'.IsReference)
    (some : v ≠ .nil) (stored : set w table k v = (.ok (), w'))
    (room : (w'.push k').2.heap.handles.slots.size ≤ UInt32.size) :
    (pairs w' table).Perm ((k, pulledForm (w.push k).2 v) :: pairs w table) ∧
      Misses w' table k' ∧
      ∀ u w'', u ≠ .nil → set w' table k' u = (.ok (), w'') →
        size w'' table = size w table + 2 := by
  have room' := Nat.le_trans (slots_le_push w'.heap k') room
  obtain ⟨tallies', there', knows', listed⟩ :=
    set_reference_known reference tallies there knows some stored room'
  refine ⟨?_, misses_reference reference' tallies' there' knows' room,
    fun u w'' some' stored' => ?_⟩
  · rw [listed]
    exact List.perm_append_singleton _ _
  obtain ⟨y, w₂, -, -, once⟩ := set_reference reference there knows some stored
  obtain ⟨y', w₂', -, -, twice⟩ := set_reference reference' there' knows' some' stored'
  unfold size
  rw [twice, once, List.length_append, List.length_append]
  rfl

/-- A new table on the bench in which a number was stored under the device. -/
def labelled : World :=
  (set (create bench).2 (create bench).1 (.object device) (.int 1)).2

lemma set_labelled :
    set (create bench).2 (create bench).1 (.object device) (.int 1) = (.ok (), labelled) :=
  rfl

/-- The device does not find the number, and is a second key when it is used again. -/
theorem labelled_misses :
    set (create bench).2 (create bench).1 (.object device) (.int 1) = (.ok (), labelled) ∧
      (HostValue.object device).same (.object device) = true ∧
      (get labelled (create bench).1 (.object device)).1 = .ok .nil ∧
      (contains labelled (create bench).1 (.object device)).1 = .ok false ∧
      size (set labelled (create bench).1 (.object device) (.int 1)).2 (create bench).1 = 2 :=
  ⟨rfl, rfl, rfl, rfl, rfl⟩

lemma set_labelled_again :
    set labelled (create bench).1 (.object device) (.int 2)
      = (.ok (), (set labelled (create bench).1 (.object device) (.int 2)).2) :=
  rfl

/-- Two entries are left under the device. -/
theorem labelled_twice :
    (∃ proxies, (create bench).2.heap.Tallies proxies) ∧
      (create bench).2.heap.KnowsAll (create bench).1 ∧
      pairs labelled (create bench).1 = [(.object device, .int 1)] ∧
      Misses labelled (create bench).1 (.object device) ∧
      size (set labelled (create bench).1 (.object device) (.int 2)).2 (create bench).1 = 2 := by
  have tallies : (create bench).2.heap.Tallies [] := .start rfl rfl
  have knows : (create bench).2.heap.KnowsAll (create bench).1 := fun e mem => by cases mem
  have some (i : Int64) : HostValue.int i ≠ .nil := HostValue.noConfusion
  obtain ⟨listed, misses, twice⟩ := misses_after_set ⟨[], tallies⟩ (by decide +kernel) knows
    (.object device) (.object device) (some 1) set_labelled (by decide +kernel)
  exact ⟨⟨[], tallies⟩, knows, List.perm_singleton.1 listed, misses,
    twice _ _ (some 2) set_labelled_again⟩

end ScriptBridge.Session.TableView
