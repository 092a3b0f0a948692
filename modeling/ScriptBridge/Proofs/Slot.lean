import Mathlib.Data.List.Nodup
import Mathlib.Tactic.Lemma
import ScriptBridge.Script.Heap

/-!
# Slots of tables

A slot is a table of the heap together with a key. Storing into a slot changes what is read from
this slot and from no other, and a table lists each of its keys once.
-/

namespace ScriptBridge.Script

lemma Value.ofString_inj {s t : String} : Value.ofString s = .ofString t ↔ s = t := by
  constructor
  · intro same
    exact String.toByteArray_inj.1 (Value.str.inj same)
  · rintro rfl
    rfl

lemma Value.isNil_iff {v : Value} : v.isNil = true ↔ v = .nil := by
  cases v <;> simp [isNil]

/-- No other key has the form that a string has as a key. -/
lemma Value.key_eq_ofString {k : Value} {s : String} (same : k.key = .ofString s) :
    k = .ofString s := by
  cases k with
  | float x =>
    unfold key at same
    dsimp only at same
    cases found : (Number.integer? x).bind Number.toInt64? with
    | none =>
      rw [found] at same
      cases same
    | some i =>
      rw [found] at same
      cases same
  | _ => exact same

namespace Table

variable (entries : List (Value × Value)) (t : Table) (k k' v : Value)

lemma lookup_cons (e : Value × Value) :
    (e :: entries).lookup k = if k = e.1 then some e.2 else entries.lookup k := by
  rw [List.lookup_cons]
  by_cases same : k = e.1
  · rw [if_pos same, beq_iff_eq.2 same]
  · rw [if_neg same, beq_false_of_ne same]

lemma lookup_insert :
    (insert entries k v).lookup k' = if k' = k then some v else entries.lookup k' := by
  induction entries with
  | nil => exact lookup_cons [] k' (k, v)
  | cons e rest ih =>
    unfold insert
    by_cases here : e.1 = k
    · rw [if_pos (beq_iff_eq.2 here), lookup_cons, lookup_cons, here]
      split <;> rfl
    · rw [if_neg (by simpa using here), lookup_cons, lookup_cons, ih]
      by_cases first : k' = e.1
      · have other : k' ≠ k := fun same => here (first.symm.trans same)
        rw [if_pos first, if_neg other, if_pos first]
      · rw [if_neg first, if_neg first]

lemma lookup_erase :
    (erase entries k).lookup k' = if k' = k then none else entries.lookup k' := by
  induction entries with
  | nil => exact (ite_self _).symm
  | cons e rest ih =>
    unfold erase at ih ⊢
    rw [List.filter_cons, lookup_cons]
    by_cases here : e.1 = k
    · rw [if_neg (by simpa using here), ih, here]
      split <;> rfl
    · rw [if_pos (by simpa using here), lookup_cons, ih]
      by_cases first : k' = e.1
      · have other : k' ≠ k := fun same => here (first.symm.trans same)
        rw [if_pos first, if_neg other, if_pos first]
      · rw [if_neg first, if_neg first]

/-- A table reads what was stored last under a key. -/
theorem get_set : (t.set k v).get k' = if k'.key = k.key then v else t.get k' := by
  unfold set get
  cases empty : v.isNil with
  | true =>
    rw [Value.isNil_iff] at empty
    rw [if_pos rfl, lookup_erase, empty]
    split <;> rfl
  | false =>
    rw [if_neg Bool.false_ne_true, lookup_insert]
    split <;> rfl

@[simp]
lemma get_empty : ({} : Table).get k = .nil :=
  rfl

/-- A table of items has nothing under a string. -/
lemma get_ofList_ofString (vs : List Value) (name : String) :
    (ofList vs).get (.ofString name) = .nil := by
  have missing : (ofList vs).entries.lookup (Value.ofString name).key = none := by
    rw [List.lookup_eq_none_iff]
    intro e mem
    obtain ⟨item, -, rfl⟩ := List.mem_map.1 mem
    rfl
  unfold get
  rw [missing]
  rfl

/-- What a table stores under a string when it was empty before. -/
lemma set_empty (name : String) :
    ({} : Table).set (.ofString name) v
      = { entries := if v.isNil then [] else [(.ofString name, v)] } := by
  unfold set
  split <;> rfl

/-- Each key is listed once, and with a value. -/
structure Listed (t : Table) : Prop where
  once : (t.entries.map (·.1)).Nodup
  filled : ∀ e ∈ t.entries, e.2 ≠ .nil

lemma keys_insert :
    (insert entries k v).map (·.1)
      = if k ∈ entries.map (·.1) then entries.map (·.1) else entries.map (·.1) ++ [k] := by
  induction entries with
  | nil => rfl
  | cons e rest ih =>
    unfold insert
    by_cases here : e.1 = k
    · rw [if_pos (beq_iff_eq.2 here)]
      simp [here]
    · rw [if_neg (by simpa using here), List.map_cons, List.map_cons, ih]
      have other : k ≠ e.1 := fun same => here same.symm
      by_cases there : k ∈ rest.map (·.1)
      · rw [if_pos there, if_pos (List.mem_cons_of_mem _ there)]
      · rw [if_neg there, if_neg (by simpa [other] using there), List.cons_append]

/-- Where no key is listed twice, looking one up finds its entry. -/
lemma lookup_iff_mem {entries : List (Value × Value)} {k v : Value}
    (once : (entries.map (·.1)).Nodup) : entries.lookup k = some v ↔ (k, v) ∈ entries := by
  induction entries with
  | nil => simp
  | cons e rest ih =>
    obtain ⟨new, once⟩ := List.nodup_cons.1 once
    rw [lookup_cons]
    by_cases here : k = e.1
    · rw [if_pos here, here]
      constructor
      · intro same
        rw [← Option.some.inj same]
        exact List.mem_cons_self
      · intro mem
        rcases List.mem_cons.1 mem with same | later
        · rw [← same]
        · exact absurd (List.mem_map_of_mem later) new
    · rw [if_neg here, ih once]
      constructor
      · exact List.mem_cons_of_mem _
      · intro mem
        rcases List.mem_cons.1 mem with same | later
        · exact absurd (congrArg Prod.fst same) here
        · exact later

lemma mem_insert {e : Value × Value} (mem : e ∈ insert entries k v) : e = (k, v) ∨ e ∈ entries := by
  induction entries with
  | nil => exact Or.inl (List.mem_singleton.1 mem)
  | cons first rest ih =>
    unfold insert at mem
    split at mem
    · rcases List.mem_cons.1 mem with new | old
      · exact Or.inl new
      · exact Or.inr (List.mem_cons_of_mem _ old)
    · rcases List.mem_cons.1 mem with old | later
      · exact Or.inr (old ▸ List.mem_cons_self)
      · rcases ih later with new | old
        · exact Or.inl new
        · exact Or.inr (List.mem_cons_of_mem _ old)

/-- An entry after a store is the one stored or an old one. -/
lemma mem_set {e : Value × Value} (mem : e ∈ (t.set k v).entries) :
    (e = (k.key, v) ∧ v ≠ .nil) ∨ e ∈ t.entries := by
  unfold set at mem
  dsimp only at mem
  split at mem
  · exact Or.inr ((List.mem_filter.1 mem).1)
  · rename_i filled
    rcases mem_insert _ _ _ mem with new | old
    · exact Or.inl ⟨new, fun empty => filled (Value.isNil_iff.2 empty)⟩
    · exact Or.inr old

namespace Listed

variable {t}

lemma empty (metatable : Option Nat) : Listed { entries := [], metatable } :=
  ⟨List.nodup_nil, fun _ mem => by cases mem⟩

lemma set (listed : t.Listed) (k v : Value) : (t.set k v).Listed where
  once := by
    unfold Table.set
    dsimp only
    split
    · exact listed.once.sublist (List.filter_sublist.map _)
    · rw [keys_insert]
      split
      · exact listed.once
      · rename_i new
        exact List.nodup_append'.2 ⟨listed.once, List.nodup_singleton _,
          List.disjoint_singleton.2 new⟩
  filled e mem := by
    rcases mem_set t k v mem with ⟨rfl, filled⟩ | old
    · exact filled
    · exact listed.filled e old

/-- The entries of a table are what it reads. -/
lemma mem_iff (listed : t.Listed) {k v : Value} (form : k.key = k) :
    (k, v) ∈ t.entries ↔ t.get k = v ∧ v ≠ .nil := by
  unfold get
  rw [form]
  constructor
  · intro mem
    rw [(lookup_iff_mem listed.once).2 mem]
    exact ⟨rfl, listed.filled _ mem⟩
  · rintro ⟨read, filled⟩
    rw [← lookup_iff_mem listed.once]
    cases looked : t.entries.lookup k with
    | none =>
      rw [looked] at read
      exact absurd read.symm filled
    | some u =>
      rw [looked] at read
      exact congrArg some read

end Listed

end Table

namespace Heap

variable (h : Heap) {id id' : Nat}

lemma table_setTable (t : Table) (bound : id < h.tables.size) :
    (h.setTable id t).table id' = if id' = id then t else h.table id' := by
  unfold setTable table
  by_cases same : id' = id
  · subst same
    simp [bound]
  · rw [if_neg same]
    simp [Ne.symm same]

lemma table_setTable_of_ne (t : Table) (other : id' ≠ id) :
    (h.setTable id t).table id' = h.table id' := by
  unfold setTable table
  simp [Ne.symm other]

/-- Storing into a slot is read back from this slot alone. -/
theorem rawGet_rawSet (k k' v : Value) (bound : id < h.tables.size) :
    (h.rawSet id k v).rawGet id' k'
      = if id' = id ∧ k'.key = k.key then v else h.rawGet id' k' := by
  unfold rawSet rawGet
  rw [table_setTable h _ bound]
  by_cases same : id' = id
  · subst same
    rw [if_pos rfl, Table.get_set]
    simp
  · rw [if_neg same, if_neg fun both => same both.1]

/-- Storing nil in an empty table changes nothing. -/
lemma rawSet_nil (k : Value) (empty : h.table id = {}) : h.rawSet id k .nil = h := by
  have same : h.tables.setIfInBounds id {} = h.tables := by
    refine Array.ext_getElem? fun i => ?_
    rw [Array.getElem?_setIfInBounds]
    split
    · rename_i here
      subst here
      split
      · rename_i bound
        unfold table at empty
        rw [Array.getElem?_eq_getElem bound] at empty ⊢
        exact congrArg some empty.symm
      · rename_i beyond
        exact (Array.getElem?_eq_none (Nat.le_of_not_lt beyond)).symm
    · rfl
  unfold rawSet
  rw [empty]
  exact congrArg (fun tables => { h with tables }) same

/-- Storing changes what is read to the value, or not at all. -/
lemma rawSet_cases (id id' : Nat) (k k' v : Value) :
    (h.rawSet id k v).rawGet id' k' = v ∨ (h.rawSet id k v).rawGet id' k' = h.rawGet id' k' := by
  by_cases bound : id < h.tables.size
  · rw [rawGet_rawSet h k k' v bound]
    split
    · exact Or.inl rfl
    · exact Or.inr rfl
  · unfold rawSet setTable
    rw [Array.setIfInBounds_eq_of_size_le (by omega)]
    exact Or.inr rfl

@[simp]
lemma rawSet_size (k v : Value) : (h.rawSet id k v).tables.size = h.tables.size :=
  Array.size_setIfInBounds

lemma table_newTable (t : Table) :
    (h.newTable t).2.table id = if id = h.tables.size then t else h.table id := by
  unfold newTable table
  simp only [Array.getElem?_push]
  split <;> rfl

lemma table_of_size_le (beyond : h.tables.size ≤ id) : h.table id = {} := by
  unfold table
  rw [Array.getElem?_eq_none beyond]
  rfl

end Heap

end ScriptBridge.Script
