import Mathlib.Data.List.Nodup
import ScriptBridge.Proofs.MemberTable

/-!
# Catalogs

Types are put into a catalog one after the other, each under its full name. Its positions follow
its list through every replacement, and the list has each full name once, where it came up first,
with the type that came last.
-/

namespace ScriptBridge.Catalog

/-- The full names of the types, in order. -/
def names (c : Catalog) : List String :=
  c.types.map (·.fullName)

/-- The positions of full names are those at which types of these names are listed. -/
def Indexed (c : Catalog) : Prop :=
  ∀ name i, c.positions.find? name = some i ↔ c.names[i]? = some name

/-- What a catalog is after the types were put into it: the list and the positions fit, the full
names came up in this order, and the type under each is the last one of that name. -/
structure Lists (visited : List HostType) (c : Catalog) : Prop where
  indexed : c.Indexed
  names : c.names = (visited.map (·.fullName)).eraseDups
  last : ∀ s ∈ c.types, (visited.filter (·.fullName == s.fullName)).getLast? = some s

section Place

variable {c : Catalog} {s t : HostType} {i j : Nat}

lemma names_getElem? (listed : c.types[i]? = some t) : c.names[i]? = some t.fullName := by
  rw [names, List.getElem?_map, listed]
  rfl

/-- Replacing a type by one of the same full name leaves the names as they are. -/
lemma names_set (here : c.names[i]? = some t.fullName) :
    names { c with types := c.types.set i t } = c.names := by
  obtain ⟨within, eq⟩ := List.getElem?_eq_some_iff.1 here
  show (c.types.set i t).map (·.fullName) = c.names
  rw [List.map_set, ← eq]
  exact List.set_getElem_self within

lemma names_append (c : Catalog) (t : HostType) (positions : Named Nat) :
    names ⟨c.types ++ [t], positions⟩ = c.names ++ [t.fullName] :=
  List.map_append

/-- What is at a position of a list with one more item. -/
lemma getElem?_append_singleton {α : Type} {xs : List α} {x y : α} :
    (xs ++ [x])[j]? = some y ↔ xs[j]? = some y ∨ j = xs.length ∧ x = y := by
  rcases Nat.lt_trichotomy j xs.length with within | rfl | beyond
  · simp [List.getElem?_append_left within, Nat.ne_of_lt within]
  · simp
  · have outside : (xs ++ [x]).length ≤ j := by
      rw [List.length_append]
      exact beyond
    simp [List.getElem?_eq_none outside, List.getElem?_eq_none (Nat.le_of_lt beyond),
      Nat.ne_of_gt beyond]

namespace Indexed

/-- Two positions of one full name are the same. -/
lemma position_eq (indexed : c.Indexed) {name : String} (here : c.names[i]? = some name)
    (there : c.names[j]? = some name) : i = j :=
  Option.some.inj (((indexed name i).2 here).symm.trans ((indexed name j).2 there))

/-- So no full name is listed twice. -/
lemma nodup (indexed : c.Indexed) : c.names.Nodup := by
  refine List.nodup_iff_getElem?_ne_getElem?.2 fun i j before within same => ?_
  have there := List.getElem?_eq_getElem within
  exact Nat.ne_of_lt before (indexed.position_eq (same.trans there) there)

/-- The position of a full name leads to the type listed under it. -/
lemma find?_bind_eq_some (indexed : c.Indexed) {name : String} :
    (c.positions.find? name).bind (fun i => c.types[i]?) = some t ↔
      t ∈ c.types ∧ t.fullName = name := by
  rw [Option.bind_eq_some_iff]
  constructor
  · rintro ⟨i, found, listed⟩
    have here := (names_getElem? listed).symm.trans ((indexed name i).1 found)
    exact ⟨List.mem_of_getElem? listed, Option.some.inj here⟩
  · rintro ⟨mem, rfl⟩
    obtain ⟨i, listed⟩ := List.mem_iff_getElem?.1 mem
    exact ⟨i, (indexed _ i).2 (names_getElem? listed), listed⟩

/-- A type either replaces the one of its full name, or is the first of that name and comes
last. -/
lemma place_cases (indexed : c.Indexed) (t : HostType) :
    (∃ i, c.names[i]? = some t.fullName ∧ c.place t = { c with types := c.types.set i t }) ∨
      t.fullName ∉ c.names ∧ c.place t =
        ⟨c.types ++ [t], c.positions ++ [(t.fullName, c.types.length)]⟩ := by
  unfold Catalog.place
  split
  · rename_i i found
    exact Or.inl ⟨i, (indexed _ _).1 found, rfl⟩
  · rename_i missing
    refine Or.inr ⟨fun mem => ?_, rfl⟩
    obtain ⟨i, here⟩ := List.mem_iff_getElem?.1 mem
    cases missing.symm.trans ((indexed _ _).2 here)

lemma place (indexed : c.Indexed) (t : HostType) : (c.place t).Indexed := by
  obtain ⟨i, here, eq⟩ | ⟨fresh, eq⟩ := indexed.place_cases t
  · rw [eq]
    intro name j
    rw [names_set here]
    exact indexed name j
  · rw [eq]
    intro name j
    have missing : c.positions.find? t.fullName = none :=
      Option.eq_none_iff_forall_not_mem.2 fun i found =>
        fresh (List.mem_of_getElem? ((indexed _ i).1 found))
    have length : c.names.length = c.types.length := List.length_map _
    rw [names_append, getElem?_append_singleton, Named.find?_append_singleton,
      Option.or_eq_some_iff, indexed name j, length]
    refine or_congr_right ⟨fun ⟨_, new⟩ => ?_, fun ⟨last, same⟩ => ?_⟩
    · split at new
      · rename_i same
        exact ⟨(Option.some.inj new).symm, same.symm⟩
      · cases new
    · subst last same
      exact ⟨missing, if_pos rfl⟩

end Indexed

end Place

namespace Lists

variable {c : Catalog} {visited : List HostType} {s t : HostType}

lemma start : Lists [] {} where
  indexed name i := by simp [Named.find?, Catalog.names]
  names := rfl
  last s mem := by cases mem

/-- What is listed was put into the catalog. -/
lemma mem (lists : c.Lists visited) (listed : s ∈ c.types) : s ∈ visited :=
  (List.mem_filter.1 (List.mem_of_getLast? (lists.last s listed))).1

lemma mem_names (lists : c.Lists visited) {name : String} :
    name ∈ c.names ↔ ∃ t ∈ visited, t.fullName = name := by
  rw [lists.names, List.mem_eraseDups, List.mem_map]

/-- The last type of a full name is another one after a type of that name was put in, and no
other names are concerned. -/
lemma last_append (visited : List HostType) (s t : HostType) :
    ((visited ++ [t]).filter (·.fullName == s.fullName)).getLast? =
      if t.fullName = s.fullName then some t
      else (visited.filter (·.fullName == s.fullName)).getLast? := by
  rw [List.filter_append, List.getLast?_append]
  by_cases same : t.fullName = s.fullName
  · rw [if_pos same, List.filter_cons_of_pos (by simp [same])]
    rfl
  · rw [if_neg same, List.filter_cons_of_neg (by simp [same])]
    rfl

lemma eraseDups_append_singleton (xs : List String) (x : String) :
    (xs ++ [x]).eraseDups = if x ∈ xs then xs.eraseDups else xs.eraseDups ++ [x] := by
  rw [List.eraseDups_append, List.removeAll]
  split
  · rename_i old
    simp [old]
  · rename_i new
    simp [new, List.eraseDups_cons]

/-- One more type. -/
lemma place (lists : c.Lists visited) (t : HostType) : (c.place t).Lists (visited ++ [t]) := by
  have indexed := lists.indexed.place t
  have known : t.fullName ∈ visited.map (·.fullName) ↔ t.fullName ∈ c.names := by
    rw [lists.names, List.mem_eraseDups]
  obtain ⟨i, here, eq⟩ | ⟨fresh, eq⟩ := lists.indexed.place_cases t
  · rw [eq] at indexed ⊢
    refine ⟨indexed, ?_, fun s listed => ?_⟩
    · rw [names_set here, List.map_append, List.map_singleton, eraseDups_append_singleton,
        if_pos (known.2 (List.mem_of_getElem? here)), lists.names]
    · rw [last_append]
      obtain ⟨j, there⟩ := List.mem_iff_getElem?.1 listed
      rw [List.getElem?_set] at there
      split at there
      · split at there
        · rw [Option.some.inj there, if_pos rfl]
        · cases there
      · rename_i elsewhere
        have differs : t.fullName ≠ s.fullName := fun same =>
          elsewhere (lists.indexed.position_eq here (same ▸ names_getElem? there))
        rw [if_neg differs]
        exact lists.last s (List.mem_of_getElem? there)
  · rw [eq] at indexed ⊢
    refine ⟨indexed, ?_, fun s listed => ?_⟩
    · rw [names_append, List.map_append, List.map_singleton, eraseDups_append_singleton,
        if_neg fun mem => fresh (known.1 mem), lists.names]
    · rw [last_append]
      rcases List.mem_append.1 listed with old | new
      · have differs : t.fullName ≠ s.fullName := fun same =>
          fresh (List.mem_map.2 ⟨s, old, same.symm⟩)
        rw [if_neg differs]
        exact lists.last s old
      · rw [List.mem_singleton.1 new, if_pos rfl]

/-- Any number of types. -/
lemma foldl_place (lists : c.Lists visited) (added : List HostType) :
    (added.foldl Catalog.place c).Lists (visited ++ added) := by
  induction added generalizing c visited with
  | nil => rwa [List.append_nil]
  | cons t rest ih =>
    rw [List.append_cons]
    exact ih (lists.place t)

end Lists

end ScriptBridge.Catalog
