import Mathlib.Data.List.Nodup
import Mathlib.Data.List.Perm.Subperm
import Mathlib.Tactic.Lemma
import ScriptBridge.Handle

/-!
# The slots of a handle table

The filled slots of a table are those of the handles that are held, each with the value it was
given out for. Releases that wait have a slot still, so what is held is told with them and without
them. Slot numbers have 32 bits: they can be told apart as long as there are no more slots.
-/

namespace ScriptBridge

/-- An entry can be put in front of those with other keys. -/
lemma perm_cons_filter {β γ : Type} [DecidableEq γ] {key : β → γ} {entries : List β}
    (keys : (entries.map key).Nodup) {entry : β} (mem : entry ∈ entries) :
    entries.Perm (entry :: entries.filter (key · ≠ key entry)) := by
  induction entries with
  | nil => cases mem
  | cons first rest ih =>
    obtain ⟨fresh, keys⟩ := List.nodup_cons.1 keys
    rcases List.mem_cons.1 mem with rfl | mem
    · have others : ∀ other ∈ rest, key other ≠ key entry :=
        fun other mem same => fresh (List.mem_map.2 ⟨other, mem, same⟩)
      rw [List.filter_cons_of_neg (by simp), List.filter_eq_self.2 fun other mem => by
        simpa using others other mem]
    · have differs : key first ≠ key entry :=
        fun same => fresh (List.mem_map.2 ⟨entry, mem, same.symm⟩)
      rw [List.filter_cons_of_pos (by simpa using differs)]
      exact ((ih keys mem).cons first).trans (.swap entry first _)

end ScriptBridge

namespace ScriptBridge.HandleTable

variable {α : Type} {t : HandleTable α} {held : List (Handle × α)} {handle : Handle} {a : α}

/-- The table without the value of a slot. -/
def emptied (t : HandleTable α) (handle : Handle) : HandleTable α :=
  { t with
    slots := t.slots.setIfInBounds handle.index.toNat ⟨handle.generation + 1, none⟩
    free := handle.index.toNat :: t.free
    live := t.live - 1 }

lemma unpin_eq (t : HandleTable α) (handle : Handle) :
    t.unpin handle = if ((t.slot? handle).bind (·.value)).isSome then t.emptied handle else t := by
  unfold unpin emptied
  cases (t.slot? handle).bind (·.value) <;> rfl

/-- Releasing a handle leaves the number of slots and the releases that wait alone. -/
lemma unpin_frame (t : HandleTable α) (handle : Handle) :
    (t.unpin handle).slots.size = t.slots.size ∧ (t.unpin handle).queued = t.queued := by
  rw [unpin_eq]
  split
  · exact ⟨Array.size_setIfInBounds, rfl⟩
  · exact ⟨rfl, rfl⟩

lemma foldl_unpin_frame (handles : List Handle) (t : HandleTable α) :
    (handles.foldl unpin t).slots.size = t.slots.size ∧
      (handles.foldl unpin t).queued = t.queued := by
  induction handles generalizing t with
  | nil => exact ⟨rfl, rfl⟩
  | cons handle rest ih =>
    obtain ⟨size, queued⟩ := ih (t.unpin handle)
    obtain ⟨size', queued'⟩ := t.unpin_frame handle
    exact ⟨size.trans size', queued.trans queued'⟩

lemma settle_size (t : HandleTable α) : t.settle.slots.size = t.slots.size :=
  (foldl_unpin_frame t.queued { t with queued := [] }).1

lemma settle_queued (t : HandleTable α) : t.settle.queued = [] :=
  (foldl_unpin_frame t.queued { t with queued := [] }).2

/-- The handles held have slots of their own with their values in them, and the slots in the list
of free ones are empty. -/
structure Holds (t : HandleTable α) (held : List (Handle × α)) : Prop where
  live : t.live = held.length
  slots : (held.map (·.1.index.toNat)).Nodup
  filled : ∀ entry ∈ held,
    t.slots[entry.1.index.toNat]? = some ⟨entry.1.generation, some entry.2⟩
  free : t.free.Nodup
  empty : ∀ i ∈ t.free, ∃ generation, t.slots[i]? = some ⟨generation, none⟩

/-- The handles whose release waits are held besides the others. -/
def Keeps (t : HandleTable α) (held : List (Handle × α)) : Prop :=
  ∃ waiting, waiting.map Prod.fst = t.queued ∧ Holds t (waiting ++ held)

namespace Holds

lemma start : Holds ({} : HandleTable α) [] where
  live := rfl
  slots := List.nodup_nil
  filled _ mem := by cases mem
  free := List.nodup_nil
  empty _ mem := by cases mem

/-- The order in which handles are listed does not matter. -/
lemma perm {held' : List (Handle × α)} (h : Holds t held) (same : held.Perm held') :
    Holds t held' where
  live := h.live.trans same.length_eq
  slots := (same.map _).nodup_iff.1 h.slots
  filled entry mem := h.filled entry (same.mem_iff.2 mem)
  free := h.free
  empty := h.empty

lemma slot? (h : Holds t held) (mem : (handle, a) ∈ held) :
    t.slot? handle = some ⟨handle.generation, some a⟩ := by
  unfold HandleTable.slot?
  rw [h.filled _ mem]
  exact if_pos rfl

/-- What is free is not held. -/
lemma not_mem_free (h : Holds t held) (mem : (handle, a) ∈ held) :
    handle.index.toNat ∉ t.free := by
  intro free
  obtain ⟨generation, empty⟩ := h.empty _ free
  rw [h.filled _ mem] at empty
  cases empty

/-- Releasing a handle empties its slot and no other. -/
lemma unpin (h : Holds t ((handle, a) :: held)) : Holds (t.unpin handle) held := by
  have mem : (handle, a) ∈ (handle, a) :: held := List.mem_cons_self
  obtain ⟨own, others⟩ := List.nodup_cons.1 h.slots
  have apart {i : Nat} (differs : handle.index.toNat ≠ i) :
      (t.emptied handle).slots[i]? = t.slots[i]? :=
    Array.getElem?_setIfInBounds_ne differs
  rw [unpin_eq, h.slot? mem]
  exact
    { live := by
        show t.live - 1 = held.length
        rw [h.live]
        rfl
      slots := others
      filled := fun entry among => by
        have differs : handle.index.toNat ≠ entry.1.index.toNat :=
          fun same => own (List.mem_map.2 ⟨entry, among, same.symm⟩)
        exact (apart differs).trans (h.filled entry (List.mem_cons_of_mem _ among))
      free := List.nodup_cons.2 ⟨h.not_mem_free mem, h.free⟩
      empty := fun i free => by
        rcases List.mem_cons.1 free with rfl | free
        · obtain ⟨bound, -⟩ := Array.getElem?_eq_some_iff.1 (h.filled _ mem)
          exact ⟨_, Array.getElem?_setIfInBounds_self_of_lt bound⟩
        · have differs : handle.index.toNat ≠ i := by
            rintro rfl
            exact h.not_mem_free mem free
          obtain ⟨generation, empty⟩ := h.empty i free
          exact ⟨generation, (apart differs).trans empty⟩ }

/-- Carrying out releases leaves what else is held. -/
lemma foldl_unpin (waiting : List (Handle × α)) (h : Holds t (waiting ++ held)) :
    Holds ((waiting.map Prod.fst).foldl HandleTable.unpin t) held := by
  induction waiting generalizing t with
  | nil => exact h
  | cons entry rest ih => exact ih h.unpin

/-- A value can be put in a slot that is not held. -/
lemma fill (h : Holds t held) {slots : Array (Slot α)} {free : List Nat}
    (fresh : ∀ entry ∈ held, entry.1.index.toNat ≠ handle.index.toNat)
    (own : slots[handle.index.toNat]? = some ⟨handle.generation, some a⟩)
    (others : ∀ i, i ≠ handle.index.toNat → i < t.slots.size → slots[i]? = t.slots[i]?)
    (left : ∀ i ∈ free, i ≠ handle.index.toNat ∧ i ∈ t.free) (nodup : free.Nodup) :
    Holds { t with slots, free, live := t.live + 1 } ((handle, a) :: held) where
  live := by rw [h.live, List.length_cons]
  slots := by
    refine List.nodup_cons.2 ⟨fun mem => ?_, h.slots⟩
    obtain ⟨entry, among, same⟩ := List.mem_map.1 mem
    exact fresh entry among same
  filled entry mem := by
    rcases List.mem_cons.1 mem with rfl | among
    · exact own
    · have filled := h.filled entry among
      obtain ⟨bound, -⟩ := Array.getElem?_eq_some_iff.1 filled
      exact (others _ (fresh entry among) bound).trans filled
  free := nodup
  empty i mem := by
    obtain ⟨differs, free⟩ := left i mem
    obtain ⟨generation, empty⟩ := h.empty i free
    obtain ⟨bound, -⟩ := Array.getElem?_eq_some_iff.1 empty
    exact ⟨generation, (others i differs bound).trans empty⟩

end Holds

/-- There are never fewer slots than before. -/
lemma size_le_pin (t : HandleTable α) (a : α) : t.slots.size ≤ (t.pin a).2.slots.size := by
  rw [← t.settle_size]
  unfold pin
  dsimp only
  split
  · exact Nat.le_of_eq Array.size_setIfInBounds.symm
  · exact (Array.size_push _).symm ▸ Nat.le_succ _

lemma toNat_ofNat {i : Nat} (bound : i < UInt32.size) : (UInt32.ofNat i).toNat = i :=
  Nat.mod_eq_of_lt bound

namespace Keeps

lemma settle (h : Keeps t held) : Holds t.settle held := by
  obtain ⟨waiting, queued, h⟩ := h
  unfold HandleTable.settle
  rw [← queued]
  exact Holds.foldl_unpin waiting ⟨h.live, h.slots, h.filled, h.free, h.empty⟩

lemma of_holds (h : Holds t held) (queued : t.queued = []) : Keeps t held :=
  ⟨[], queued.symm, h⟩

lemma perm {held' : List (Handle × α)} (h : Keeps t held) (same : held.Perm held') :
    Keeps t held' := by
  obtain ⟨waiting, queued, h⟩ := h
  exact ⟨waiting, queued, h.perm (same.append_left waiting)⟩

lemma size (h : Keeps t held) : t.size = held.length :=
  h.settle.live

lemma resolve? (h : Keeps t held) (mem : (handle, a) ∈ held) : t.resolve? handle = some a := by
  unfold HandleTable.resolve?
  rw [h.settle.slot? mem]
  rfl

/-- Handles that are held at once differ. -/
lemma nodup (h : Keeps t held) : (held.map Prod.fst).Nodup := by
  apply List.Nodup.of_map (fun handle : Handle => handle.index.toNat)
  rw [List.map_map]
  exact h.settle.slots

/-- Releasing one handle, at once or later, leaves what else is held. -/
lemma unpin (h : Keeps t ((handle, a) :: held)) : Keeps (t.unpin handle) held := by
  obtain ⟨waiting, queued, h⟩ := h
  refine ⟨waiting, queued.trans (t.unpin_frame handle).2.symm, Holds.unpin (a := a) (h.perm ?_)⟩
  exact List.perm_middle

lemma unpinLater (h : Keeps t ((handle, a) :: held)) : Keeps (t.unpinLater handle) held := by
  obtain ⟨waiting, queued, h⟩ := h
  refine ⟨waiting ++ [(handle, a)], ?_, ?_⟩
  · rw [List.map_append, queued]
    rfl
  · rw [List.append_assoc]
    exact ⟨h.live, h.slots, h.filled, h.free, h.empty⟩

/-- Pinning a value holds one more handle. -/
lemma pin (h : Keeps t held) (a : α) (room : (t.pin a).2.slots.size ≤ UInt32.size) :
    Keeps (t.pin a).2 (((t.pin a).1, a) :: held) := by
  have settled := h.settle
  have queued := t.settle_queued
  unfold HandleTable.pin at room ⊢
  dsimp only at room ⊢
  cases eq : t.settle.free with
  | cons i free =>
    -- the slot released last is filled again
    rw [eq] at room
    dsimp only at room ⊢
    rw [Array.size_setIfInBounds] at room
    obtain ⟨fresh, nodup⟩ := List.nodup_cons.1 (eq ▸ settled.free)
    obtain ⟨generation, empty⟩ := settled.empty i (eq ▸ List.mem_cons_self)
    obtain ⟨bound, -⟩ := Array.getElem?_eq_some_iff.1 empty
    have index := toNat_ofNat (Nat.lt_of_lt_of_le bound room)
    rw [empty]
    refine of_holds (settled.fill ?_ ?_ ?_ ?_ nodup) queued
    · intro entry among same
      apply settled.not_mem_free among
      rw [eq, same, index]
      exact List.mem_cons_self
    · rw [index]
      exact Array.getElem?_setIfInBounds_self_of_lt bound
    · intro j differs _
      exact Array.getElem?_setIfInBounds_ne fun same => differs (same.symm.trans index.symm)
    · intro j mem
      refine ⟨fun same => fresh ?_, eq ▸ List.mem_cons_of_mem i mem⟩
      rwa [← index, ← same]
  | nil =>
    rw [eq] at room
    dsimp only at room ⊢
    rw [Array.size_push] at room
    have index := toNat_ofNat (Nat.lt_of_succ_le room)
    refine of_holds (settled.fill ?_ ?_ ?_ ?_ List.nodup_nil) queued
    · intro entry among same
      obtain ⟨bound, -⟩ := Array.getElem?_eq_some_iff.1 (settled.filled entry among)
      rw [same, index] at bound
      exact Nat.lt_irrefl _ bound
    · rw [index]
      exact Array.getElem?_push_size
    · intro j _ bound
      rw [Array.getElem?_push_lt bound, Array.getElem?_eq_getElem bound]
    · intro j mem
      cases mem

/-- Where all slots are filled none is free. -/
lemma free_eq_nil (h : Keeps t held) (all : held.length = t.slots.size) : t.settle.free = [] := by
  have settled := h.settle
  have size := t.settle_size
  by_contra some
  obtain ⟨i, free⟩ := List.exists_mem_of_ne_nil _ some
  have nodup : (i :: held.map (·.1.index.toNat)).Nodup := by
    refine List.nodup_cons.2 ⟨fun mem => ?_, settled.slots⟩
    obtain ⟨entry, among, same⟩ := List.mem_map.1 mem
    exact settled.not_mem_free among (same ▸ free)
  have bound : i :: held.map (·.1.index.toNat) ⊆ List.range t.settle.slots.size := by
    intro j mem
    rw [List.mem_range]
    rcases List.mem_cons.1 mem with rfl | mem
    · obtain ⟨generation, empty⟩ := settled.empty j free
      exact (Array.getElem?_eq_some_iff.1 empty).1
    · obtain ⟨entry, among, rfl⟩ := List.mem_map.1 mem
      exact (Array.getElem?_eq_some_iff.1 (settled.filled entry among)).1
  have more := (nodup.subperm bound).length_le
  rw [List.length_cons, List.length_map, List.length_range, size] at more
  omega

/-- The bound cannot be left out: once all numbers of 32 bits are in use, the next value gets the
handle that the first slot had in its first use. -/
theorem pin_of_full (h : Keeps t held) (all : held.length = t.slots.size)
    (full : t.slots.size = UInt32.size) (a : α) : (t.pin a).1 = ⟨0, 0⟩ := by
  have free := h.free_eq_nil all
  have size : t.settle.slots.size = UInt32.size := t.settle_size.trans full
  unfold HandleTable.pin
  dsimp only
  rw [free]
  dsimp only
  rw [size]
  rfl

end Keeps

end ScriptBridge.HandleTable
