import ScriptBridge.Proofs.Arena

/-!
# Generations of slots

The generation of a slot is the number of its releases, which is that of the handles that were
given out for it, but for one that is held. So a slot that was not given out too often gives a
handle that was never given out before. The filled slots are those of the handles held, and all
others are free.
-/

namespace ScriptBridge.HandleTable

variable {α : Type} {t : HandleTable α} {given held : List (Handle × α)} {handle : Handle} {a : α}

/-- How many handles were given out for a slot. -/
def turns (given : List (Handle × α)) (i : Nat) : Nat :=
  given.countP (·.1.index.toNat = i)

lemma turns_cons (entry : Handle × α) (given : List (Handle × α)) (i : Nat) :
    turns (entry :: given) i = turns given i + if entry.1.index.toNat = i then 1 else 0 := by
  simp [turns, List.countP_cons]

/-- The handles held are those with a filled slot, the slots in the list of free ones are the empty
ones, and the generation of a slot counts its releases: as many as handles were given out for it,
but for the one that is held. -/
structure Fits (t : HandleTable α) (given held : List (Handle × α)) : Prop where
  holds : Holds t held
  known : ∀ i generation a, t.slots[i]? = some ⟨generation, some a⟩ →
    ∃ handle, (handle, a) ∈ held ∧ handle.index.toNat = i ∧ handle.generation = generation
  free : ∀ i generation, t.slots[i]? = some ⟨generation, none⟩ → i ∈ t.free
  empty : ∀ i generation, t.slots[i]? = some ⟨generation, none⟩ →
    generation = UInt32.ofNat (turns given i)
  filled : ∀ entry ∈ held,
    entry.1.generation + 1 = UInt32.ofNat (turns given entry.1.index.toNat)
  inside : ∀ entry ∈ given, entry.1.index.toNat < t.slots.size
  earlier : ∀ entry ∈ given, entry.1.generation.toNat < turns given entry.1.index.toNat
  fresh : (given.map Prod.fst).Nodup

lemma handle_ext {handle handle' : Handle} (index : handle.index.toNat = handle'.index.toNat)
    (generation : handle.generation = handle'.generation) : handle = handle' := by
  obtain ⟨i, g⟩ := handle
  obtain ⟨i', g'⟩ := handle'
  cases generation
  cases UInt32.toNat_inj.1 index
  rfl

/-- One handle less for the slot of an entry that is taken away. -/
lemma turns_filter {entries : List (Handle × α)} (keys : (entries.map Prod.fst).Nodup)
    (mem : (handle, a) ∈ entries) (i : Nat) :
    turns entries i = turns (entries.filter (·.1 ≠ handle)) i
      + if handle.index.toNat = i then 1 else 0 := by
  rw [← turns_cons (handle, a)]
  exact (perm_cons_filter keys mem).countP_eq _

namespace Fits

lemma start : Fits ({} : HandleTable α) [] [] where
  holds := .start
  known i generation a found := by cases found
  free i generation found := by cases found
  empty i generation found := by cases found
  filled entry mem := by cases mem
  inside entry mem := by cases mem
  earlier entry mem := by cases mem
  fresh := List.nodup_nil

/-- Handles held at once differ. -/
lemma keys (fits : Fits t given held) : (held.map Prod.fst).Nodup := by
  apply List.Nodup.of_map (fun handle : Handle => handle.index.toNat)
  rw [List.map_map]
  exact fits.holds.slots

/-- A slot is found by its handle while the handle is held. -/
lemma value_iff (fits : Fits t given held) :
    (t.slot? handle).bind (·.value) = some a ↔ (handle, a) ∈ held := by
  constructor
  · intro found
    obtain ⟨⟨generation, value⟩, slot, rfl⟩ := Option.bind_eq_some_iff.1 found
    unfold slot? at slot
    split at slot
    · rename_i other there
      split at slot
      · rename_i own
        cases slot
        obtain ⟨handle', mem, index, generation⟩ := fits.known _ _ _ there
        rwa [handle_ext index (generation.trans own)] at mem
      · cases slot
    · cases slot
  · intro mem
    rw [fits.holds.slot? mem]
    rfl

/-- Which releases wait makes no difference to the slots. -/
lemma queue (fits : Fits t given held) (queued : List Handle) :
    Fits { t with queued } given held where
  holds := ⟨fits.holds.live, fits.holds.slots, fits.holds.filled, fits.holds.free, fits.holds.empty⟩
  known := fits.known
  free := fits.free
  empty := fits.empty
  filled := fits.filled
  inside := fits.inside
  earlier := fits.earlier
  fresh := fits.fresh

/-- A stale handle changes nothing. -/
lemma unpin_stale (fits : Fits t given held) (stale : ∀ a, (handle, a) ∉ held) :
    t.unpin handle = t := by
  rw [unpin_eq, if_neg]
  intro some
  obtain ⟨a, found⟩ := Option.isSome_iff_exists.1 some
  exact stale a (fits.value_iff.1 found)

/-- A handle that is held leaves its slot empty, with the next generation. -/
lemma emptied (fits : Fits t given held) (mem : (handle, a) ∈ held) :
    Fits (t.emptied handle) given (held.filter (·.1 ≠ handle)) := by
  have holds := (fits.holds.perm (perm_cons_filter fits.keys mem)).unpin
  rw [unpin_eq, fits.value_iff.2 mem] at holds
  obtain ⟨bound, -⟩ := Array.getElem?_eq_some_iff.1 (fits.holds.filled _ mem)
  have own : (t.emptied handle).slots[handle.index.toNat]? = some ⟨handle.generation + 1, none⟩ :=
    Array.getElem?_setIfInBounds_self_of_lt bound
  have apart {i : Nat} (differs : i ≠ handle.index.toNat) :
      (t.emptied handle).slots[i]? = t.slots[i]? :=
    Array.getElem?_setIfInBounds_ne differs.symm
  exact
    { holds
      known := fun i generation b found => by
        have differs : i ≠ handle.index.toNat := by
          rintro rfl
          rw [own] at found
          cases found
        obtain ⟨handle', mem, rfl, same⟩ := fits.known i generation b (apart differs ▸ found)
        refine ⟨handle', List.mem_filter.2 ⟨mem, decide_eq_true ?_⟩, rfl, same⟩
        rintro rfl
        exact differs rfl
      free := fun i generation found => by
        by_cases same : i = handle.index.toNat
        · exact same ▸ List.mem_cons_self
        · exact List.mem_cons_of_mem _ (fits.free i generation (apart same ▸ found))
      empty := fun i generation found => by
        by_cases same : i = handle.index.toNat
        · subst same
          rw [own] at found
          cases found
          exact fits.filled _ mem
        · exact fits.empty i generation (apart same ▸ found)
      filled := fun entry mem => fits.filled entry (List.mem_filter.1 mem).1
      inside := fun entry mem => by
        have size : (t.emptied handle).slots.size = t.slots.size := Array.size_setIfInBounds
        exact size ▸ fits.inside entry mem
      earlier := fits.earlier
      fresh := fits.fresh }

lemma unpin (fits : Fits t given held) (handle : Handle) :
    Fits (t.unpin handle) given (held.filter (·.1 ≠ handle)) := by
  by_cases found : ∃ a, (handle, a) ∈ held
  · obtain ⟨a, mem⟩ := found
    rw [unpin_eq, fits.value_iff.2 mem]
    exact fits.emptied mem
  · have stale : ∀ a, (handle, a) ∉ held := fun a mem => found ⟨a, mem⟩
    rw [fits.unpin_stale stale, List.filter_eq_self.2]
    · exact fits
    · rintro ⟨other, a⟩ mem
      refine decide_eq_true ?_
      rintro rfl
      exact stale a mem

lemma foldl_unpin (handles : List Handle) (fits : Fits t given held) :
    Fits (handles.foldl HandleTable.unpin t) given (held.filter (·.1 ∉ handles)) := by
  induction handles generalizing t held with
  | nil => simpa using fits
  | cons handle rest ih =>
    have same : held.filter (·.1 ∉ handle :: rest)
        = (held.filter (·.1 ≠ handle)).filter (·.1 ∉ rest) := by
      rw [List.filter_filter]
      congr 1
      funext entry
      simp [Bool.and_comm]
    rw [same]
    exact ih (fits.unpin handle)

/-- What waits is held no longer once it is carried out. -/
lemma settle (fits : Fits t given held) :
    Fits t.settle given (held.filter (·.1 ∉ t.queued)) :=
  (fits.queue []).foldl_unpin t.queued

end Fits

lemma settle_of_queued (queued : t.queued = []) : t.settle = t := by
  unfold settle
  rw [queued]
  exact congrArg (fun waiting => { t with queued := waiting }) queued.symm

/-- Pinning starts with the releases that wait. -/
lemma settle_pin (t : HandleTable α) (a : α) : t.settle.pin a = t.pin a := by
  unfold HandleTable.pin
  rw [settle_of_queued t.settle_queued]

/-- A value was put into an empty slot, or into one behind all others. -/
structure Filled (t : HandleTable α) (handle : Handle) (a : α) (t' : HandleTable α) : Prop where
  own : t'.slots[handle.index.toNat]? = some ⟨handle.generation, some a⟩
  others : ∀ i, i ≠ handle.index.toNat → t'.slots[i]? = t.slots[i]?
  before : t.slots[handle.index.toNat]? = some ⟨handle.generation, none⟩ ∨
    t.slots.size = handle.index.toNat ∧ handle.generation = 0
  free : t.free = handle.index.toNat :: t'.free ∨ t.free = []
  queued : t'.queued = []

/-- The slot that a value is put into belongs to no handle held. -/
lemma Filled.turns_eq_zero {t' : HandleTable α} (filled : Filled t handle a t')
    (holds : Holds t held) : turns held handle.index.toNat = 0 := by
  refine List.countP_eq_zero.2 fun entry mem same => ?_
  have there := holds.filled entry mem
  rw [of_decide_eq_true same] at there
  rcases filled.before with empty | ⟨behind, -⟩
  · exact absurd (there.symm.trans empty) (by simp)
  · obtain ⟨bound, -⟩ := Array.getElem?_eq_some_iff.1 there
    omega

/-- Where a value is pinned. -/
lemma pin_filled (holds : Holds t.settle held) (a : α)
    (room : (t.pin a).2.slots.size ≤ UInt32.size) :
    Filled t.settle (t.pin a).1 a (t.pin a).2 := by
  have queued := t.settle_queued
  unfold HandleTable.pin at room ⊢
  dsimp only at room ⊢
  cases eq : t.settle.free with
  | cons i free =>
    obtain ⟨generation, empty⟩ := holds.empty i (eq ▸ List.mem_cons_self)
    obtain ⟨bound, -⟩ := Array.getElem?_eq_some_iff.1 empty
    rw [eq] at room
    dsimp only at room ⊢
    rw [Array.size_setIfInBounds] at room
    have index := toNat_ofNat (Nat.lt_of_lt_of_le bound room)
    rw [empty]
    dsimp only [Option.map_some, Option.getD_some]
    refine ⟨?_, fun j differs => ?_, Or.inl ?_, Or.inl ?_, queued⟩
    · rw [index]
      exact Array.getElem?_setIfInBounds_self_of_lt bound
    · rw [index] at differs
      exact Array.getElem?_setIfInBounds_ne differs.symm
    · rw [index, empty]
    · rw [index, eq]
  | nil =>
    rw [eq] at room
    dsimp only at room ⊢
    rw [Array.size_push] at room
    have index := toNat_ofNat (Nat.lt_of_succ_le room)
    refine ⟨?_, fun j differs => ?_, Or.inr ⟨index.symm, rfl⟩, Or.inr eq, queued⟩
    · rw [index]
      exact Array.getElem?_push_size
    · rw [index] at differs
      rw [Array.getElem?_push, if_neg differs]

/-- With nothing waiting, the handles kept are those held. -/
lemma Keeps.holds (keeps : Keeps t held) (queued : t.queued = []) : Holds t held := by
  obtain ⟨waiting, waits, holds⟩ := keeps
  rw [queued, List.map_eq_nil_iff] at waits
  subst waits
  exact holds

namespace Fits

/-- The slot that a value goes to was released as many times as it was given out. -/
lemma turn {t' : HandleTable α} (fits : Fits t given held) (filled : Filled t handle a t') :
    handle.generation = UInt32.ofNat (turns given handle.index.toNat) := by
  rcases filled.before with empty | ⟨behind, first⟩
  · exact fits.empty _ _ empty
  · have none : turns given handle.index.toNat = 0 := by
      refine List.countP_eq_zero.2 fun entry mem here => ?_
      have inside := fits.inside entry mem
      have here := of_decide_eq_true here
      omega
    rw [first, none]
    rfl

/-- A slot that was not given out too many times gives a handle that was not given out before. -/
lemma not_given {t' : HandleTable α} (fits : Fits t given held) (filled : Filled t handle a t')
    (turn : turns given handle.index.toNat < UInt32.size) : handle ∉ given.map Prod.fst := by
  intro mem
  obtain ⟨entry, given, rfl⟩ := List.mem_map.1 mem
  have earlier := fits.earlier entry given
  rw [fits.turn filled, toNat_ofNat turn] at earlier
  exact Nat.lt_irrefl _ earlier

lemma fill {t' : HandleTable α} (fits : Fits t given held) (filled : Filled t handle a t')
    (holds : Holds t' ((handle, a) :: held)) (size : t.slots.size ≤ t'.slots.size)
    (turn : turns given handle.index.toNat < UInt32.size) :
    Fits t' ((handle, a) :: given) ((handle, a) :: held) where
  holds := holds
  known i generation b found := by
    by_cases same : i = handle.index.toNat
    · subst same
      rw [filled.own] at found
      cases found
      exact ⟨handle, List.mem_cons_self, rfl, rfl⟩
    · rw [filled.others i same] at found
      obtain ⟨handle', mem, there⟩ := fits.known i generation b found
      exact ⟨handle', List.mem_cons_of_mem _ mem, there⟩
  free i generation found := by
    have differs : i ≠ handle.index.toNat := by
      rintro rfl
      rw [filled.own] at found
      cases found
    rw [filled.others i differs] at found
    have free := fits.free i generation found
    rcases filled.free with eq | eq
    · rw [eq] at free
      exact (List.mem_cons.1 free).resolve_left differs
    · rw [eq] at free
      cases free
  empty i generation found := by
    have differs : i ≠ handle.index.toNat := by
      rintro rfl
      rw [filled.own] at found
      cases found
    rw [filled.others i differs] at found
    rw [turns_cons, if_neg (Ne.symm differs)]
    exact fits.empty i generation found
  filled entry mem := by
    rcases List.mem_cons.1 mem with rfl | mem
    · rw [turns_cons, if_pos rfl, UInt32.ofNat_add, ← fits.turn filled]
      rfl
    · have differs : handle.index.toNat ≠ entry.1.index.toNat := by
        intro same
        exact (List.nodup_cons.1 holds.slots).1 (List.mem_map.2 ⟨entry, mem, same.symm⟩)
      rw [turns_cons, if_neg differs]
      exact fits.filled entry mem
  inside entry mem := by
    rcases List.mem_cons.1 mem with rfl | mem
    · exact (Array.getElem?_eq_some_iff.1 filled.own).1
    · exact Nat.lt_of_lt_of_le (fits.inside entry mem) size
  earlier entry mem := by
    rw [turns_cons]
    rcases List.mem_cons.1 mem with rfl | mem
    · rw [if_pos rfl, fits.turn filled, toNat_ofNat turn]
      exact Nat.lt_succ_self _
    · exact Nat.lt_add_right _ (fits.earlier entry mem)
  fresh := List.nodup_cons.2 ⟨fits.not_given filled turn, fits.fresh⟩

/-- Pinning a value holds one more handle, which was not given out before. -/
lemma pin (fits : Fits t.settle given held) (a : α)
    (room : (t.pin a).2.slots.size ≤ UInt32.size)
    (turn : turns given (t.pin a).1.index.toNat < UInt32.size) :
    Fits (t.pin a).2 (((t.pin a).1, a) :: given) (((t.pin a).1, a) :: held) := by
  have filled := pin_filled fits.holds a room
  have keeps : Keeps t.settle held := .of_holds fits.holds t.settle_queued
  rw [← t.settle_pin] at room filled turn ⊢
  exact fits.fill filled ((keeps.pin a room).holds filled.queued) (t.settle.size_le_pin a) turn

end Fits

end ScriptBridge.HandleTable
