import Mathlib.Data.List.Induction
import ScriptBridge.Proofs.Generations

/-!
# A handle table is a map

Whatever is done to a table, it answers as a map from handles to values: a handle stands for the
value it was given out for until it is released, at once or later. The free slots are the empty
ones. That holds as long as 32 bits are enough for the number of slots and for the releases of
each slot, as the generation of a slot counts these.
-/

namespace ScriptBridge.HandleTable

variable {α : Type}

/-- One use of a table. What looks into the table carries out the releases that wait. -/
inductive Use (α : Type)
  | pin (a : α)
  | resolve (handle : Handle)
  | size
  /-- A release, which waits when the table is in use. -/
  | unpin (handle : Handle) (waits : Bool)

/-- A table and what came of its uses: the handles given out, newest first, those of them that
were not released since, and the releases of the others. -/
structure Trace (α : Type) where
  table : HandleTable α := {}
  given : List (Handle × α) := []
  live : List (Handle × α) := []
  released : List Handle := []

namespace Trace

def step (r : Trace α) : Use α → Trace α
  | .pin a =>
    let (handle, table) := r.table.pin a
    { r with table, given := (handle, a) :: r.given, live := (handle, a) :: r.live }
  | .resolve _ | .size => { r with table := r.table.settle }
  | .unpin handle waits =>
    { r with
      table := if waits then r.table.unpinLater handle else r.table.unpin handle
      live := r.live.filter (·.1 ≠ handle)
      released := if handle ∈ r.live.map Prod.fst then handle :: r.released else r.released }

/-- What came of the uses of a new table. -/
def after (uses : List (Use α)) : Trace α :=
  uses.foldl step {}

/-- 32 bits are enough to number the slots and the releases of each. -/
structure Bounded (r : Trace α) : Prop where
  slots : r.table.slots.size ≤ UInt32.size
  releases : ∀ i, r.released.countP (·.index.toNat = i) < UInt32.size

variable {r : Trace α} {uses : List (Use α)} {handle : Handle} {a : α}

/-- The table keeps the live handles, and those whose release waits. Of the handles given out for a
slot all but the live one were released. -/
structure Sound (r : Trace α) : Prop where
  fits : ∃ held, Fits r.table r.given held ∧ r.live = held.filter (·.1 ∉ r.table.queued)
  counted : ∀ i, turns r.given i = r.released.countP (·.index.toNat = i) + turns r.live i

lemma Sound.start : Sound ({} : Trace α) where
  fits := ⟨[], .start, rfl⟩
  counted _ := rfl

namespace Sound

/-- Once nothing waits the table keeps just the live handles. -/
lemma settled (sound : Sound r) : Fits r.table.settle r.given r.live := by
  obtain ⟨held, fits, live⟩ := sound.fits
  rw [live]
  exact fits.settle

lemma keys (sound : Sound r) : (r.live.map Prod.fst).Nodup :=
  sound.settled.keys

lemma pin (sound : Sound r) (a : α) (bounded : (r.step (.pin a)).Bounded) :
    Sound (r.step (.pin a)) := by
  have filled := pin_filled sound.settled.holds a bounded.slots
  have turn : turns r.given (r.table.pin a).1.index.toNat < UInt32.size := by
    rw [sound.counted, filled.turns_eq_zero sound.settled.holds]
    exact bounded.releases _
  refine ⟨⟨_, sound.settled.pin a bounded.slots turn, ?_⟩, fun i => ?_⟩
  · have queued : (r.step (.pin a)).table.queued = [] := filled.queued
    rw [queued]
    simp [step]
  · have counted := sound.counted i
    simp only [step, turns_cons]
    omega

/-- What looks into the table carries out the releases that wait. -/
lemma settle (sound : Sound r) : Sound { r with table := r.table.settle } where
  fits := ⟨r.live, sound.settled, by simp [r.table.settle_queued]⟩
  counted := sound.counted

/-- A release takes its handle off the live ones, whether or not it waits. -/
lemma unpin (sound : Sound r) (handle : Handle) (waits : Bool) :
    Sound (r.step (.unpin handle waits)) where
  fits := by
    obtain ⟨held, fits, live⟩ := sound.fits
    cases waits with
    | true =>
      refine ⟨held, fits.queue _, ?_⟩
      simp only [step, live, if_true, List.filter_filter]
      refine List.filter_congr fun entry _ => ?_
      simp [unpinLater, and_comm]
    | false =>
      refine ⟨_, fits.unpin handle, ?_⟩
      have queued := (r.table.unpin_frame handle).2
      simp only [step, live, queued, List.filter_filter, Bool.false_eq_true, if_false]
      exact List.filter_congr fun entry _ => Bool.and_comm _ _
  counted i := by
    have counted := sound.counted i
    simp only [step]
    split
    · rename_i mem
      obtain ⟨⟨handle, a⟩, there, rfl⟩ := List.mem_map.1 mem
      have released := turns_filter sound.keys there i
      simp only [List.countP_cons, decide_eq_true_eq]
      omega
    · rename_i stale
      rw [List.filter_eq_self.2]
      · exact counted
      · rintro entry mem
        refine decide_eq_true ?_
        rintro rfl
        exact stale (List.mem_map.2 ⟨entry, mem, rfl⟩)

lemma step (sound : Sound r) (u : Use α) (bounded : (r.step u).Bounded) : Sound (r.step u) := by
  cases u with
  | pin a => exact sound.pin a bounded
  | resolve handle => exact sound.settle
  | size => exact sound.settle
  | unpin handle waits => exact sound.unpin handle waits

end Sound

/-- What was within bounds after a use was so before. -/
lemma Bounded.before {u : Use α} (bounded : (r.step u).Bounded) : r.Bounded := by
  obtain ⟨slots, releases⟩ := bounded
  cases u with
  | pin a => exact ⟨Nat.le_trans (r.table.size_le_pin a) slots, releases⟩
  | resolve handle => exact ⟨r.table.settle_size ▸ slots, releases⟩
  | size => exact ⟨r.table.settle_size ▸ slots, releases⟩
  | unpin handle waits =>
    refine ⟨?_, fun i => ?_⟩
    · cases waits with
      | true => exact slots
      | false => exact (r.table.unpin_frame handle).1 ▸ slots
    · refine Nat.lt_of_le_of_lt ?_ (releases i)
      simp only [Trace.step]
      split
      · exact (List.sublist_cons_self _ _).countP_le
      · exact Nat.le_refl _

lemma Bounded.of_foldl (bounded : (uses.foldl step r).Bounded) : r.Bounded := by
  induction uses generalizing r with
  | nil => exact bounded
  | cons u rest ih => exact (ih bounded).before

/-- Every use of a table within bounds keeps it sound. -/
lemma Sound.foldl (sound : Sound r) (bounded : (uses.foldl Trace.step r).Bounded) :
    Sound (uses.foldl Trace.step r) := by
  induction uses generalizing r with
  | nil => exact sound
  | cons u rest ih => exact ih (sound.step u (Bounded.of_foldl bounded)) bounded

lemma sound_after (bounded : (after uses).Bounded) : Sound (after uses) :=
  Sound.start.foldl bounded

namespace Sound

/-- A handle resolves while it is live. -/
lemma resolve?_eq_some_iff (sound : Sound r) :
    r.table.resolve? handle = some a ↔ (handle, a) ∈ r.live :=
  sound.settled.value_iff

lemma size (sound : Sound r) : r.table.size = r.live.length :=
  sound.settled.holds.live

lemma mem_free_iff (sound : Sound r) (i : Nat) :
    i ∈ r.table.free ↔ ∃ generation, r.table.slots[i]? = some ⟨generation, none⟩ := by
  obtain ⟨held, fits, -⟩ := sound.fits
  exact ⟨fits.holds.empty i, fun ⟨generation, empty⟩ => fits.free i generation empty⟩

/-- What resolves, and how much, is told by the live handles alone. -/
lemma same_answers {r' : Trace α} (sound : Sound r) (sound' : Sound r') (live : r'.live = r.live) :
    r'.table.resolve? = r.table.resolve? ∧ r'.table.size = r.table.size := by
  constructor
  · funext handle
    refine Option.ext fun a => ?_
    rw [sound.resolve?_eq_some_iff, sound'.resolve?_eq_some_iff, live]
  · rw [sound.size, sound'.size, live]

end Sound

end Trace

section Map

open Trace

variable {uses : List (Use α)} {handle : Handle} {a : α}

/-- The handle was given out for the value and was not released since. -/
def Live (uses : List (Use α)) (handle : Handle) (a : α) : Prop :=
  ∃ before later, uses = before ++ .pin a :: later ∧
    ((after before).table.pin a).1 = handle ∧ ∀ waits, Use.unpin handle waits ∉ later

lemma after_append_singleton (uses : List (Use α)) (u : Use α) :
    after (uses ++ [u]) = (after uses).step u :=
  List.foldl_concat ..

lemma live_append_singleton (uses : List (Use α)) (u : Use α) :
    Live (uses ++ [u]) handle a ↔
      u = .pin a ∧ ((after uses).table.pin a).1 = handle ∨
        Live uses handle a ∧ ∀ waits, u ≠ .unpin handle waits := by
  constructor
  · rintro ⟨before, later, split, given, kept⟩
    rcases List.eq_nil_or_concat later with rfl | ⟨later, last, rfl⟩
    · obtain ⟨rfl, eq⟩ := List.append_inj' split rfl
      cases eq
      exact Or.inl ⟨rfl, given⟩
    · rw [List.concat_eq_append] at split kept
      rw [← List.cons_append, ← List.append_assoc] at split
      obtain ⟨rfl, eq⟩ := List.append_inj' split rfl
      cases eq
      exact Or.inr ⟨⟨before, later, rfl, given, fun waits mem =>
        kept waits (List.mem_append_left _ mem)⟩, fun waits eq =>
        kept waits (List.mem_append_right _ (eq ▸ List.mem_singleton_self _))⟩
  · rintro (⟨rfl, given⟩ | ⟨⟨before, later, rfl, given, kept⟩, other⟩)
    · exact ⟨uses, [], rfl, given, fun waits => List.not_mem_nil⟩
    · refine ⟨before, later ++ [u], by simp, given, fun waits mem => ?_⟩
      rcases List.mem_append.1 mem with mem | mem
      · exact kept waits mem
      · exact other waits (List.mem_singleton.1 mem).symm

lemma mem_live_step {r : Trace α} (u : Use α) :
    (handle, a) ∈ (r.step u).live ↔
      u = .pin a ∧ (r.table.pin a).1 = handle ∨
        (handle, a) ∈ r.live ∧ ∀ waits, u ≠ .unpin handle waits := by
  cases u with
  | pin b =>
    simp only [step, List.mem_cons, Prod.mk.injEq, Use.pin.injEq]
    constructor
    · rintro (⟨rfl, rfl⟩ | mem)
      · exact Or.inl ⟨rfl, rfl⟩
      · exact Or.inr ⟨mem, by simp⟩
    · rintro (⟨rfl, rfl⟩ | ⟨mem, -⟩)
      · exact Or.inl ⟨rfl, rfl⟩
      · exact Or.inr mem
  | resolve other => simp [step]
  | size => simp [step]
  | unpin other waits =>
    have differs : (∀ w, Use.unpin (α := α) other waits ≠ .unpin handle w) ↔ handle ≠ other :=
      ⟨fun all same => all waits (same ▸ rfl), fun differs w eq => by
        cases eq
        exact differs rfl⟩
    rw [differs]
    simp [step]

/-- The live handles of a trace are those that its uses left live. -/
lemma mem_live_iff : (handle, a) ∈ (after uses).live ↔ Live uses handle a := by
  induction uses using List.reverseRecOn with
  | nil =>
    constructor
    · intro mem
      cases mem
    · rintro ⟨before, later, split, -⟩
      cases before <;> cases split
  | append_singleton uses u ih =>
    rw [after_append_singleton, mem_live_step, live_append_singleton, ih]

/-- What the table made by some uses has in common with a map. -/
structure IsMap (uses : List (Use α)) : Prop where
  /-- No handle is given out twice. -/
  fresh : ((after uses).given.map Prod.fst).Nodup
  resolve : ∀ handle a, (after uses).table.resolve? handle = some a ↔ Live uses handle a
  size : ∃ handles : List Handle, handles.Nodup ∧
    (∀ handle, handle ∈ handles ↔ ∃ a, Live uses handle a) ∧
    (after uses).table.size = handles.length
  /-- Releasing a stale handle changes no answer. At once it changes nothing at all, unless its
  release waits already; later it makes no difference to what the table is then. -/
  stale : ∀ handle, (∀ a, ¬ Live uses handle a) →
    ((after uses).table.unpin handle).resolve? = (after uses).table.resolve? ∧
    ((after uses).table.unpin handle).size = (after uses).table.size ∧
    (handle ∉ (after uses).table.queued →
      (after uses).table.unpin handle = (after uses).table) ∧
    ((after uses).table.unpinLater handle).settle = (after uses).table.settle
  free : (after uses).table.free.Nodup ∧ ∀ i, i ∈ (after uses).table.free ↔
    ∃ generation, (after uses).table.slots[i]? = some ⟨generation, none⟩

lemma unpinLater_settle (t : HandleTable α) (handle : Handle) :
    (t.unpinLater handle).settle = t.settle.unpin handle := by
  unfold settle unpinLater
  rw [List.foldl_append]
  rfl

/-- As long as 32 bits are enough to number the slots and the releases of each, a table is a map
from the handles that were given out and not released since. -/
theorem isMap_of_bounded (uses : List (Use α)) (bounded : (after uses).Bounded) : IsMap uses := by
  have sound := sound_after bounded
  obtain ⟨held, fits, live⟩ := sound.fits
  refine ⟨fits.fresh, fun handle a => ?_, ?_, fun handle stale => ?_, fits.holds.free,
    sound.mem_free_iff⟩
  · rw [sound.resolve?_eq_some_iff, mem_live_iff]
  · refine ⟨(after uses).live.map Prod.fst, sound.keys, fun handle => ?_, ?_⟩
    · simp [mem_live_iff]
    · rw [sound.size, List.length_map]
  · have stale : ∀ a, (handle, a) ∉ (after uses).live := fun a mem => stale a (mem_live_iff.1 mem)
    have released := sound.unpin handle false
    have same : ((after uses).step (.unpin handle false)).live = (after uses).live := by
      refine List.filter_eq_self.2 fun entry mem => decide_eq_true ?_
      rintro rfl
      exact stale _ mem
    obtain ⟨resolve, size⟩ := sound.same_answers released same
    refine ⟨resolve, size, fun waits => fits.unpin_stale fun a mem => stale a ?_, ?_⟩
    · rw [live]
      exact List.mem_filter.2 ⟨mem, decide_eq_true waits⟩
    · rw [unpinLater_settle, sound.settled.unpin_stale stale]

/-- A slot that is used again: a lamp is released while the table is in use, a desk takes its
place, and the lamp is released once more. -/
def reused : List (Use String) :=
  [.pin "lamp", .unpin ⟨0, 0⟩ true, .pin "desk", .unpin ⟨0, 0⟩ false]

theorem reused_isMap : (after reused).Bounded ∧ IsMap reused ∧
    (after reused).table.resolve? ⟨0, 1⟩ = some "desk" ∧
    (after reused).table.resolve? ⟨0, 0⟩ = none ∧ (after reused).table.size = 1 := by
  have bounded : (after reused).Bounded :=
    ⟨by decide, fun i => Nat.lt_of_le_of_lt List.countP_le_length (by decide)⟩
  exact ⟨bounded, isMap_of_bounded reused bounded, by decide, by decide, by decide⟩

end Map

end ScriptBridge.HandleTable
