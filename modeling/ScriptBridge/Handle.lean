import ScriptBridge.Number.Power

/-!
# Generational handles

Pinning a value gives a handle to it. A slot is used again after its value is released, under a
new generation, so a stale handle resolves to nothing instead of to the new occupant.
-/

namespace ScriptBridge

/-- A slot number and the generation the slot had when the handle was given out. -/
structure Handle where
  index : UInt32
  generation : UInt32
deriving DecidableEq, Repr, Inhabited

namespace Handle

/-- Both parts in one number, the generation above. -/
def toBits (h : Handle) : UInt64 :=
  UInt64.ofNat (h.generation.toNat * Number.twoTo 32 + h.index.toNat)

def ofBits (bits : UInt64) : Handle :=
  ⟨UInt32.ofNat (bits.toNat % Number.twoTo 32), UInt32.ofNat (bits.toNat / Number.twoTo 32)⟩

def text (h : Handle) : String :=
  toString h.index.toNat ++ "v" ++ toString h.generation.toNat

end Handle

structure HandleTable.Slot (α : Type) where
  generation : UInt32
  value : Option α

/-- Slots, the numbers of the empty ones with the last released first, how many are filled, and
the handles whose release waits for the next access. -/
structure HandleTable (α : Type) where
  slots : Array (HandleTable.Slot α) := #[]
  free : List Nat := []
  live : Nat := 0
  queued : List Handle := []

namespace HandleTable

variable {α : Type}

instance : Inhabited (HandleTable α) := ⟨{}⟩

/-- The slot that a handle belongs to, if the handle is not stale. -/
def slot? (t : HandleTable α) (h : Handle) : Option (Slot α) :=
  match t.slots[h.index.toNat]? with
  | some slot => if slot.generation = h.generation then some slot else none
  | none => none

/-- Releases a handle at once; a stale one changes nothing. -/
def unpin (t : HandleTable α) (h : Handle) : HandleTable α :=
  match (t.slot? h).bind (·.value) with
  | none => t
  | some _ =>
    { t with
      slots := t.slots.setIfInBounds h.index.toNat ⟨h.generation + 1, none⟩
      free := h.index.toNat :: t.free
      live := t.live - 1 }

/-- Leaves the release of a handle to the next access, for a table that is in use. -/
def unpinLater (t : HandleTable α) (h : Handle) : HandleTable α :=
  { t with queued := t.queued ++ [h] }

/-- Carries out the releases that wait. -/
def settle (t : HandleTable α) : HandleTable α :=
  t.queued.foldl unpin { t with queued := [] }

/-- Pins a value in the slot released last, or in a new one. -/
def pin (t : HandleTable α) (value : α) : Handle × HandleTable α :=
  let t := t.settle
  match t.free with
  | i :: free =>
    let generation := (t.slots[i]?.map (·.generation)).getD 0
    (⟨UInt32.ofNat i, generation⟩,
      { t with
        slots := t.slots.setIfInBounds i ⟨generation, some value⟩
        free
        live := t.live + 1 })
  | [] =>
    (⟨UInt32.ofNat t.slots.size, 0⟩,
      { t with slots := t.slots.push ⟨0, some value⟩, live := t.live + 1 })

/-- The value a handle stands for; nothing once it was released. -/
def resolve? (t : HandleTable α) (h : Handle) : Option α :=
  (t.settle.slot? h).bind (·.value)

def size (t : HandleTable α) : Nat :=
  t.settle.live

def isEmpty (t : HandleTable α) : Bool :=
  t.size == 0

end HandleTable

end ScriptBridge
