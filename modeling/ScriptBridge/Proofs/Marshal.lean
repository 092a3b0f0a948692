import Mathlib.Tactic.Lemma
import ScriptBridge.Bridge.Marshal
import ScriptBridge.Proofs.Nested

/-!
# Pushing values

Pushing a value only adds to the heap. It fails where there is a number in the value that scripts
have no place for, at whatever depth, and for no other reason.
-/

/-- A text is itself again when it is read from its bytes. -/
lemma ScriptBridge.Text.decode_toUTF8 (text : String) : Text.decode text.toUTF8 = text := by
  have valid : String.fromUTF8? text.toUTF8 = some text := dif_pos text.isValidUTF8
  unfold Text.decode
  rw [valid]

namespace ScriptBridge.Bridge

open Script

/-- What new tables of items and new proxies keep. -/
structure KeptByPushing (P : Heap → Prop) : Prop where
  table (h : Heap) (vs : List Value) (start : P h) : P (h.newTable (.ofList vs)).2
  object (h : Heap) (o : HostObject) (start : P h) : P (pushObject h o).2
  type (h : Heap) (t : HostType) (start : P h) : P (pushType h t).2

namespace KeptByPushing

variable {P : Heap → Prop}

mutual

/-- Pushing a value makes nothing but tables and proxies. -/
theorem push (kept : KeptByPushing P) (h : Heap) (v : HostValue) (start : P h) :
    P (Bridge.push h v).2 := by
  cases v with
  | unsigned u =>
    unfold Bridge.push
    split <;> exact start
  | array items =>
    have made := pushAll kept h items start
    unfold Bridge.push
    split
    · rename_i vs h' eq
      rw [eq] at made
      exact kept.table h' vs made
    · rename_i eq
      rw [eq] at made
      exact made
  | object o => exact kept.object h o start
  | type t => exact kept.type h t start
  | _ => exact start

theorem pushAll (kept : KeptByPushing P) (h : Heap) (vs : List HostValue) (start : P h) :
    P (Bridge.pushAll h vs).2 := by
  cases vs with
  | nil => exact start
  | cons v rest =>
    have made := push kept h v start
    unfold Bridge.pushAll
    split
    · rename_i eq
      rw [eq] at made
      exact made
    · rename_i h' eq
      rw [eq] at made
      have others := pushAll kept h' rest made
      split
      · rename_i eq
        rw [eq] at others
        exact others
      · rename_i eq
        rw [eq] at others
        exact others

end

end KeptByPushing

end ScriptBridge.Bridge

namespace ScriptBridge.Script

open Bridge

/-- What was in the heap is there as it was; tables and userdata may be new. -/
structure Heap.Extends (h h' : Heap) : Prop where
  tables : h.tables.toList <+: h'.tables.toList
  cells : h'.cells = h.cells
  closures : h'.closures = h.closures
  userdata : h.userdata.toList <+: h'.userdata.toList

namespace Heap.Extends

variable {h h' h'' : Heap}

lemma refl (h : Heap) : h.Extends h :=
  ⟨List.prefix_rfl, rfl, rfl, List.prefix_rfl⟩

lemma trans (first : h.Extends h') (second : h'.Extends h'') : h.Extends h'' where
  tables := first.tables.trans second.tables
  cells := second.cells.trans first.cells
  closures := second.closures.trans first.closures
  userdata := first.userdata.trans second.userdata

lemma newTable (h : Heap) (t : Table) : h.Extends (h.newTable t).2 where
  tables := by simp [Heap.newTable]
  cells := rfl
  closures := rfl
  userdata := List.prefix_rfl

lemma pin (h : Heap) (handles : HandleTable Pinned) (u : Userdata) :
    h.Extends ({ h with handles }.newUserdata u).2 where
  tables := List.prefix_rfl
  cells := rfl
  closures := rfl
  userdata := by simp [Heap.newUserdata]

lemma keptByPushing (h : Heap) : KeptByPushing h.Extends where
  table h' vs made := made.trans (newTable h' (.ofList vs))
  object _ _ made := made.trans (pin _ _ _)
  type _ _ made := made.trans (pin _ _ _)

theorem push (h : Heap) (v : HostValue) : h.Extends (Bridge.push h v).2 :=
  (keptByPushing h).push h v (refl h)

theorem pushAll (h : Heap) (vs : List HostValue) : h.Extends (Bridge.pushAll h vs).2 :=
  (keptByPushing h).pushAll h vs (refl h)

end Heap.Extends

end ScriptBridge.Script

namespace ScriptBridge

/-- Whether the value is a big integer, or an integer above those of scripts. -/
def HostValue.isUnscriptable : HostValue → Bool
  | big _ => true
  | unsigned u => Number.twoTo 63 ≤ u.toNat
  | _ => false

namespace Bridge

open Script

mutual

/-- Values are refused for their kind. -/
theorem push_refuses (h : Heap) (v : HostValue) {e : BridgeError} {h' : Heap}
    (refused : push h v = (.error e, h')) : ∃ text, e = .unsupportedValueKind text := by
  cases v with
  | unsigned u =>
    unfold push at refused
    split at refused <;> cases refused
    exact ⟨_, rfl⟩
  | big n =>
    cases refused
    exact ⟨_, rfl⟩
  | array items =>
    unfold push at refused
    split at refused
    · cases refused
    · rename_i eq
      cases refused
      exact pushAll_refuses h items eq
  | _ => cases refused

theorem pushAll_refuses (h : Heap) (vs : List HostValue) {e : BridgeError} {h' : Heap}
    (refused : pushAll h vs = (.error e, h')) : ∃ text, e = .unsupportedValueKind text := by
  cases vs with
  | nil => cases refused
  | cons v rest =>
    unfold pushAll at refused
    split at refused
    · rename_i eq
      cases refused
      exact push_refuses h v eq
    · rename_i h' eq
      split at refused
      · rename_i eq
        cases refused
        exact pushAll_refuses h' rest eq
      · cases refused

end

mutual

/-- A value is refused for what is in it. -/
theorem push_error_iff (h : Heap) (v : HostValue) :
    (∃ e, (push h v).1 = .error e) ↔ ∃ p ∈ v.parts, p.isUnscriptable = true := by
  cases v with
  | unsigned u =>
    rw [HostValue.parts_plain (fun _ => HostValue.noConfusion)]
    unfold push
    split
    · rename_i fits
      simpa [HostValue.isUnscriptable] using fits
    · rename_i large
      simpa [HostValue.isUnscriptable] using large
  | big n => exact ⟨fun _ => ⟨.big n, HostValue.self_mem_parts _, rfl⟩, fun _ => ⟨_, rfl⟩⟩
  | array items =>
    have pushed := pushAll_error_iff h items
    have parts : (∃ p ∈ (HostValue.array items).parts, p.isUnscriptable = true) ↔
        ∃ p ∈ HostValue.partsAll items, p.isUnscriptable = true := by
      simp [HostValue.parts, HostValue.isUnscriptable]
    rw [parts, ← pushed]
    unfold push
    split <;> rename_i eq <;> simp [eq]
  | _ =>
    rw [HostValue.parts_plain (fun _ => HostValue.noConfusion)]
    simp [push, HostValue.isUnscriptable]

theorem pushAll_error_iff (h : Heap) (vs : List HostValue) :
    (∃ e, (pushAll h vs).1 = .error e) ↔
      ∃ p ∈ HostValue.partsAll vs, p.isUnscriptable = true := by
  cases vs with
  | nil => simp [pushAll, HostValue.partsAll]
  | cons v rest =>
    have first := push_error_iff h v
    have parts : (∃ p ∈ HostValue.partsAll (v :: rest), p.isUnscriptable = true) ↔
        (∃ p ∈ v.parts, p.isUnscriptable = true) ∨
          ∃ p ∈ HostValue.partsAll rest, p.isUnscriptable = true := by
      simp [HostValue.partsAll, or_and_right, exists_or]
    rw [parts, ← first]
    unfold pushAll
    split
    · rename_i eq
      simp [eq]
    · rename_i h' eq
      rw [← pushAll_error_iff h' rest]
      split <;> rename_i others <;> simp [eq, others]

end

/-- A value is pushed if nothing in it is refused. -/
theorem push_ok_iff (h : Heap) (v : HostValue) :
    (∃ x, (push h v).1 = .ok x) ↔ ∀ p ∈ v.parts, p.isUnscriptable = false := by
  have refused : (∃ p ∈ v.parts, p.isUnscriptable = true) ↔ ∃ e, (push h v).1 = .error e :=
    (push_error_iff h v).symm
  have none : (∀ p ∈ v.parts, p.isUnscriptable = false) ↔
      ¬ ∃ p ∈ v.parts, p.isUnscriptable = true := by simp
  rw [none, refused]
  cases (push h v).1 <;> simp

end Bridge

end ScriptBridge
