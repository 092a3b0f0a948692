import Mathlib.Tactic.Lemma
import ScriptBridge.Host.Value

/-!
# Values in values

Only arrays have values in them. What holds of an array when it holds of its items, and of
everything else, holds of all values.
-/

namespace ScriptBridge.HostValue

/-- Induction on how deep arrays nest. -/
@[elab_as_elim]
theorem nesting {P : HostValue → Prop} (array : ∀ items, (∀ v ∈ items, P v) → P (.array items))
    (plain : ∀ v, (∀ items, v ≠ .array items) → P v) (v : HostValue) : P v := by
  cases v with
  | array items => exact array items fun v _ => nesting array plain v
  | _ => exact plain _ fun _ => HostValue.noConfusion

mutual

/-- The value and all that is in it, at any depth. -/
def parts : HostValue → List HostValue
  | array items => array items :: partsAll items
  | v => [v]

def partsAll : List HostValue → List HostValue
  | [] => []
  | v :: vs => v.parts ++ partsAll vs

end

variable {items vs : List HostValue} {v p : HostValue}

lemma mem_partsAll : p ∈ partsAll vs ↔ ∃ v ∈ vs, p ∈ v.parts := by
  induction vs with
  | nil => simp [partsAll]
  | cons v vs ih => simp [partsAll, ih]

lemma mem_parts_array : p ∈ (array items).parts ↔ p = array items ∨ ∃ v ∈ items, p ∈ v.parts := by
  rw [parts, List.mem_cons, mem_partsAll]

lemma parts_plain (plain : ∀ items, v ≠ array items) : v.parts = [v] := by
  cases v with
  | array items => exact absurd rfl (plain items)
  | _ => rfl

lemma self_mem_parts (v : HostValue) : v ∈ v.parts := by
  cases v with
  | array items => exact mem_parts_array.2 (Or.inl rfl)
  | _ => exact List.mem_singleton_self _

/-- What is in an item is in the array. -/
lemma mem_parts_of_mem (mem : v ∈ items) (part : p ∈ v.parts) : p ∈ (array items).parts :=
  mem_parts_array.2 (Or.inr ⟨v, mem, part⟩)

/-- An array has more parts than each of its items. -/
lemma length_parts_lt (mem : v ∈ items) : v.parts.length < (array items).parts.length := by
  rw [parts, List.length_cons]
  refine Nat.lt_succ_of_le ?_
  induction items with
  | nil => cases mem
  | cons w rest ih =>
    rw [partsAll, List.length_append]
    rcases List.mem_cons.1 mem with rfl | mem
    · exact Nat.le_add_right _ _
    · exact Nat.le_trans (ih mem) (Nat.le_add_left _ _)

end ScriptBridge.HostValue
