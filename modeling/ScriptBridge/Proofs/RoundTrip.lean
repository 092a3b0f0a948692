import ScriptBridge.Proofs.Arrival
import ScriptBridge.Proofs.SameValue
import ScriptBridge.Session.TableView

/-!
# There and back

A value that was pushed is pulled as an equal one once the tables that were made for its arrays are
read again. Only numbers that scripts have no place for are refused.
-/

namespace ScriptBridge.HostValue

/-- The value as scripts have it equals the value. -/
theorem same_scripted {v : HostValue} (fits : ∀ p ∈ v.parts, p.isUnscriptable = false)
    (numbers : ∀ x, float x ∈ v.parts → Number.isNaN x = false) : v.same v.scripted = true := by
  induction v using nesting with
  | array items ih =>
    rw [scripted, scriptedAll_eq]
    refine sameAll_iff.2 (List.forall₂_map_right_iff.2 (List.forall₂_same.2 fun v mem => ?_))
    exact ih v mem (fun p part => fits p (mem_parts_of_mem mem part))
      fun x part => numbers x (mem_parts_of_mem mem part)
  | plain v plain =>
    cases v with
    | array items => exact absurd rfl (plain items)
    | unsigned u =>
      exact same_of_integer? rfl (integer?_scripted (fits _ (self_mem_parts _)))
    | _ => exact same_self numbers

end ScriptBridge.HostValue

namespace ScriptBridge.Session

open Script Bridge Machine HostValue

/-- Reads the tables from a number on as arrays, and the tables in these, so many levels deep. -/
def expand (w : World) (old : Nat) : Nat → HostValue → HostValue
  | levels + 1, .table id =>
    if old ≤ id then .array ((TableView.toList w id).map (expand w old levels)) else .table id
  | _, v => v

/-- What arrived is expanded to the value as scripts have it. -/
lemma expand_of_arrives {w : World} {old : Nat} {v x : HostValue} {levels : Nat}
    (arrives : Arrives w.heap old v x) (tables : ∀ id, table id ∈ v.parts → id < old)
    (deep : v.parts.length ≤ levels) : expand w old levels x = v.scripted := by
  induction v using nesting generalizing x levels with
  | array items ih =>
    cases arrives with
    | copied plain => exact absurd rfl (plain items)
    | @array _ id made each =>
      cases levels with
      | zero => cases deep
      | succ levels =>
        have expanded : List.Forall₂ (· = ·) (items.map scripted)
            ((TableView.toList w id).map (expand w old levels)) := by
          rw [List.forall₂_map_left_iff, List.forall₂_map_right_iff]
          refine forall₂_imp_mem each fun v mem x _ arrives => (ih v mem arrives ?_ ?_).symm
          · exact fun id part => tables id (mem_parts_of_mem mem part)
          · exact Nat.le_of_lt_succ (Nat.lt_of_lt_of_le (length_parts_lt mem) deep)
        rw [List.forall₂_eq_eq_eq] at expanded
        rw [expand, if_pos made, scripted, scriptedAll_eq, expanded]
  | plain v plain =>
    cases arrives with
    | array made each => exact absurd rfl (plain _)
    | copied _ =>
      cases v with
      | array items => exact absurd rfl (plain items)
      | table id =>
        cases levels with
        | zero => rfl
        | succ levels => exact if_neg (Nat.not_le_of_lt (tables id (self_mem_parts _)))
      | _ => cases levels <;> rfl

/-- What a session pushed arrives. -/
lemma arrives_of_push {w w' : World} {v : HostValue} {x : Value}
    (tallies : ∃ proxies, w.heap.Tallies proxies) (room : w'.heap.handles.slots.size ≤ UInt32.size)
    (sequential : v.IsSequential) (pushed : w.push v = (.ok x, w')) :
    Arrives w'.heap w.heap.tables.size v (w'.pull x) := by
  obtain ⟨proxies, tallies⟩ := tallies
  have result : (Bridge.push w.heap v).1 = .ok x := congrArg Prod.fst pushed
  have heap : (Bridge.push w.heap v).2 = w'.heap := congrArg (·.2.heap) pushed
  exact push_arrives w.heap w'.heap w'.heap v tallies (Nat.le_refl _) sequential
    (Prod.ext result heap) room (.refl _)

/-- A value is refused, as one of a kind that is not supported, where a number is in it that
scripts have no place for. Any other value comes back: what was pushed for it is pulled, and its
new tables expanded, as the value with signed integers, and so as an equal one. -/
theorem push_roundTrip (w : World) (v : HostValue) :
    ((∃ e, (w.push v).1 = .error e) ↔ ∃ p ∈ v.parts, p.isUnscriptable = true) ∧
    (∀ e, (w.push v).1 = .error e → ∃ text, e = .unsupportedValueKind text) ∧
    ((∀ p ∈ v.parts, p.isUnscriptable = false) → v.IsSequential →
      (∀ x, HostValue.float x ∈ v.parts → Number.isNaN x = false) →
      (∀ id, HostValue.table id ∈ v.parts → id < w.heap.tables.size) →
      (∃ proxies, w.heap.Tallies proxies) →
      (w.push v).2.heap.handles.slots.size ≤ UInt32.size →
      ∃ x, (w.push v).1 = .ok x ∧ ∀ levels, v.parts.length ≤ levels →
        expand (w.push v).2 w.heap.tables.size levels ((w.push v).2.pull x) = v.scripted ∧
          v.same (expand (w.push v).2 w.heap.tables.size levels ((w.push v).2.pull x)) = true) := by
  refine ⟨push_error_iff w.heap v, fun e failed => push_refuses w.heap v (Prod.ext failed rfl), ?_⟩
  intro fits sequential numbers tables tallies room
  obtain ⟨x, pushed⟩ := (push_ok_iff w.heap v).2 fits
  have arrives := arrives_of_push tallies room sequential (Prod.ext pushed rfl)
  refine ⟨x, pushed, fun levels deep => ?_⟩
  have expanded : expand (w.push v).2 w.heap.tables.size levels ((w.push v).2.pull x)
      = v.scripted := expand_of_arrives arrives tables deep
  exact ⟨expanded, expanded ▸ same_scripted fits numbers⟩

/-- An array of an unsigned integer, the table of global variables and an array of an instance, its
class and a number. -/
def parcel : HostValue :=
  .array [.unsigned 7, .table 0, .array [.object device, .type device.cls, .float 0.5]]

/-- The instance and its class come back, and so does the table, which is no array. With a big
integer beside them they are refused. -/
theorem parcel_roundTrip :
    ((∀ p ∈ parcel.parts, p.isUnscriptable = false) ∧
      ∃ x, (bench.push parcel).1 = .ok x ∧
        expand (bench.push parcel).2 bench.heap.tables.size 7 ((bench.push parcel).2.pull x)
          = .array [.int 7, .table 0, .array [.object device, .type device.cls, .float 0.5]]) ∧
    ∃ text, (bench.push (.array [parcel, .big 1])).1 = .error (.unsupportedValueKind text) := by
  constructor
  · have fits : ∀ p ∈ parcel.parts, p.isUnscriptable = false := by
      simp [parcel, parts, partsAll, isUnscriptable]
      decide
    have sequential : parcel.IsSequential := by
      constructor <;> simp [parcel, parts, partsAll, HostValue.isNil]
      decide
    have numbers : ∀ x, HostValue.float x ∈ parcel.parts → Number.isNaN x = false := by
      simp [parcel, parts, partsAll]
      decide
    have tables : ∀ id, HostValue.table id ∈ parcel.parts → id < bench.heap.tables.size := by
      simp [parcel, parts, partsAll]
      decide
    obtain ⟨x, pushed, back⟩ := (push_roundTrip bench parcel).2.2 fits sequential numbers tables
      ⟨[], .start rfl rfl⟩ (by decide)
    refine ⟨fits, x, pushed, ?_⟩
    rw [(back 7 (by decide)).1]
    rfl
  · obtain ⟨refused, kind, -⟩ := push_roundTrip bench (.array [parcel, .big 1])
    have last : HostValue.big 1 ∈ (HostValue.array [parcel, .big 1]).parts :=
      mem_parts_of_mem (List.mem_cons_of_mem _ List.mem_cons_self) (self_mem_parts _)
    obtain ⟨e, failed⟩ := refused.2 ⟨_, last, rfl⟩
    obtain ⟨text, rfl⟩ := kind e failed
    exact ⟨text, failed⟩

end ScriptBridge.Session
