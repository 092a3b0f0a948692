import Mathlib.Data.List.Basic
import Mathlib.Tactic.Lemma
import ScriptBridge.Script.Heap

/-!
# Tables of lists

A table that is made of a list without nils has the list as its sequence.
-/

namespace ScriptBridge.Script.Table

/-- The key of the item at a position. -/
def position (i : Nat) : Value :=
  .int (Int64.ofNat (i + 1))

lemma position_inj {i j : Nat} (bound : i < UInt64.size) (bound' : j < UInt64.size)
    (same : position i = position j) : i = j := by
  have words : BitVec.ofNat 64 (i + 1) = BitVec.ofNat 64 (j + 1) :=
    congrArg Int64.toBitVec (Value.int.inj same)
  have numbers : (i + 1) % UInt64.size = (j + 1) % UInt64.size := congrArg BitVec.toNat words
  simp only [UInt64.size] at bound bound' numbers
  omega

variable {vs : List Value}

lemma entries_ofList (filled : ∀ v ∈ vs, v.isNil = false) :
    (ofList vs).entries = vs.zipIdx.map fun (v, i) => (position i, v) := by
  have all : vs.zipIdx.filter (!·.1.isNil) = vs.zipIdx := by
    refine List.filter_eq_self.2 fun entry mem => ?_
    rw [filled entry.1 (List.fst_mem_of_mem_zipIdx mem)]
    rfl
  rw [ofList, all]
  rfl

/-- What stands under the key of a position, in a list that starts at a position. -/
lemma lookup_position (start : Nat) {i : Nat} (short : start + vs.length ≤ UInt64.size)
    (bound : i < vs.length) :
    ((vs.zipIdx start).map fun (v, i) => (position i, v)).lookup (position (start + i))
      = some vs[i] := by
  induction vs generalizing start i with
  | nil => cases bound
  | cons v vs ih =>
    rw [List.length_cons] at short bound
    rw [List.zipIdx_cons, List.map_cons]
    cases i with
    | zero => exact List.lookup_cons_self
    | succ i =>
      -- so few positions that none has the key of the first one again
      have differs : position (start + (i + 1)) ≠ position start := fun same => by
        have equal := position_inj (by omega) (by omega) same
        omega
      rw [List.lookup_cons, beq_false_of_ne differs]
      have found := ih (start + 1) (i := i) (by omega) (by omega)
      rw [Nat.add_assoc, Nat.add_comm 1 i] at found
      exact found

lemma get_ofList (filled : ∀ v ∈ vs, v.isNil = false) (short : vs.length ≤ UInt64.size) {i : Nat}
    (bound : i < vs.length) : (ofList vs).get (position i) = vs[i] := by
  have found := lookup_position 0 (by omega) bound
  rw [Nat.zero_add] at found
  rw [get, entries_ofList filled]
  exact congrArg (·.getD .nil) found

lemma lookup_beyond (vs : List Value) (start : Nat) {i : Nat} (beyond : start + vs.length ≤ i)
    (bound : i < UInt64.size) :
    ((vs.zipIdx start).map fun (v, i) => (position i, v)).lookup (position i) = none := by
  induction vs generalizing start with
  | nil => rfl
  | cons v vs ih =>
    rw [List.length_cons] at beyond
    rw [List.zipIdx_cons, List.map_cons]
    have differs : position i ≠ position start := fun same => by
      have equal := position_inj bound (by omega) same
      omega
    rw [List.lookup_cons, beq_false_of_ne differs]
    exact ih (start + 1) (by omega)

lemma get_ofList_beyond (filled : ∀ v ∈ vs, v.isNil = false) {i : Nat} (beyond : vs.length ≤ i)
    (bound : i < UInt64.size) : (ofList vs).get (position i) = .nil := by
  rw [get, entries_ofList filled]
  exact congrArg (·.getD .nil) (lookup_beyond vs 0 (by omega) bound)

/-- A table without holes has one border. -/
theorem IsBorder.eq_length {n : Nat} (border : (ofList vs).IsBorder n)
    (filled : ∀ v ∈ vs, v.isNil = false) (short : vs.length ≤ UInt64.size) : n = vs.length := by
  rcases Nat.lt_trichotomy n vs.length with less | equal | more
  · have here := border.open_ (by omega)
    rw [show Value.int (Int64.ofNat (n + 1)) = position n from rfl, get_ofList filled short less,
      filled _ (List.getElem_mem less)] at here
    cases here
  · exact equal
  · obtain ⟨last, rfl⟩ := Nat.exists_eq_add_of_lt more
    have most := border.most
    have here := border.filled (Nat.succ_ne_zero _)
    rw [show Value.int (Int64.ofNat (vs.length + last + 1)) = position (vs.length + last) from rfl,
      get_ofList_beyond filled (Nat.le_add_right _ _) (by omega)] at here
    cases here

/-- A list without nils is the sequence of its table, whichever border is the length of a table, if
64 bits are enough for the positions. -/
theorem upTo_ofList (border : Border) (filled : ∀ v ∈ vs, v.isNil = false)
    (short : vs.length ≤ UInt64.size) : (ofList vs).upTo (border.of (ofList vs)) = vs := by
  rw [(border.isBorder (ofList vs)).eq_length filled short]
  apply List.ext_getElem
  · rw [upTo, List.length_map, List.length_range]
  · intro i _ bound
    refine (List.getElem_map _).trans ?_
    rw [List.getElem_range]
    exact get_ofList filled short bound

end ScriptBridge.Script.Table
