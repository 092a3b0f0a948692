import Mathlib.Tactic.Lemma
import ScriptBridge.Bridge.Body
import ScriptBridge.Proofs.Result

/-!
# What a body assigns

A body changes its call by assigning slots, and by nothing else. `assigned` lists what it assigns
when it runs to its end, in order; after that a slot holds what was assigned to it last, or what it
held before.
-/

namespace ScriptBridge.Bridge

namespace Invocation

variable {inv : Invocation} {i j : Nat} {v : HostValue} {sets : List (Nat × HostValue)}

/-- Assigns slots one after another. -/
def setSlots (inv : Invocation) (sets : List (Nat × HostValue)) : Invocation :=
  sets.foldl (fun inv (i, v) => inv.setSlot i v) inv

@[simp]
lemma setSlots_cons (inv : Invocation) (i : Nat) (v : HostValue) (sets : List (Nat × HostValue)) :
    inv.setSlots ((i, v) :: sets) = (inv.setSlot i v).setSlots sets :=
  rfl

lemma setSlots_append (inv : Invocation) (sets sets' : List (Nat × HostValue)) :
    inv.setSlots (sets ++ sets') = (inv.setSlots sets).setSlots sets' :=
  List.foldl_append

@[simp]
lemma member_setSlots (inv : Invocation) (sets : List (Nat × HostValue)) :
    (inv.setSlots sets).member = inv.member := by
  induction sets generalizing inv with
  | nil => rfl
  | cons set sets ih => exact ih (inv.setSlot set.1 set.2)

/-- Slots that are missing are read as nil, so putting nil there makes no difference. -/
lemma getD_pad (slots : List HostValue) (n j : Nat) :
    ((slots ++ List.replicate n HostValue.nil)[j]?).getD .nil = (slots[j]?).getD .nil := by
  rw [List.getElem?_append]
  split
  · rfl
  · rename_i beyond
    rw [List.getElem?_eq_none (Nat.le_of_not_lt beyond), List.getElem?_replicate]
    split <;> rfl

lemma slot_setSlot : (inv.setSlot i v).slot j = if j = i then v else inv.slot j := by
  have covered : i < (inv.slots ++
      List.replicate (i + 1 - inv.slots.length) HostValue.nil).length := by
    rw [List.length_append, List.length_replicate]
    omega
  unfold setSlot slot
  dsimp only
  by_cases same : j = i
  · subst same
    rw [List.getElem?_set_self covered, if_pos rfl, Option.getD_some]
  · rw [List.getElem?_set_ne (Ne.symm same), if_neg same, getD_pad]

/-- Each slot holds what was assigned to it last, or what it held before. -/
theorem slot_setSlots :
    (inv.setSlots sets).slot j = (sets.reverse.lookup j).getD (inv.slot j) := by
  induction sets generalizing inv with
  | nil => rfl
  | cons set sets ih =>
    obtain ⟨i, v⟩ := set
    rw [setSlots_cons, ih, slot_setSlot, List.reverse_cons, List.lookup_append]
    cases sets.reverse.lookup j with
    | some w => rfl
    | none =>
      rw [Option.getD_none, Option.none_or]
      by_cases same : j = i
      · simp [same]
      · rw [if_neg same, List.lookup_cons, beq_false_of_ne same]
        rfl

end Invocation

mutual

/-- What a body assigns when it runs to its end, in order. -/
def assigned : Body → Invocation → List (Nat × HostValue)
  | .assign sets _, inv => sets.map fun (i, o) => (i, inv.operand o)
  | .hold _ body, inv => assigned body inv
  | .sequence bodies, inv => allAssigned bodies inv
  | _, _ => []

/-- What bodies assign that run one after another. -/
def allAssigned : List Body → Invocation → List (Nat × HostValue)
  | [], _ => []
  | b :: rest, inv => assigned b inv ++ allAssigned rest (inv.setSlots (assigned b inv))

end

namespace Invocation

/-- The call when the body has run to its end. -/
def after (inv : Invocation) (b : Body) : Invocation :=
  inv.setSlots (assigned b inv)

/-- The call when bodies have run to their ends. -/
def afterAll (inv : Invocation) (bodies : List Body) : Invocation :=
  inv.setSlots (allAssigned bodies inv)

lemma afterAll_cons (inv : Invocation) (b : Body) (rest : List Body) :
    inv.afterAll (b :: rest) = (inv.after b).afterAll rest := by
  unfold afterAll
  rw [allAssigned, setSlots_append]
  rfl

lemma after_sequence (inv : Invocation) (bodies : List Body) :
    inv.after (.sequence bodies) = inv.afterAll bodies := by
  unfold after afterAll
  rw [assigned]

lemma after_hold (inv : Invocation) (mode : BorrowMode) (body : Body) :
    inv.after (.hold mode body) = inv.after body := by
  unfold after
  rw [assigned]

end Invocation

/-- With the next piece of its work done, the body is still to leave its call so. -/
def BodyStep.Leaves (inv left : Invocation) : BodyStep → Prop
  | .finished _ inv' => inv' = left
  | .failed _ => True
  | .hold _ _ body => inv.after body = left
  | .sequence bodies => inv.afterAll bodies = left
  | _ => inv = left

lemma ended_leaves {inv left : Invocation} {r : BodyEnd}
    (leaves : ∀ v inv' s, r = .ok (v, inv', s) → inv' = left) (s : Store) :
    (ended s r).1.Leaves inv left := by
  cases r with
  | error failure => trivial
  | ok r => exact leaves r.1 r.2.1 r.2.2 rfl

/-- Every body starts on leaving its call as it assigns it. -/
theorem startBody_leaves (s : Store) (inv : Invocation) (b : Body) :
    (startBody s inv b).1.Leaves inv (inv.after b) := by
  cases b with
  | sequence bodies => exact (Invocation.after_sequence inv bodies).symm
  | hold mode body =>
    rw [startBody]
    split
    · trivial
    · split
      · exact (Invocation.after_hold inv mode body).symm
      · trivial
  | constructSums fields =>
    refine ended_leaves (fun v inv' s' ok => ?_) s
    obtain ⟨sums, -, ok⟩ := bind_eq_ok.1 ok
    cases ok
    rfl
  | getData name | setData name v | addData name v =>
    refine ended_leaves (fun v inv' s' ok => ?_) s
    obtain ⟨o, -, ok⟩ := bind_eq_ok.1 ok
    obtain ⟨done, -, ok⟩ := bind_eq_ok.1 ok
    cases ok
    rfl
  | borrowAsInteger =>
    refine ended_leaves (fun v inv' s' ok => ?_) s
    obtain ⟨o, -, ok⟩ := bind_eq_ok.1 ok
    cases ok
  | fieldOf i name | convert i representation | typeArgumentName i | typeArgument i
  | targetClassName | target =>
    refine ended_leaves (fun v inv' s' ok => ?_) s
    obtain ⟨found, -, ok⟩ := bind_eq_ok.1 ok
    cases ok
    rfl
  | emit event o =>
    rw [startBody]
    split
    · rfl
    · split
      · rfl
      · trivial
  | callBack i args =>
    rw [startBody]
    split
    · rfl
    · trivial
  | environment i =>
    rw [startBody]
    split
    · rfl
    · trivial
  | fail message | failArgument message | panic p => trivial
  | _ => rfl

end ScriptBridge.Bridge
