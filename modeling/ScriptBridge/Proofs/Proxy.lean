import Mathlib.Tactic.Lemma
import ScriptBridge.Proofs.Arena
import ScriptBridge.Bridge.Marshal

/-!
# Proxies of objects and types

Work on a heap makes proxies and other userdata but collects none. A ledger lists the proxies that
it makes, each with what it was made for. Pushing a value makes proxies for the objects and types in
it, in order, up to where it fails.
-/

namespace ScriptBridge.Script

open Bridge

/-- The handle that a proxy of an object or type has. -/
def Userdata.handle? : Userdata → Option Handle
  | .object handle | .type handle => some handle
  | _ => none

/-- Proxies in the order in which they were made, with what each was made for. -/
abbrev Ledger := List (Nat × Pinned)

namespace Heap

/-- Work that makes these proxies. -/
inductive Makes : Heap → Ledger → Heap → Prop
  | quiet {h h' : Heap} (userdata : h'.userdata = h.userdata) (handles : h'.handles = h.handles) :
      Makes h [] h'
  | object (h : Heap) (o : HostObject) :
      Makes h [(h.userdata.size, .object o)] (pushObject h o).2
  | type (h : Heap) (t : HostType) : Makes h [(h.userdata.size, .type t)] (pushType h t).2
  | other (h : Heap) {u : Userdata} (none : u.handle? = none) : Makes h [] (h.newUserdata u).2
  | trans {h h' h'' : Heap} {made more : Ledger} (first : Makes h made h')
      (second : Makes h' more h'') : Makes h (made ++ more) h''

namespace Makes

variable {h h' : Heap} {made : Ledger}

lemma refl (h : Heap) : h.Makes [] h :=
  .quiet rfl rfl

/-- There are never fewer slots than before. -/
lemma slots_le (makes : h.Makes made h') : h.handles.slots.size ≤ h'.handles.slots.size := by
  induction makes with
  | quiet _ handles => exact Nat.le_of_eq (congrArg (·.slots.size) handles).symm
  | object h o => exact h.handles.size_le_pin _
  | type h t => exact h.handles.size_le_pin _
  | other h none => exact Nat.le_refl _
  | trans _ _ first second => exact Nat.le_trans first second

/-- Work after a change that concerns no userdata. -/
lemma after {heap : Heap} (makes : heap.Makes made h') (userdata : heap.userdata = h.userdata)
    (handles : heap.handles = h.handles) : h.Makes made h' :=
  .trans (.quiet userdata handles) makes

lemma declare (h : Heap) (scope : Variables) (vars : List (String × Value)) :
    h.Makes [] (h.declare scope vars).2 := by
  induction vars generalizing h scope with
  | nil => exact refl h
  | cons v rest ih =>
    obtain ⟨name, v⟩ := v
    have others := ih (h.newCell v).2 ((name, (h.newCell v).1) :: scope)
    exact others.after rfl rfl

end Makes

end Heap

section Push

open Heap

mutual

/-- The objects and types in a value, in the order in which they are pushed. -/
def pins : HostValue → List Pinned
  | .array items => pinsAll items
  | .object o => [.object o]
  | .type t => [.type t]
  | _ => []

def pinsAll : List HostValue → List Pinned
  | [] => []
  | v :: rest => pins v ++ pinsAll rest

end

/-- Work that comes to a result has made proxies for what was to be pinned, and some of them when
it failed. -/
def Pins {α : Type} (h : Heap) (pinned : List Pinned) (result : Except BridgeError α × Heap) :
    Prop :=
  ∃ made, h.Makes made result.2 ∧ made.map Prod.snd <+: pinned ∧
    ∀ a, result.1 = .ok a → made.map Prod.snd = pinned

namespace Pins

variable {α β : Type} {h : Heap} {pinned more : List Pinned}

lemma none (result : Except BridgeError α) : Pins h [] (result, h) :=
  ⟨[], .refl h, List.prefix_rfl, fun _ _ => rfl⟩

/-- What is made of a result may be kept in the heap, where it concerns no userdata. -/
lemma ok {h' h'' : Heap} {a : α} {b : β} (first : Pins h pinned (.ok a, h'))
    (userdata : h''.userdata = h'.userdata) (handles : h''.handles = h'.handles) :
    Pins h pinned (.ok b, h'') := by
  obtain ⟨made, makes, before, all⟩ := first
  have makes' : h.Makes (made ++ []) h'' := makes.trans (.quiet userdata handles)
  rw [List.append_nil] at makes'
  exact ⟨made, makes', before, fun _ _ => all a rfl⟩

/-- A failure may come with fewer proxies than were to be made. -/
lemma error {h' : Heap} {e : BridgeError} (first : Pins h pinned ((.error e : Except _ α), h'))
    (more : List Pinned) : Pins h (pinned ++ more) ((.error e : Except _ β), h') := by
  obtain ⟨made, makes, before, -⟩ := first
  exact ⟨made, makes, before.trans (List.prefix_append _ _), fun _ eq => by cases eq⟩

lemma andThen {h' : Heap} {a : α} {result : Except BridgeError β × Heap}
    (first : Pins h pinned (.ok a, h')) (second : Pins h' more result) :
    Pins h (pinned ++ more) result := by
  obtain ⟨made, makes, -, all⟩ := first
  obtain ⟨made', makes', before, all'⟩ := second
  have here := all a rfl
  refine ⟨made ++ made', makes.trans makes', ?_, fun b eq => ?_⟩
  · rw [List.map_append, here]
    exact (List.prefix_append_right_inj _).2 before
  · rw [List.map_append, here, all' b eq]

end Pins

mutual

theorem push_pins (h : Heap) (v : HostValue) : Pins h (pins v) (push h v) := by
  cases v with
  | unsigned u =>
    unfold push
    split <;> exact .none _
  | array items =>
    have pushed := pushAll_pins h items
    unfold push pins
    split
    · rename_i vs h' eq
      rw [eq] at pushed
      exact pushed.ok rfl rfl
    · rename_i eq
      rw [eq] at pushed
      rw [← List.append_nil (pinsAll items)]
      exact pushed.error []
  | object o => exact ⟨_, .object h o, List.prefix_rfl, fun _ _ => rfl⟩
  | type t => exact ⟨_, .type h t, List.prefix_rfl, fun _ _ => rfl⟩
  | _ => exact .none _

theorem pushAll_pins (h : Heap) (vs : List HostValue) :
    Pins h (pinsAll vs) (pushAll h vs) := by
  cases vs with
  | nil => exact .none _
  | cons v rest =>
    have first := push_pins h v
    unfold pushAll pinsAll
    split
    · rename_i eq
      rw [eq] at first
      exact first.error _
    · rename_i h' eq
      rw [eq] at first
      have others := pushAll_pins h' rest
      split
      · rename_i eq
        rw [eq] at others
        exact first.andThen others
      · rename_i eq
        rw [eq] at others
        exact first.andThen (others.ok rfl rfl)

end

lemma pushMany_pins (limit : Nat) (h : Heap) (vs : List HostValue) :
    Pins h (pinsAll vs) (pushMany limit h vs) := by
  unfold pushMany
  split
  · exact ⟨[], .refl h, List.nil_prefix, fun a eq => by cases eq⟩
  · exact pushAll_pins h vs

end Push

end ScriptBridge.Script
