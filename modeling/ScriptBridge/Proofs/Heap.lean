import Mathlib.Tactic.Lemma
import ScriptBridge.Proofs.Marshal
import ScriptBridge.Proofs.Route

/-!
# Userdata of the heap

A userdata that is bound to a target stands for something that the target offers. Most operations
on the heap leave the userdata alone; those that make new ones make proxies of objects and types,
which are bound to nothing.
-/

namespace ScriptBridge.Script.Heap

variable (h : Heap)

@[simp]
lemma newTable_userdata (t : Table) : (h.newTable t).2.userdata = h.userdata :=
  rfl

@[simp]
lemma declare_userdata (scope : Variables) (vars : List (String × Value)) :
    (h.declare scope vars).2.userdata = h.userdata := by
  induction vars generalizing h scope with
  | nil => rfl
  | cons v rest ih =>
    obtain ⟨name, v⟩ := v
    exact ih (h.newCell v).2 _

@[simp]
lemma declare_handles (scope : Variables) (vars : List (String × Value)) :
    (h.declare scope vars).2.handles = h.handles := by
  induction vars generalizing h scope with
  | nil => rfl
  | cons v rest ih =>
    obtain ⟨name, v⟩ := v
    exact ih (h.newCell v).2 _

end ScriptBridge.Script.Heap

namespace ScriptBridge.Script

open Bridge Machine

/-- Whether a userdata is bound to a target. -/
def Userdata.isBound : Userdata → Bool
  | .methods .. | .event .. | .indexer .. => true
  | _ => false

namespace Heap

/-- Whatever is bound to a target in the second heap was there in the first one. -/
def NoNewBinding (h h' : Heap) : Prop :=
  ∀ u ∈ h'.userdata, u ∈ h.userdata ∨ u.isBound = false

namespace NoNewBinding

variable {h h' h'' : Heap}

lemma of_eq (same : h'.userdata = h.userdata) : h.NoNewBinding h' := by
  intro u mem
  rw [same] at mem
  exact Or.inl mem

lemma trans (first : h.NoNewBinding h') (second : h'.NoNewBinding h'') :
    h.NoNewBinding h'' := by
  intro u mem
  rcases second u mem with old | unbound
  · exact first u old
  · exact Or.inr unbound

lemma newUserdata (h : Heap) {u : Userdata} (unbound : u.isBound = false) :
    h.NoNewBinding (h.newUserdata u).2 := by
  intro u' mem
  rcases Array.mem_push.1 mem with old | rfl
  · exact Or.inl old
  · exact Or.inr unbound

lemma pushObject (h : Heap) (o : HostObject) : h.NoNewBinding (pushObject h o).2 :=
  (of_eq rfl).trans (newUserdata _ rfl)

lemma pushType (h : Heap) (t : HostType) : h.NoNewBinding (pushType h t).2 :=
  (of_eq rfl).trans (newUserdata _ rfl)

lemma keptByPushing (h : Heap) : KeptByPushing h.NoNewBinding where
  table _ _ made := made.trans (of_eq rfl)
  object h' o made := made.trans (pushObject h' o)
  type h' t made := made.trans (pushType h' t)

theorem push (h : Heap) (v : HostValue) : h.NoNewBinding (Bridge.push h v).2 :=
  (keptByPushing h).push h v (of_eq rfl)

theorem pushAll (h : Heap) (vs : List HostValue) : h.NoNewBinding (Bridge.pushAll h vs).2 :=
  (keptByPushing h).pushAll h vs (of_eq rfl)

lemma pushMany (limit : Nat) (h : Heap) (vs : List HostValue) :
    h.NoNewBinding (Bridge.pushMany limit h vs).2 := by
  unfold Bridge.pushMany
  split
  · exact of_eq rfl
  · exact pushAll h vs

lemma finalize (h : Heap) (id : Nat) : h.NoNewBinding (h.finalize id) := by
  intro u mem
  rcases Array.mem_or_eq_of_mem_setIfInBounds mem with old | rfl
  · exact Or.inl old
  · exact Or.inr rfl

end NoNewBinding

/-- Every userdata is bound to what its target offers. -/
def Sound (h : Heap) (r : Registry) : Prop :=
  ∀ u ∈ h.userdata, Offered r u

namespace Sound

variable {r : Registry} {h h' : Heap}

lemma userdatum (sound : h.Sound r) (id : Nat) : Offered r (h.userdatum id) := by
  unfold Heap.userdatum
  cases found : h.userdata[id]? with
  | none => trivial
  | some u => exact sound u (Array.mem_of_getElem? found)

lemma of_noNewBinding (sound : h.Sound r) (kept : h.NoNewBinding h') : h'.Sound r := by
  intro u mem
  rcases kept u mem with old | unbound
  · exact sound u old
  · cases u with
    | methods target name overloads => cases unbound
    | event target e => cases unbound
    | indexer target p => cases unbound
    | _ => trivial

lemma newUserdata (sound : h.Sound r) {u : Userdata} (offered : Offered r u) :
    (h.newUserdata u).2.Sound r := by
  intro u' mem
  rcases Array.mem_push.1 mem with old | rfl
  · exact sound u' old
  · exact offered

/-- What targets offer depends on the extension functions of the registry alone. -/
lemma of_extensions {r' : Registry} (sound : h.Sound r) (same : r'.extensions = r.extensions) :
    h.Sound r' := by
  have table (target : Target) : r'.table target = r.table target := by
    unfold Registry.table
    rw [r'.metadata_eq, r.metadata_eq]
    unfold Registry.extensionsFor
    rw [same]
  intro u mem
  have offered := sound u mem
  cases u with
  | methods target name overloads =>
    rw [Offered, table]
    exact offered
  | event target e =>
    rw [Offered, table]
    exact offered
  | indexer target p =>
    rw [Offered, table]
    exact offered
  | _ => trivial

end Sound

end Heap

end ScriptBridge.Script
