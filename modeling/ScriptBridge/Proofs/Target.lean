import Mathlib.Tactic.Lemma
import ScriptBridge.Proofs.Reach

/-!
# Targets of host code

The body or accessor of a member that belongs to instances works on an instance whose class has the
class that declares the member in its chain; the one of a static member works on no instance, and
an extension function that was found on an instance has that instance in its first slot.
-/

namespace ScriptBridge.Registry

lemma extended_eq_some {m : Method} {name : String} (h : extended? m = some name) :
    m.isExtension = true ∧ ∃ p rest, m.params = p :: rest ∧ p.kind = .object name := by
  unfold extended? at h
  split at h
  · rename_i extension
    split at h
    · rename_i p rest eq
      cases h
      exact ⟨extension, _, _, eq, rfl⟩
    · cases h
  · cases h

/-- The class that an extension function extends is a class whatever its type parameters are. -/
lemma extended_instantiate {m : Method} {name : String} (kinds : List Kind)
    (h : extended? m = some name) : extended? (m.instantiate kinds) = some name := by
  obtain ⟨extension, ⟨pname, kind, mode, default⟩, rest, params, eq⟩ := extended_eq_some h
  cases eq
  unfold extended? Method.instantiate
  dsimp only
  rw [extension, params]
  rfl

end ScriptBridge.Registry

namespace ScriptBridge.Bridge

/-- The method is an extension function for a class of the instance, which is in its first slot. -/
def Invocation.Extends (inv : Invocation) (o : HostObject) : Prop :=
  inv.slots[0]? = some (.object o) ∧
    ∃ name, Registry.extended? inv.member.item = some name ∧ o.cls.isSubtypeOf name = true

/-- A method gets the target that it calls for. Extension functions are static methods; one that is
declared for instances all the same is called on those of its own class and of the one that it
extends. -/
structure Invocation.Aimed (inv : Invocation) : Prop where
  instance_ : inv.member.item.isStatic = false → inv.member.item.isExtension = false →
    ∃ o, inv.target = some o ∧ inv.member.owner ∈ o.cls.chain
  static : inv.member.item.isStatic = true → inv.member.item.isExtension = false →
    inv.target = none
  extension : inv.member.item.isStatic = true → inv.member.item.isExtension = true →
    ∀ o, inv.target = some o → inv.Extends o
  instanceExtension : inv.member.item.isStatic = false → inv.member.item.isExtension = true →
    ∃ o, inv.target = some o ∧ (inv.member.owner ∈ o.cls.chain ∨ inv.Extends o)

/-- An accessor gets the target that it calls for. -/
structure Accessor.Aimed (accessor : Accessor) (target : Option HostObject) : Prop where
  instance_ : accessor.isStatic = false → ∃ o, target = some o ∧ accessor.owner ∈ o.cls.chain
  static : accessor.isStatic = true → target = none

def HostCode.Aimed : HostCode → Prop
  | .method inv => inv.Aimed
  | .access target _ accessor => accessor.Aimed target.object?

/-- A member declared in the chain of a target and on the same side as it is aimed right. -/
lemma Invocation.Aimed.of_declared {inv : Invocation} {target : Target}
    (aim : inv.target = target.object?) (chain : inv.member.owner ∈ target.cls.chain)
    (same : inv.member.item.isStatic = target.isStatic) : inv.Aimed := by
  cases target with
  | object o =>
    have working : inv.member.item.isStatic ≠ true := ne_true_of_eq_false same
    refine ⟨fun _ _ => ⟨o, aim, chain⟩, fun static => ?_, fun static => ?_,
      fun _ _ => ⟨o, aim, .inl chain⟩⟩
    · exact absurd static working
    · exact absurd static working
  | type t =>
    have working : inv.member.item.isStatic ≠ false := ne_false_of_eq_true same
    refine ⟨fun inst => absurd inst working, fun _ _ => aim, fun _ _ o some => ?_,
      fun inst => absurd inst working⟩
    rw [aim] at some
    cases some

lemma Invocation.Aimed.of_extends {inv : Invocation} {o : HostObject} {name : String}
    (aim : inv.target = some o) (first : inv.slots[0]? = some (.object o))
    (extended : Registry.extended? inv.member.item = some name)
    (subtype : o.cls.isSubtypeOf name = true) : inv.Aimed := by
  have extension := (Registry.extended_eq_some extended).1
  have special : inv.member.item.isExtension ≠ false := ne_false_of_eq_true extension
  have extends_ : inv.Extends o := ⟨first, name, extended, subtype⟩
  refine ⟨fun _ plain => absurd plain special, fun _ plain => absurd plain special, ?_,
    fun _ _ => ⟨o, aim, .inr extends_⟩⟩
  intro _ _ o' some
  rw [aim] at some
  cases some
  exact extends_

lemma Accessor.Offered.aimed {r : Registry} {target : Target} {accessor : Accessor}
    (h : accessor.Offered r target) :
    accessor.Aimed target.object? := by
  obtain ⟨chain, same, -⟩ := h.declared
  cases target with
  | object o =>
    refine ⟨fun _ => ⟨o, rfl, chain⟩, fun static => ?_⟩
    rw [static] at same
    cases same
  | type t =>
    refine ⟨fun inst => ?_, fun _ => rfl⟩
    rw [inst] at same
    cases same

/-- Closing an overload over type arguments changes neither whose it is nor what it calls for. -/
lemma Selected.item {c : Coercer} {candidates : List (Declared Method)}
    {receiver : Option HostObject} {found : Resolved}
    (h : Selected c candidates receiver found) :
    ∃ m ∈ candidates, found.member.owner = m.owner ∧
      found.member.item.isStatic = m.item.isStatic ∧
      found.member.item.isExtension = m.item.isExtension ∧
      found.member.item.hidden = m.item.hidden ∧
      ∀ name, Registry.extended? m.item = some name →
        Registry.extended? found.member.item = some name := by
  obtain ⟨m, mem, owner, -, eq | ⟨kinds, eq⟩⟩ := h.candidate
  · rw [eq]
    exact ⟨m, mem, owner, rfl, rfl, rfl, fun _ extended => extended⟩
  · rw [eq]
    exact ⟨m, mem, owner, rfl, rfl, rfl, fun _ => Registry.extended_instantiate kinds⟩

end ScriptBridge.Bridge

namespace ScriptBridge.Machine

open Script Bridge

/-- Whether the route leads to a member of a target, and not to a constructor or an operator. -/
def Route.isMember : Route → Bool
  | .operation (.construct ..) | .operation (.operator ..) => false
  | _ => true

variable {w : World} {target : Target}

lemma planCall_aimed (sound : w.registry.Sound) {group : String}
    {overloads : List (Declared Method)} {args : List HostValue} {inv : Invocation}
    (bound : Offered w.registry (.methods target group overloads))
    (planned : planCall w.options.stripSelfArgument w.coercer target group overloads args
      = .ok inv) : inv.Aimed := by
  obtain ⟨aim, found, selected, member, slots⟩ := planCall_selected planned
  obtain ⟨m, mem, owner, isStatic, isExtension, -, extended⟩ := selected.item
  rw [← member] at owner isStatic extended
  obtain ⟨-, ⟨chain, same⟩ | ⟨inst, s, chain, extends_⟩⟩ := offered_method sound bound mem
  · -- declared in the chain of the target
    exact .of_declared aim (owner ▸ chain) (isStatic.trans same)
  · -- an extension function for a class of the chain
    have extended := extended _ extends_
    cases target with
    | type t => cases inst
    | object o =>
      obtain ⟨extension, p, rest, params, -⟩ := Registry.extended_eq_some extended
      obtain ⟨taken, b, bound, eq⟩ := selected.accepted
      rw [← member] at bound
      have first : b.slots[0]? = some (.object o) :=
        slot_of_bind extension (by rw [params]; exact List.cons_ne_nil p rest) bound
      rw [eq, ← slots] at first
      have subtype : o.cls.isSubtypeOf s.fullName = true :=
        List.any_eq_true.2 ⟨s, chain, beq_iff_eq.2 rfl⟩
      exact .of_extends aim first extended subtype

/-- Whatever a route to a member leads to gets the right kind of target. -/
theorem Route.Gives.aimed (sound : w.registry.Sound) {route : Route} {code : HostCode}
    (gives : route.Gives w code) (member : route.isMember = true) : code.Aimed := by
  cases code with
  | access target name accessor => exact (accessor_offered gives).aimed
  | method inv =>
    rcases gives.method with ⟨target, group, overloads, args, rfl, bound, planned⟩ |
      ⟨t, args, rfl, -⟩ | ⟨op, operands, rfl, -⟩
    · exact planCall_aimed sound bound planned
    · cases member
    · cases member

end ScriptBridge.Machine

namespace ScriptBridge.Session

open Script Bridge Machine

/-- In every run of a session, host code that is about to run was reached by some route, and each
route to a member gives it the target that the member calls for. -/
theorem Visited.runs_aimed {m : Machine} (h : Visited m) {code : HostCode} {finish : Finish}
    (control : m.control = .host code finish) :
    Planned m.world code ∧
      ∀ route : Route, route.Gives m.world code → route.isMember = true → code.Aimed :=
  ⟨h.planned control, fun _ gives member => gives.aimed h.registry member⟩

/-- The accessor that assigns a field of an instance gets that instance. -/
theorem aimed_writeReading : Visited writingReading ∧
    Route.Gives bench (.operation (.write (.object device) "reading" (.int 3))) writeReading ∧
    writeReading.Aimed := by
  have gives : Route.Gives bench (.operation (.write (.object device) "reading" (.int 3)))
      writeReading := .operation trivial planWrite_reading
  exact ⟨visited_writingReading, gives,
    (Visited.runs_aimed visited_writingReading rfl).2 _ gives rfl⟩

end ScriptBridge.Session
