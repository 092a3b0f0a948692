import Mathlib.Tactic.Lemma
import ScriptBridge.Proofs.MemberTable
import ScriptBridge.Proofs.Overload
import ScriptBridge.Proofs.Result
import ScriptBridge.Machine.State

/-!
# Routes to host code

Every piece of host code that a machine runs was planned: by an operation on an object or a type,
through something bound to one, or by reading a member. What the routes lead to is what the member
tables of the target offer.
-/

namespace ScriptBridge

/-- The members that a target offers. -/
def Registry.table (r : Registry) (target : Target) : MemberTable :=
  (r.metadata target.cls).members target.isStatic

/-- Extension functions are kept under the class that they extend. -/
def Registry.Sound (r : Registry) : Prop :=
  ∀ name m, (name, m) ∈ r.extensions → Registry.extended? m.item = some name

namespace Machine

open Script Bridge

/-- Something bound to a target is something that the target offers. -/
def Offered (r : Registry) : Userdata → Prop
  | .methods target name overloads => (r.table target).methodGroup? name = some overloads
  | .event target e => ∃ name, (r.table target).events.find? name = some e
  | .indexer target p => ∃ name, (r.table target).properties.find? name = some p
  | _ => True

/-- The operations that resolve a member, bring values to the declared kinds and then run host
code. -/
inductive Operation
  | write (target : Target) (name : String) (v : HostValue)
  | call (target : Target) (group : String) (overloads : List (Declared Method))
      (args : List HostValue)
  | construct (t : HostType) (args : List HostValue)
  | operator (op : Operator) (operands : List HostValue)
  | indexGet (target : Target) (p : Declared Property) (args : List HostValue)
  | indexSet (target : Target) (p : Declared Property) (args : List HostValue) (v : HostValue)

namespace Operation

def plan (w : World) : Operation → Except BridgeError HostCode
  | write target name v => planWrite w.coercer w.registry target name v
  | call target group overloads args =>
    (planCall w.options.stripSelfArgument w.coercer target group overloads args).map .method
  | construct t args => (planConstruct w.coercer w.registry t args).map .method
  | operator op operands => (planOperator w.coercer w.registry op operands).map .method
  | indexGet target p args => planIndexGet w.coercer target p args
  | indexSet target p args v => planIndexSet w.coercer target p args v

/-- What an operation goes through is offered by its target. -/
def Bound (r : Registry) : Operation → Prop
  | call target group overloads _ => Offered r (.methods target group overloads)
  | indexGet target p _ => Offered r (.indexer target p)
  | indexSet target p _ _ => Offered r (.indexer target p)
  | _ => True

end Operation

/-- The ways to a piece of host code. -/
inductive Route
  | operation (op : Operation)
  | read (target : Target) (name : String)
  | subscribe (target : Target) (e : Declared Event) (handler : Routine)
  | unsubscribe (target : Target) (e : Declared Event) (handler : Routine)

/-- The host code that a route leads to. -/
inductive Route.Gives (w : World) : Route → HostCode → Prop
  | operation {op : Operation} {code : HostCode} (bound : op.Bound w.registry)
      (planned : op.plan w = .ok code) : Gives w (.operation op) code
  | read {target : Target} {name : String} {code : HostCode}
      (planned : planRead w.registry target name = .ok (.run code)) :
      Gives w (.read target name) code
  | subscribe {target : Target} {e : Declared Event} (handler : Routine)
      (bound : Offered w.registry (.event target e)) :
      Gives w (.subscribe target e handler)
        (.access target e.item.name (.subscribe e handler))
  | unsubscribe {target : Target} {e : Declared Event} (handler : Routine)
      (bound : Offered w.registry (.event target e)) :
      Gives w (.unsubscribe target e handler)
        (.access target e.item.name (.unsubscribe e handler))

/-- Some route leads to the host code. -/
def Planned (w : World) (code : HostCode) : Prop :=
  ∃ route : Route, route.Gives w code

end Machine

section Tables

variable {r : Registry} {target : Target} {name : String}

lemma Declared.mem_all {α : Type} {owner : HostType} {items : List α} {d : Declared α}
    (h : d ∈ Declared.all owner items) : d.owner = owner ∧ items[d.index]? = some d.item := by
  obtain ⟨⟨item, index⟩, mem, rfl⟩ := List.mem_map.1 h
  exact ⟨rfl, List.mem_zipIdx_iff_getElem?.1 mem⟩

lemma isExposed_iff {hidden : Bool} :
    isExposed name hidden = true ↔ hidden = false ∧ name ∉ denyList := by
  simp [isExposed]

lemma offered_field {f : Declared Field} (h : (r.table target).fields.find? name = some f) :
    f.owner ∈ target.cls.chain ∧ f.item.isStatic = target.isStatic ∧ f.item.hidden = false := by
  rw [Registry.table, Registry.metadata_eq, Metadata.field_members] at h
  obtain ⟨s, chain, mem⟩ := List.mem_flatMap.1 (List.mem_of_find?_eq_some h)
  obtain ⟨declared, exposed⟩ := List.mem_filter.1 mem
  rw [Bool.and_eq_true, beq_iff_eq, isExposed_iff] at exposed
  rw [(Declared.mem_all declared).1]
  exact ⟨chain, exposed.1, exposed.2.1⟩

lemma offered_property {p : Declared Property}
    (h : (r.table target).properties.find? name = some p) :
    p.owner ∈ target.cls.chain ∧ p.item.isStatic = target.isStatic ∧ p.item.hidden = false := by
  rw [Registry.table, Registry.metadata_eq, Metadata.property_members] at h
  obtain ⟨s, chain, mem⟩ := List.mem_flatMap.1 (List.mem_of_find?_eq_some h)
  obtain ⟨declared, exposed⟩ := List.mem_filter.1 mem
  rw [Bool.and_eq_true, beq_iff_eq, isExposed_iff] at exposed
  rw [(Declared.mem_all declared).1]
  exact ⟨chain, exposed.1, exposed.2.1⟩

lemma offered_event {e : Declared Event} (h : (r.table target).events.find? name = some e) :
    e.owner ∈ target.cls.chain ∧ e.item.isStatic = target.isStatic ∧ e.item.hidden = false := by
  rw [Registry.table, Registry.metadata_eq, Metadata.event_members] at h
  obtain ⟨s, chain, mem⟩ := List.mem_flatMap.1 (List.mem_of_find?_eq_some h)
  obtain ⟨declared, exposed⟩ := List.mem_filter.1 mem
  rw [Bool.and_eq_true, beq_iff_eq, isExposed_iff] at exposed
  rw [(Declared.mem_all declared).1]
  exact ⟨chain, exposed.1, exposed.2.1⟩

lemma extended_of_mem (hr : r.Sound) {m : Declared Method} (h : m ∈ r.extensionsFor name) :
    Registry.extended? m.item = some name := by
  obtain ⟨⟨key, kept⟩, mem, eq⟩ := List.mem_filterMap.1 h
  dsimp only at eq
  split at eq
  · rename_i same
    cases eq
    rw [hr key m mem, beq_iff_eq.1 same]
  · cases eq

/-- An overload that a target offers is declared in its chain, or extends a class of its chain. -/
lemma offered_method (hr : r.Sound) {overloads : List (Declared Method)}
    (h : (r.table target).methodGroup? name = some overloads) {m : Declared Method}
    (mem : m ∈ overloads) :
    m.item.hidden = false ∧
      ((m.owner ∈ target.cls.chain ∧ m.item.isStatic = target.isStatic) ∨
        (target.isStatic = false ∧
          ∃ s ∈ target.cls.chain, Registry.extended? m.item = some s.fullName)) := by
  have all := Metadata.overloads_members r.extensionsFor target.cls target.isStatic name
  rw [Registry.table, Registry.metadata_eq] at h
  rw [show ((Metadata.build r.extensionsFor target.cls).members target.isStatic).overloads name
    = overloads from congrArg (·.getD []) h] at all
  rw [all] at mem
  rcases List.mem_append.1 (List.mem_filter.1 mem).1 with own | extension
  · obtain ⟨s, chain, mem⟩ := List.mem_flatMap.1 own
    obtain ⟨declared, exposed⟩ := List.mem_filter.1 mem
    rw [Bool.and_eq_true, beq_iff_eq, isExposed_iff] at exposed
    rw [(Declared.mem_all declared).1]
    exact ⟨exposed.2.1, Or.inl ⟨chain, exposed.1⟩⟩
  · split at extension
    · cases extension
    · rename_i instances
      obtain ⟨s, chain, mem⟩ := List.mem_flatMap.1 extension
      obtain ⟨kept, exposed⟩ := List.mem_filter.1 mem
      exact ⟨(isExposed_iff.1 exposed).1,
        Or.inr ⟨Bool.not_eq_true _ ▸ instances, s, chain, extended_of_mem hr kept⟩⟩

/-- What a member found under a name is found as. -/
def MemberTable.Has (table : MemberTable) (name : String) : Member → Prop
  | .event e => table.events.find? name = some e
  | .field f => table.fields.find? name = some f
  | .methods group overloads => group = name ∧ table.methodGroup? name = some overloads
  | .property p => table.properties.find? name = some p
  | .nested t => table.nested.find? name = some t

lemma has_of_lookup {table : MemberTable} {member : Member} (h : table.lookup name = some member) :
    table.Has name member := by
  unfold MemberTable.lookup at h
  split at h
  · cases h
    assumption
  · split at h
    · cases h
      assumption
    · split at h
      · cases h
        exact ⟨rfl, by assumption⟩
      · split at h
        · cases h
          assumption
        · obtain ⟨t, found, rfl⟩ := Option.map_eq_some_iff.1 h
          exact found

end Tables

namespace Bridge

lemma has_of_findMember {r : Registry} {target : Target} {name : String} {member : Member}
    (h : findMember r target name = .ok member) : (r.table target).Has name member := by
  unfold findMember at h
  split at h
  · rename_i found
    cases h
    exact has_of_lookup found
  · cases h

namespace Accessor

/-- The class that declares the member. -/
def owner : Accessor → HostType
  | getField f | setField f _ => f.owner
  | getProperty p _ _ | setProperty p _ _ _ => p.owner
  | subscribe e _ | unsubscribe e _ => e.owner

def isStatic : Accessor → Bool
  | getField f | setField f _ => f.item.isStatic
  | getProperty p _ _ | setProperty p _ _ _ => p.item.isStatic
  | subscribe e _ | unsubscribe e _ => e.item.isStatic

def hidden : Accessor → Bool
  | getField f | setField f _ => f.item.hidden
  | getProperty p _ _ | setProperty p _ _ _ => p.item.hidden
  | subscribe e _ | unsubscribe e _ => e.item.hidden

/-- The member is one that the target offers. -/
def Offered (r : Registry) (target : Target) : Accessor → Prop
  | getField f | setField f _ => ∃ name, (r.table target).fields.find? name = some f
  | getProperty p _ _ | setProperty p _ _ _ =>
    ∃ name, (r.table target).properties.find? name = some p
  | subscribe e _ | unsubscribe e _ => ∃ name, (r.table target).events.find? name = some e

lemma Offered.declared {r : Registry} {target : Target} {accessor : Accessor}
    (h : accessor.Offered r target) :
    accessor.owner ∈ target.cls.chain ∧ accessor.isStatic = target.isStatic ∧
      accessor.hidden = false := by
  cases accessor with
  | getField f =>
    obtain ⟨name, found⟩ := h
    exact offered_field found
  | setField f v =>
    obtain ⟨name, found⟩ := h
    exact offered_field found
  | getProperty p get index =>
    obtain ⟨name, found⟩ := h
    exact offered_property found
  | setProperty p set index v =>
    obtain ⟨name, found⟩ := h
    exact offered_property found
  | subscribe e handler =>
    obtain ⟨name, found⟩ := h
    exact offered_event found
  | unsubscribe e handler =>
    obtain ⟨name, found⟩ := h
    exact offered_event found

end Accessor

end Bridge

namespace Machine

open Script Bridge

/-- What reading a member comes to is offered by the target. -/
def ReadPlan.Offered (r : Registry) (target : Target) (name : String) : ReadPlan → Prop
  | .bound u => Machine.Offered r u
  | .type _ => True
  | .run code => ∃ accessor, code = .access target name accessor ∧ accessor.Offered r target

lemma planRead_offered {r : Registry} {target : Target} {name : String} {plan : ReadPlan}
    (h : planRead r target name = .ok plan) : ReadPlan.Offered r target name plan := by
  obtain ⟨member, found, h⟩ := bind_eq_ok.1 h
  have has := has_of_findMember found
  cases member with
  | event e =>
    cases h
    exact ⟨name, has⟩
  | field f =>
    cases h
    exact ⟨_, rfl, name, has⟩
  | methods group overloads =>
    cases h
    obtain ⟨rfl, group⟩ := has
    exact group
  | property p =>
    dsimp only at h
    split at h
    · cases h
      exact ⟨name, has⟩
    · split at h
      · cases h
        exact ⟨_, rfl, name, has⟩
      · cases h
  | nested t =>
    cases h
    trivial

lemma planWrite_offered {c : Coercer} {r : Registry} {target : Target} {name : String}
    {v : HostValue} {code : HostCode} (h : planWrite c r target name v = .ok code) :
    ∃ accessor, code = .access target name accessor ∧ accessor.Offered r target := by
  obtain ⟨member, found, h⟩ := bind_eq_ok.1 h
  have has := has_of_findMember found
  cases member with
  | field f =>
    dsimp only at h
    split at h
    · obtain ⟨w, -, h⟩ := bind_eq_ok.1 h
      cases h
      exact ⟨_, rfl, name, has⟩
    · cases h
  | property p =>
    dsimp only at h
    split at h
    · cases h
    · split at h
      · obtain ⟨w, -, h⟩ := bind_eq_ok.1 h
        cases h
        exact ⟨_, rfl, name, has⟩
      · cases h
  | _ => cases h

/-- Indexed properties are reached through what was bound, so the accessor is offered if that is. -/
lemma planIndexGet_offered {c : Coercer} {r : Registry} {target : Target} {p : Declared Property}
    {args : List HostValue} {code : HostCode} (bound : Offered r (.indexer target p))
    (h : planIndexGet c target p args = .ok code) :
    ∃ accessor, code = .access target p.item.name accessor ∧ accessor.Offered r target := by
  unfold planIndexGet at h
  split at h
  · cases h
  · obtain ⟨index, -, h⟩ := bind_eq_ok.1 h
    cases h
    exact ⟨_, rfl, bound⟩

lemma planIndexSet_offered {c : Coercer} {r : Registry} {target : Target} {p : Declared Property}
    {args : List HostValue} {v : HostValue} {code : HostCode}
    (bound : Offered r (.indexer target p)) (h : planIndexSet c target p args v = .ok code) :
    ∃ accessor, code = .access target p.item.name accessor ∧ accessor.Offered r target := by
  unfold planIndexSet at h
  split at h
  · cases h
  · obtain ⟨index, -, h⟩ := bind_eq_ok.1 h
    obtain ⟨w, -, h⟩ := bind_eq_ok.1 h
    cases h
    exact ⟨_, rfl, bound⟩

/-- Whatever accessor a route leads to is offered by the target it works on. -/
theorem accessor_offered {w : World} {route : Route} {target : Target} {name : String}
    {accessor : Accessor} (h : route.Gives w (.access target name accessor)) :
    accessor.Offered w.registry target := by
  have same {target' : Target} {name' : String}
      (h : ∃ a, HostCode.access target name accessor = .access target' name' a ∧
        a.Offered w.registry target') : accessor.Offered w.registry target := by
    obtain ⟨a, eq, offered⟩ := h
    cases eq
    exact offered
  cases h with
  | @operation op _ bound planned =>
    cases op with
    | write target' name' v => exact same (planWrite_offered planned)
    | indexGet target' p args => exact same (planIndexGet_offered bound planned)
    | indexSet target' p args v => exact same (planIndexSet_offered bound planned)
    | call target' group overloads args =>
      obtain ⟨inv, -, eq⟩ := map_eq_ok.1 planned
      cases eq
    | construct t args =>
      obtain ⟨inv, -, eq⟩ := map_eq_ok.1 planned
      cases eq
    | operator op operands =>
      obtain ⟨inv, -, eq⟩ := map_eq_ok.1 planned
      cases eq
  | read planned => exact same (planRead_offered planned)
  | subscribe handler bound => exact bound
  | unsubscribe handler bound => exact bound

/-- A method is reached by a call, a construction or an operator. -/
theorem Route.Gives.method {w : World} {route : Route} {inv : Invocation}
    (h : route.Gives w (.method inv)) :
    (∃ target group overloads args, route = .operation (.call target group overloads args) ∧
      Offered w.registry (.methods target group overloads) ∧
      planCall w.options.stripSelfArgument w.coercer target group overloads args = .ok inv) ∨
    (∃ t args, route = .operation (.construct t args) ∧
      planConstruct w.coercer w.registry t args = .ok inv) ∨
    (∃ op operands, route = .operation (.operator op operands) ∧
      planOperator w.coercer w.registry op operands = .ok inv) := by
  cases h with
  | @operation op _ bound planned =>
    cases op with
    | call target group overloads args =>
      obtain ⟨inv, planned, eq⟩ := map_eq_ok.1 planned
      cases eq
      exact Or.inl ⟨target, group, overloads, args, rfl, bound, planned⟩
    | construct t args =>
      obtain ⟨inv, planned, eq⟩ := map_eq_ok.1 planned
      cases eq
      exact Or.inr (Or.inl ⟨t, args, rfl, planned⟩)
    | operator op operands =>
      obtain ⟨inv, planned, eq⟩ := map_eq_ok.1 planned
      cases eq
      exact Or.inr (Or.inr ⟨op, operands, rfl, planned⟩)
    | write target name v =>
      obtain ⟨accessor, eq, -⟩ := planWrite_offered planned
      cases eq
    | indexGet target p args =>
      obtain ⟨accessor, eq, -⟩ := planIndexGet_offered bound planned
      cases eq
    | indexSet target p args v =>
      obtain ⟨accessor, eq, -⟩ := planIndexSet_offered bound planned
      cases eq
  | read planned =>
    obtain ⟨accessor, eq, -⟩ := planRead_offered planned
    cases eq

/-- A call through a bound group selects one of the overloads bound, for the target bound. -/
lemma planCall_selected {strip : Bool} {c : Coercer} {target : Target} {group : String}
    {overloads : List (Declared Method)} {args : List HostValue} {inv : Invocation}
    (h : planCall strip c target group overloads args = .ok inv) :
    inv.target = target.object? ∧ ∃ found, Selected c overloads target.object? found ∧
      inv.member = found.member ∧ inv.slots = found.slots := by
  obtain ⟨found, selected, rfl⟩ := planCall_eq_ok.1 h
  exact ⟨rfl, found, .of_selectCall selected, rfl, rfl⟩

end Machine

end ScriptBridge
