import Mathlib.Tactic.Lemma
import ScriptBridge.Proofs.Ordinary

/-!
# What is asked of host code

An accessor runs because a script reads or assigns a member of an object, of a type or through an
indexer, calls a method of an indexer, or subscribes to an event. What a script asks for of objects
and types are operations; the host performs them too.
-/

namespace ScriptBridge.Bridge

def HostCode.isAccess : HostCode → Bool
  | method _ => false
  | access .. => true

end ScriptBridge.Bridge

namespace ScriptBridge.Machine

open Script Bridge

lemma memberName?_ofString (name : String) : memberName? (.ofString name) = some name :=
  dif_pos name.isValidUTF8

/-- What a control asks for in a world, as the route to host code. Values are asked for as the host
sees them. -/
inductive Requests (w : World) : Control → Route → Prop
  | read {id budget : Nat} {key : Value} {target : Target} {name : String}
      (proxy : w.heap.target? (w.heap.userdatum id) = some target)
      (named : memberName? key = some name) :
      Requests w (.index (.userdata id) key (budget + 1)) (.read target name)
  | write {id budget : Nat} {key : Value} {target : Target} {name : String} (v : Value)
      (proxy : w.heap.target? (w.heap.userdatum id) = some target)
      (named : memberName? key = some name) :
      Requests w (.store (.userdata id) key v (budget + 1))
        (.operation (.write target name (w.pull v)))
  /-- An indexer in brackets has one index. -/
  | getAt {id budget : Nat} {target : Target} {p : Declared Property} (key : Value)
      (bound : w.heap.userdatum id = .indexer target p) :
      Requests w (.index (.userdata id) key (budget + 1))
        (.operation (.indexGet target p [w.pull key]))
  | setAt {id budget : Nat} {target : Target} {p : Declared Property} (key v : Value)
      (bound : w.heap.userdatum id = .indexer target p) :
      Requests w (.store (.userdata id) key v (budget + 1))
        (.operation (.indexSet target p [w.pull key] (w.pull v)))
  | get {id : Nat} {target : Target} {p : Declared Property} (args : List Value)
      (bound : w.heap.userdatum id = .indexer target p) :
      Requests w (.call (.function (.builtin .indexerGet)) (.userdata id :: args))
        (.operation (.indexGet target p (pullAll w.heap args)))
  /-- The last argument is the value, and those before it are the indices. -/
  | set {id : Nat} {target : Target} {p : Declared Property} (args : List Value) (v : Value)
      (bound : w.heap.userdatum id = .indexer target p) :
      Requests w (.call (.function (.builtin .indexerSet)) (.userdata id :: (args ++ [v])))
        (.operation (.indexSet target p (pullAll w.heap args) (w.pull v)))
  | subscribe {id : Nat} {target : Target} {e : Declared Event} (handler : Routine)
      (rest : List Value) (bound : w.heap.userdatum id = .event target e) :
      Requests w (.call (.function (.builtin .subscribe))
        (.userdata id :: .function handler :: rest)) (.subscribe target e handler)
  | unsubscribe {id : Nat} {target : Target} {e : Declared Event} (handler : Routine)
      (rest : List Value) (bound : w.heap.userdatum id = .event target e) :
      Requests w (.call (.function (.builtin .unsubscribe))
        (.userdata id :: .function handler :: rest)) (.unsubscribe target e handler)

/-- An indexer stands for a property with index parameters. -/
def Userdata.IsIndexed : Userdata → Prop
  | .indexer _ p => p.item.isIndexed = true
  | _ => True

/-- All indexers of a heap stand for properties with index parameters. -/
def HasIndexed (h : Heap) : Prop :=
  ∀ u ∈ h.userdata, Userdata.IsIndexed u

lemma HasIndexed.userdatum {h : Heap} (indexed : HasIndexed h) {id : Nat} {target : Target}
    {p : Declared Property} (bound : h.userdatum id = .indexer target p) :
    p.item.isIndexed = true := by
  unfold Heap.userdatum at bound
  cases found : h.userdata[id]? with
  | none =>
    rw [found] at bound
    cases bound
  | some u =>
    rw [found] at bound
    cases (bound : u = _)
    exact indexed _ (Array.mem_of_getElem? found)

section Performing

/-- The machine with what is exposed of the types that an operation goes by looked up. -/
def consulted (m : Machine) : Operation → Machine
  | .write target _ _ => m.remember target.cls
  | .construct t _ => m.remember t
  | .operator op operands => consult m (operands.take op.arity)
  | _ => m

/-- Performs an operation, up to running the host code. -/
def perform (m : Machine) (finish : Finish) (op : Operation) : Machine :=
  runPlanned (consulted m op) finish (op.plan (consulted m op).world)

variable {m₀ m : Machine}

/-- Scripts assign members by operations. -/
theorem writeMember_eq {target : Target} {key v : Value} {name : String}
    (named : memberName? key = some name) :
    writeMember m target key v = perform m .nothing (.write target name (m.world.pull v)) := by
  unfold writeMember
  rw [named]
  rfl

/-- So does the host, from no frames. -/
theorem assign_eq {c : Control} {w : World} {target : Target} {name : String} {v : HostValue}
    {code : HostCode}
    (planned : planWrite w.coercer (w.registry.remember target.cls) target name v = .ok code) :
    perform { world := w, control := c } .nothing (.write target name v)
      = { world := w.remember target.cls, control := .host code .nothing } := by
  have planned' : Operation.plan (w.remember target.cls) (.write target name v) = .ok code :=
    planned
  show runPlanned { world := w.remember target.cls, control := c } .nothing
    (Operation.plan (w.remember target.cls) (.write target name v)) = _
  rw [planned']
  rfl

theorem applyOperator_eq {op : Operator} {a b : Value} {operands : List HostValue}
    (pulled : m.world.pullMany [a, b] = .ok operands) :
    applyOperator m op a b = perform m .value (.operator op operands) := by
  unfold applyOperator
  rw [pulled]
  rfl

theorem callUserdata_type_eq {id : Nat} {handle : Handle} {t : HostType} {args : List Value}
    {vs : List HostValue} (type : m.heap.userdatum id = .type handle)
    (pinned : m.heap.target? (.type handle) = some (.type t)) (closed : t.isOpen = false)
    (pulled : m.world.pullMany args = .ok vs) :
    callUserdata m id args = perform m (.results true) (.construct t vs) := by
  unfold callUserdata
  dsimp only
  rw [type]
  dsimp only
  rw [pinned]
  dsimp only
  rw [pulled]
  dsimp only
  rw [closed, if_neg Bool.false_ne_true]
  rfl

theorem callUserdata_methods_eq {id : Nat} {target : Target} {name : String}
    {overloads : List (Declared Method)} {args : List Value} {vs : List HostValue}
    (bound : m.heap.userdatum id = .methods target name overloads)
    (pulled : m.world.pullMany args = .ok vs) :
    ∃ withValue, callUserdata m id args
      = perform m (.results withValue) (.call target name overloads vs) := by
  unfold callUserdata perform Operation.plan
  dsimp only [consulted]
  rw [bound]
  dsimp only
  rw [pulled]
  dsimp only
  cases planCall m.world.options.stripSelfArgument m.world.coercer target name overloads vs with
  | error e => exact ⟨true, rfl⟩
  | ok inv => exact ⟨_, rfl⟩

theorem callIndexer_get_eq {id : Nat} {target : Target} {p : Declared Property}
    {args : List Value} {vs : List HostValue} (bound : m.heap.userdatum id = .indexer target p)
    (pulled : m.world.pullMany args = .ok vs) :
    callIndexer m .value (planIndexGet m.world.coercer) (.userdata id) args
      = perform m .value (.indexGet target p vs) := by
  unfold callIndexer
  dsimp only
  rw [bound]
  dsimp only
  rw [pulled]
  rfl

theorem callIndexer_set_eq {id : Nat} {target : Target} {p : Declared Property}
    {args : List Value} {vs : List HostValue} (bound : m.heap.userdatum id = .indexer target p)
    (pulled : m.world.pullMany args = .ok vs) :
    callIndexer m .nothing (fun target p args =>
        planIndexSet m.world.coercer target p args.dropLast (args.getLastD .nil))
        (.userdata id) args
      = perform m .nothing (.indexSet target p vs.dropLast (vs.getLastD .nil)) := by
  unfold callIndexer
  dsimp only
  rw [bound]
  dsimp only
  rw [pulled]
  rfl

lemma consult_midway (h : Midway m₀ m) (operands : List HostValue) :
    Midway m₀ (consult m operands) ∧ (consult m operands).heap = m.heap := by
  unfold consult
  induction operands generalizing m with
  | nil => exact ⟨h, rfl⟩
  | cons v rest ih =>
    cases v with
    | object o => exact ih (h.remember o.cls)
    | _ => exact ih h

lemma consulted_midway (h : Midway m₀ m) (op : Operation) :
    Midway m₀ (consulted m op) ∧ (consulted m op).heap = m.heap := by
  cases op with
  | write target name v => exact ⟨h.remember _, rfl⟩
  | construct t args => exact ⟨h.remember t, rfl⟩
  | operator op operands => exact consult_midway h _
  | _ => exact ⟨h, rfl⟩

/-- Looking up what is exposed of types leaves it as it is, and all that operations go by. -/
lemma consult_metadata (m : Machine) (operands : List HostValue) :
    (consult m operands).world.registry.metadata = m.world.registry.metadata ∧
      (consult m operands).world.coercer = m.world.coercer ∧
      (consult m operands).world.store = m.world.store ∧
      (consult m operands).stack = m.stack := by
  unfold consult
  induction operands generalizing m with
  | nil => exact ⟨rfl, rfl, rfl, rfl⟩
  | cons v rest ih =>
    cases v with
    | object o =>
      obtain ⟨metadata, coercer, store, stack⟩ := ih (m.remember o.cls)
      refine ⟨metadata.trans ?_, coercer, store, stack⟩
      funext t
      exact m.world.registry.metadata_remember t o.cls
    | _ => exact ih m

lemma consulted_store (m : Machine) (op : Operation) :
    (consulted m op).world.store = m.world.store ∧ (consulted m op).stack = m.stack := by
  cases op with
  | operator op operands => exact (consult_metadata m _).2.2
  | _ => exact ⟨rfl, rfl⟩

section Plans

variable {r r' : Registry} (same : r'.metadata = r.metadata) (c : Coercer)

include same

/-- Plans go by what is exposed of types, whether it was looked up before or not. -/
lemma planWrite_congr (target : Target) (name : String) (v : HostValue) :
    planWrite c r' target name v = planWrite c r target name v := by
  unfold planWrite findMember
  rw [same]

lemma planConstruct_congr (t : HostType) (args : List HostValue) :
    planConstruct c r' t args = planConstruct c r t args := by
  unfold planConstruct
  rw [same]

lemma planOperator_congr (op : Operator) (operands : List HostValue) :
    planOperator c r' op operands = planOperator c r op operands := by
  have add : OperatorCandidates.add r' op = OperatorCandidates.add r op := by
    funext found v
    cases v with
    | object o =>
      unfold OperatorCandidates.add
      rw [same]
    | _ => rfl
  unfold planOperator
  rw [add]

end Plans

/-- An operation is resolved as it was before what is exposed of types was looked up. -/
theorem plan_consulted (m : Machine) (op : Operation) :
    op.plan (consulted m op).world = op.plan m.world := by
  cases op with
  | write target name v =>
    exact planWrite_congr (funext fun t => Registry.metadata_remember _ t _) _ target name v
  | construct t args =>
    refine congrArg (Except.map _) ?_
    exact planConstruct_congr (funext fun s => Registry.metadata_remember _ s _) _ t args
  | operator op operands =>
    obtain ⟨metadata, coercer, -, -⟩ := consult_metadata m (operands.take op.arity)
    unfold Operation.plan consulted
    dsimp only
    rw [coercer, planOperator_congr metadata]
  | _ => rfl

lemma pullMany_eq_ok {w : World} {args : List Value} {values : List HostValue}
    (pulled : w.pullMany args = .ok values) : values = pullAll w.heap args := by
  unfold World.pullMany Bridge.pullMany at pulled
  split at pulled
  · cases pulled
  · cases pulled
    rfl

/-- Without an argument there is no value to assign, and an index is missing. -/
lemma planIndexSet_nil {c : Coercer} {target : Target} {p : Declared Property} {v : HostValue}
    {code : HostCode} (indexed : p.item.isIndexed = true) :
    planIndexSet c target p [] v ≠ .ok code := by
  intro planned
  unfold planIndexSet at planned
  split at planned
  · cases planned
  · obtain ⟨index, counted, -⟩ := bind_eq_ok.1 planned
    have missing : ([] : List HostValue).length ≠ p.item.indexParams.length := by
      intro none
      rw [Property.isIndexed, List.eq_nil_of_length_eq_zero none.symm] at indexed
      cases indexed
    rw [coerceIndex, if_pos (bne_iff_ne.2 missing)] at counted
    cases counted

/-- The handler of a call is its second argument. -/
lemma exists_handler {self : Value} {rest : List Value} {r : Routine}
    (handler : (self :: rest)[1]?.getD .nil = .function r) :
    ∃ others, rest = .function r :: others := by
  cases rest with
  | nil => cases handler
  | cons f others => exact ⟨others, congrArg (· :: others) handler⟩

end Performing

end ScriptBridge.Machine
