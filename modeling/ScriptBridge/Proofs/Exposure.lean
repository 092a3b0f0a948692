import ScriptBridge.Proofs.Target
import ScriptBridge.Proofs.Session

/-!
# Hidden definitions

Member tables and constructors leave out what is flagged hidden; the overloads of operators are
collected without asking. So the host code that a route leads to is hidden exactly when the route
is an operator and the overload selected is a hidden one.
-/

namespace ScriptBridge.Bridge

/-- Whether the definition that the host code belongs to is flagged hidden. -/
def HostCode.hidden : HostCode → Bool
  | .method inv => inv.member.item.hidden
  | .access _ _ accessor => accessor.hidden

/-- The overload is declared for the operator by a class in the chain of some operand. -/
def OverloadOf (op : Operator) (operands : List HostValue) (m : Declared Method) : Prop :=
  ∃ o, .object o ∈ operands ∧ m.owner ∈ o.cls.chain ∧
    m.owner.members.operators[m.index]? = some (op, m.item)

section Operators

variable {c : Coercer} {r : Registry} {op : Operator} {m : Declared Method}

lemma mem_operator {t : HostType} (h : m ∈ (r.metadata t).operator op) :
    m.owner ∈ t.chain ∧ m.owner.members.operators[m.index]? = some (op, m.item) := by
  rw [r.metadata_eq] at h
  obtain ⟨d, mem, eq⟩ := List.mem_filterMap.1 h
  obtain ⟨s, chain, mem⟩ := List.mem_flatMap.1 mem
  obtain ⟨owner, found⟩ := Declared.mem_all mem
  split at eq
  · rename_i same
    cases eq
    rw [owner]
    refine ⟨chain, ?_⟩
    rw [found, ← beq_iff_eq.1 same]
  · cases eq

lemma mem_foldl_unless {cls : HostType} {own : List (Declared Method)}
    {found : OperatorCandidates}
    (h : m ∈ (own.foldl (fun found m =>
      if found.overloads.any m.isSame then found
      else ⟨found.overloads ++ [m], found.owner.or (some cls)⟩) found).overloads) :
    m ∈ found.overloads ∨ m ∈ own := by
  induction own generalizing found with
  | nil => exact Or.inl h
  | cons n rest ih =>
    rcases ih h with old | new
    · dsimp only at old
      split at old
      · exact Or.inl old
      · rcases List.mem_append.1 old with old | new
        · exact Or.inl old
        · exact Or.inr (List.mem_cons.2 (Or.inl (List.mem_singleton.1 new)))
    · exact Or.inr (List.mem_cons_of_mem n new)

/-- What an operand adds are overloads of its class. -/
lemma mem_add {found : OperatorCandidates} {v : HostValue}
    (h : m ∈ (found.add r op v).overloads) :
    m ∈ found.overloads ∨ ∃ o, v = .object o ∧ m ∈ (r.metadata o.cls).operator op := by
  cases v with
  | object o =>
    rcases mem_foldl_unless h with old | own
    · exact Or.inl old
    · exact Or.inr ⟨o, rfl, own⟩
  | _ => exact Or.inl h

lemma mem_foldl_add {operands : List HostValue} {found : OperatorCandidates}
    (h : m ∈ (operands.foldl (·.add r op) found).overloads) :
    m ∈ found.overloads ∨ ∃ o, .object o ∈ operands ∧ m ∈ (r.metadata o.cls).operator op := by
  induction operands generalizing found with
  | nil => exact Or.inl h
  | cons v rest ih =>
    rcases ih h with old | ⟨o, mem, own⟩
    · rcases mem_add old with old | ⟨o, rfl, own⟩
      · exact Or.inl old
      · exact Or.inr ⟨o, List.mem_cons_self, own⟩
    · exact Or.inr ⟨o, List.mem_cons_of_mem v mem, own⟩

/-- The overload that an operator selects is declared by a class of an operand, hidden or not. -/
lemma planOperator_overload {operands : List HostValue} {inv : Invocation}
    (h : planOperator c r op operands = .ok inv) : OverloadOf op operands inv.member := by
  unfold planOperator at h
  dsimp only at h
  split at h
  · cases h
  · split at h
    · rename_i selected resolved
      cases h
      rcases mem_foldl_add (mem_of_resolve resolved).1 with none | ⟨o, mem, own⟩
      · cases none
      · exact ⟨o, List.mem_of_mem_take mem, mem_operator own⟩
    · cases h

lemma planConstruct_exposed {t : HostType} {args : List HostValue} {inv : Invocation}
    (h : planConstruct c r t args = .ok inv) : inv.member.item.hidden = false := by
  unfold planConstruct at h
  split at h
  · rename_i found resolved
    cases h
    rw [r.metadata_eq] at resolved
    have exposed := (List.mem_filter.1 (mem_of_resolve resolved).1).2
    rwa [Bool.not_eq_true'] at exposed
  · cases h

end Operators

end ScriptBridge.Bridge

namespace ScriptBridge.Machine

open Script Bridge

variable {w : World}

/-- No overload that was bound with a method group is hidden. -/
lemma planCall_exposed (sound : w.registry.Sound) {target : Target} {group : String}
    {overloads : List (Declared Method)} {args : List HostValue} {inv : Invocation}
    (bound : Offered w.registry (.methods target group overloads))
    (planned : planCall w.options.stripSelfArgument w.coercer target group overloads args
      = .ok inv) : inv.member.item.hidden = false := by
  obtain ⟨-, found, selected, member, -⟩ := planCall_selected planned
  obtain ⟨m, mem, -, -, -, hidden, -⟩ := selected.item
  rw [member, hidden]
  exact (offered_method sound bound mem).1

/-- Every route but that of an operator leads to what is exposed; an operator leads to whatever
overload it selects. -/
theorem Route.Gives.hidden_iff (sound : w.registry.Sound) {route : Route} {code : HostCode}
    (gives : route.Gives w code) :
    code.hidden = true ↔ ∃ op operands inv, route = .operation (.operator op operands) ∧
      code = .method inv ∧ OverloadOf op operands inv.member ∧ inv.member.item.hidden = true := by
  constructor
  · intro hidden
    cases code with
    | access target name accessor =>
      rw [HostCode.hidden, (accessor_offered gives).declared.2.2] at hidden
      cases hidden
    | method inv =>
      rcases gives.method with ⟨target, group, overloads, args, -, bound, planned⟩ |
        ⟨t, args, -, planned⟩ | ⟨op, operands, rfl, planned⟩
      · rw [HostCode.hidden, planCall_exposed sound bound planned] at hidden
        cases hidden
      · rw [HostCode.hidden, planConstruct_exposed planned] at hidden
        cases hidden
      · exact ⟨op, operands, inv, rfl, rfl, planOperator_overload planned, hidden⟩
  · rintro ⟨op, operands, inv, -, rfl, -, hidden⟩
    exact hidden

end ScriptBridge.Machine

namespace ScriptBridge.Session

open Script Bridge Machine

/-- In every run of a session, host code that is about to run is hidden exactly when it was
reached through an operator that selected a hidden overload of an operand's class. -/
theorem Visited.runs_hidden_iff {m : Machine} (h : Visited m) {code : HostCode} {finish : Finish}
    (control : m.control = .host code finish) :
    Planned m.world code ∧ ∀ route : Route, route.Gives m.world code →
      (code.hidden = true ↔ ∃ op operands inv, route = .operation (.operator op operands) ∧
        code = .method inv ∧ OverloadOf op operands inv.member ∧
        inv.member.item.hidden = true) :=
  ⟨h.planned control, fun _ gives => gives.hidden_iff h.registry⟩

/-- A script function that adds its argument to itself. -/
def doubling : Closure where
  params := ["a"]
  isVariadic := false
  body := [.ret [.binary .add (.name "a") (.name "a")]]
  captured := []

/-- A session whose scripts hold the instance. -/
def deviceBench : World :=
  (bench.push (.object device)).2

/-- The session about to call the function with the instance. -/
def doublingDevice : Machine where
  world := { deviceBench with heap := (deviceBench.heap.newClosure doubling).2 }
  control := .call (.function (.closure 0)) [.userdata 0]

/-- What adding the instance to itself comes to. -/
def sumOfDevice : HostCode :=
  .method ⟨⟨meter, 0, hiddenSum⟩, "__add", meter, none, [.object device, .object device], []⟩

/-- A script gets as far as running the addition that is not for scripts. -/
lemma visited_sumOfDevice : ∃ m, Visited m ∧ m.control = .host sumOfDevice .value := by
  have reached : Reached doublingDevice.world :=
    (reached_bench.push (.object device)).heap_of_eq rfl
  have runs := (Runs.here : Runs doublingDevice doublingDevice).step rfl |>.step rfl |>.step rfl
    |>.step rfl |>.step rfl |>.step rfl |>.step rfl |>.step rfl
  exact ⟨_, ⟨_, _, reached, .call _ _, runs⟩, rfl⟩

/-- The addition that is not for scripts runs, and an operator led to it. -/
theorem hidden_sumOfDevice : ∃ (m : Machine) (route : Route), Visited m ∧
    m.control = .host sumOfDevice .value ∧ route.Gives m.world sumOfDevice ∧
    ∃ op operands, route = .operation (.operator op operands) := by
  obtain ⟨m, visited, control⟩ := visited_sumOfDevice
  obtain ⟨⟨route, gives⟩, hidden⟩ := Visited.runs_hidden_iff visited control
  obtain ⟨op, operands, -, eq, -⟩ := (hidden route gives).1 rfl
  exact ⟨m, route, visited, control, gives, op, operands, eq⟩

/-- Not everything that a session runs is exposed. -/
theorem not_always_exposed : ¬ ∀ (m : Machine) (code : HostCode) (finish : Finish),
    Visited m → m.control = .host code finish → code.hidden = false := by
  intro exposed
  obtain ⟨m, visited, control⟩ := visited_sumOfDevice
  exact Bool.noConfusion (exposed m sumOfDevice .value visited control)

end ScriptBridge.Session
