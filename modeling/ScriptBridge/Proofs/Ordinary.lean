import Mathlib.Tactic.Lemma
import ScriptBridge.Machine.Step
import ScriptBridge.Proofs.Alteration

/-!
# Ordinary work

Most of what a step does is ordinary work: it makes changes of the usual kinds to the world, puts
frames up that wait for what it goes on with, and sets out no host code. Here this is told of each
function that evaluates an expression, runs a statement or a body, or goes on after one.
-/

namespace ScriptBridge.Machine

open Script Bridge

variable {m₀ m : Machine} {mode : Mode}

section Evaluation

lemma makeClosure_ordinary (h : Midway m₀ m) (scope : Scope) (params : List String)
    (isVariadic : Bool) (body : List Stmt) :
    Ordinary .values m₀ (makeClosure m scope params isVariadic body) := by
  unfold makeClosure
  apply Midway.give
  exact h.memory rfl rfl

lemma fillTable_ordinary (h : Midway m₀ m) (id : Nat) (scope : Scope)
    (entries : List (Expr × Expr)) : Ordinary .values m₀ (fillTable m id scope entries) := by
  cases entries with
  | nil => exact h.give _
  | cons entry rest => exact h.push .values rfl rfl rfl rfl

theorem evaluate_ordinary (h : Midway m₀ m) (scope : Scope) (e : Expr) :
    Ordinary .values m₀ (evaluate m scope e) := by
  cases e with
  | table entries =>
    apply fillTable_ordinary
    exact h.memory rfl rfl
  | function params isVariadic body => exact makeClosure_ordinary h _ _ _ _
  | _ => first
    | exact h.go rfl
    | exact h.push .values rfl rfl rfl rfl

theorem evaluateAll_ordinary (h : Midway m₀ m) (done : List Value) (scope : Scope)
    (es : List Expr) : Ordinary .values m₀ (evaluateAll m done scope es) := by
  unfold evaluateAll
  split
  · exact h.go rfl
  · split
    · exact h.go rfl
    · exact h.push .values rfl rfl rfl rfl
  · exact h.push .values rfl rfl rfl rfl

lemma fillEntry_ordinary (h : Midway m₀ m) (id : Nat) (key value : Value)
    (rest : List (Expr × Expr)) (scope : Scope) :
    Ordinary .values m₀ (fillEntry m id key value rest scope) := by
  unfold fillEntry
  split
  · apply fillTable_ordinary
    exact h.memory rfl rfl
  · exact h.raiseText _ rfl

theorem deliver_ordinary (h : Midway m₀ m) (v : HostValue) :
    Ordinary .values m₀ (deliver m v) := by
  have h' := h.alter (.pushes v)
  unfold deliver
  split
  · rename_i eq
    rw [eq] at h'
    exact h'.give _
  · rename_i eq
    rw [eq] at h'
    exact h'.raiseBridge _ rfl

theorem deliverAll_ordinary (h : Midway m₀ m) (vs : List HostValue) :
    Ordinary .values m₀ (deliverAll m vs) := by
  have h' := h.alter (.pushesMany vs)
  unfold deliverAll
  split
  · rename_i eq
    rw [eq] at h'
    exact h'.go rfl
  · rename_i eq
    rw [eq] at h'
    exact h'.raiseBridge _ rfl

lemma concatenate_ordinary (h : Midway m₀ m) (x y : Value) :
    Ordinary .values m₀ (concatenate m x y) := by
  unfold concatenate
  split
  · exact h.give _
  · split
    · exact h.push .values rfl rfl rfl rfl
    · exact h.raiseText _ rfl

lemma equate_ordinary (h : Midway m₀ m) (negated : Bool) (x y : Value) :
    Ordinary .values m₀ (equate m negated x y) := by
  unfold equate
  split
  · exact h.give _
  · split
    · split
      · exact h.push .values rfl rfl rfl rfl
      · exact h.give _
    · split <;> exact h.give _
    · exact h.give _

lemma compare_ordinary (h : Midway m₀ m) (event : String) (decided : Option Bool) (x y : Value) :
    Ordinary .values m₀ (compare m event decided x y) := by
  unfold compare
  split
  · exact h.give _
  · split
    · exact h.push .values rfl rfl rfl rfl
    · exact h.raiseText _ rfl

lemma length_ordinary (h : Midway m₀ m) (x : Value) : Ordinary .values m₀ (length m x) := by
  unfold length
  split
  · exact h.give _
  · split
    · exact h.push .values rfl rfl rfl rfl
    · exact h.give _
  · exact h.raiseText _ rfl

lemma join_ordinary (h : Midway m₀ m) (op : Junction) (x : Value) (e : Expr) (scope : Scope) :
    Ordinary .values m₀ (join m op x e scope) := by
  unfold join
  cases op <;> dsimp only <;> split
  all_goals first
    | exact h.give x
    | exact h.push .values rfl rfl rfl rfl

lemma storeRaw_ordinary (h : Midway m₀ m) (id : Nat) (key v : Value) :
    Ordinary .values m₀ (storeRaw m id key v) := by
  unfold storeRaw
  split
  · refine Midway.go ?_ rfl
    exact h.memory rfl rfl
  · exact h.raiseText _ rfl

end Evaluation

section Calls

lemma setMetatable_ordinary (h : Midway m₀ m) (args : List Value) :
    Ordinary .values m₀ (setMetatable m args) := by
  unfold setMetatable
  split
  · apply Midway.give
    exact h.memory rfl rfl
  · apply Midway.give
    exact h.memory rfl rfl
  · exact h.raisePlaced _

lemma toText_ordinary (h : Midway m₀ m) (v : Value) : Ordinary .values m₀ (toText m v) := by
  unfold toText
  split
  · split
    · exact h.give _
    · exact h.push .values rfl rfl rfl rfl
  · exact h.give _

lemma raiseLevel_ordinary (h : Midway m₀ m) (v level : Value) :
    Ordinary .values m₀ (raiseLevel m v level) := by
  unfold raiseLevel
  split
  · exact h.go rfl
  · exact h.raisePlaced _

lemma closeType_ordinary (h : Midway m₀ m) (t : HostType) (args : List HostValue) :
    Ordinary .values m₀ (closeType m t args) := by
  unfold closeType
  split
  · exact h.raiseBridge _ rfl
  · split
    · exact h.raiseBridge _ rfl
    · rename_i ok
      apply deliverAll_ordinary
      exact h.alter (.closes ok)

end Calls

section Hooks

lemma fire_cases (kind : HookKind) (line : Nat) (m : Machine) :
    fire kind line m = .ok m ∨ ∃ hook, fire kind line m = fireHook m kind line hook := by
  unfold fire
  split
  · rename_i hook _ _
    dsimp only
    cases kind <;> dsimp only <;> split
    all_goals first
      | exact Or.inr ⟨hook, rfl⟩
      | exact Or.inl rfl
  · exact Or.inl rfl

/-- A hook changes itself and the log, and it may be out of patience. -/
lemma fireHook_cases (kind : HookKind) (line : Nat) (hook : Hook) (m : Machine) :
    ∃ m', (∀ m₀, Midway m₀ m → Midway m₀ m') ∧ m'.heap = m.heap ∧
      (fireHook m kind line hook = .ok m' ∨
        ∃ e, fireHook m kind line hook = .error (m'.raiseBridge e)) := by
  let seen := m.withWorld
    { m.world with
      hook := some { hook with seen := hook.seen + 1 }
      store := if hook.quiet then m.world.store
        else m.world.store.addLog (.hook kind (some line)) }
  refine ⟨seen, fun m₀ h => ?_, rfl, ?_⟩
  · by_cases quiet : hook.quiet = true
    · simp only [seen, if_pos quiet]
      exact h.alter (.hooks _)
    · simp only [seen, if_neg quiet]
      have h' := h.alter (.hooks (some { hook with seen := hook.seen + 1 }))
      exact h'.alter (.logs (.hook kind (some line)))
  · unfold fireHook
    dsimp only
    split
    · exact Or.inr ⟨_, rfl⟩
    · exact Or.inl rfl

lemma fire_ok {kind : HookKind} {line : Nat} {m' : Machine} (h : Midway m₀ m)
    (fired : fire kind line m = .ok m') : Midway m₀ m' ∧ m'.heap = m.heap := by
  rcases fire_cases kind line m with eq | ⟨hook, eq⟩
  · rw [eq] at fired
    cases fired
    exact ⟨h, rfl⟩
  · rw [eq] at fired
    obtain ⟨m'', midway, heap, ok | ⟨e, error⟩⟩ := fireHook_cases kind line hook m
    · rw [ok] at fired
      cases fired
      exact ⟨midway m₀ h, heap⟩
    · rw [error] at fired
      cases fired

lemma fire_error {kind : HookKind} {line : Nat} {m' : Machine} (h : Midway m₀ m)
    (fired : fire kind line m = .error m') (plain : mode.isBody = false) :
    Ordinary mode m₀ m' := by
  rcases fire_cases kind line m with eq | ⟨hook, eq⟩
  · rw [eq] at fired
    cases fired
  · rw [eq] at fired
    obtain ⟨m'', midway, -, ok | ⟨e, error⟩⟩ := fireHook_cases kind line hook m
    · rw [ok] at fired
      cases fired
    · rw [error] at fired
      cases fired
      exact (midway m₀ h).raiseBridge e plain

/-- A hook that lets an event pass changes nothing that the work depends on. -/
lemma tick_ordinary (h : Midway m₀ m) (line : Nat) {k : Machine → Machine}
    (next : ∀ m', Midway m₀ m' → Ordinary .block m₀ (k m')) :
    Ordinary .block m₀ (tick m line k) := by
  unfold tick
  cases first : fire .line line m with
  | error m' => exact fire_error h first rfl
  | ok m' =>
    have h' := (fire_ok h first).1
    rw [Except.bind]
    cases second : fire .count line m' with
    | error m'' => exact fire_error h' second rfl
    | ok m'' => exact next m'' (fire_ok h' second).1

end Hooks

section Statements

theorem exec_ordinary (h : Midway m₀ m) (rest : Rest) : Ordinary .block m₀ (exec m rest) := by
  unfold exec
  split
  · exact h.go rfl
  · rename_i stmt stmts _
    refine tick_ordinary h _ fun m' h' => ?_
    cases stmt <;> exact h'.push .values rfl rfl rfl rfl

lemma loopScope_midway (h : Midway m₀ m) (name : String) (v : Value) (scope : Scope) :
    Midway m₀ (loopScope m name v scope).2 :=
  h.declare scope.bindings [(name, v)]

lemma countOn_ordinary (h : Midway m₀ m) (name : String) (next : Int64) (rounds : Nat)
    (body : List Stmt) (rest : Rest) :
    Ordinary .block m₀ (countOn m name next rounds body rest) := by
  cases rounds with
  | zero => exact h.go rfl
  | succ rounds =>
    refine tick_ordinary h _ fun m' h' => ?_
    exact (loopScope_midway h' name (.int next) rest.scope).push .block rfl rfl rfl rfl

lemma stepOn_ordinary (h : Midway m₀ m) (name : String) (next last : Float) (body : List Stmt)
    (rest : Rest) : Ordinary .block m₀ (stepOn m name next last body rest) := by
  unfold stepOn
  split
  · refine tick_ordinary h _ fun m' h' => ?_
    exact (loopScope_midway h' name (.float next) rest.scope).push .block rfl rfl rfl rfl
  · exact h.go rfl

lemma startLoop_ordinary (h : Midway m₀ m) (name : String) (first last : Value)
    (body : List Stmt) (rest : Rest) :
    Ordinary .block m₀ (startLoop m name first last body rest) := by
  unfold startLoop
  split
  · exact countOn_ordinary h _ _ _ _ _
  · split
    · exact h.go rfl
    · exact countOn_ordinary h _ _ _ _ _
    · exact countOn_ordinary h _ _ _ _ _
  · split
    · exact stepOn_ordinary h _ _ _ _ _
    · exact h.raiseText _ rfl

lemma assign_midway (h : Midway m₀ m) (name : String) (v : Value) (scope : Scope) :
    Midway m₀ (assign m name v scope) := by
  unfold assign
  split
  · exact h.memory rfl rfl
  · exact h.memory rfl rfl

end Statements

section HostCode

lemma deliverAs_ordinary (h : Midway m₀ m) (finish : Finish) (v : HostValue) :
    Ordinary .values m₀ (deliverAs m finish v) := by
  cases finish with
  | value => exact deliver_ordinary h v
  | nothing => exact h.go rfl
  | results withValue => exact deliverAll_ordinary h [v]

lemma deliverResults_ordinary (h : Midway m₀ m) (finish : Finish) (v : HostValue)
    (inv : Invocation) : Ordinary .values m₀ (deliverResults m finish v inv) := by
  unfold deliverResults
  split
  · exact deliverAll_ordinary h _
  · exact deliverAs_ordinary h _ _

/-- A method gets its guard. -/
lemma runMethod_ordinary (h : Midway m₀ m) (inv : Invocation) (finish : Finish) :
    Ordinary .values m₀ (runHost m (.method inv) finish) :=
  (h.alter (.logs _)).push (.body (inv.after inv.member.item.body)) rfl rfl rfl rfl

lemma emitNext_ordinary (h : Midway m₀ m) (inv : Invocation) (holder : Holder) (event : String)
    (arg : Value) (handlers : List Routine) :
    Ordinary (.body inv) m₀ (emitNext m inv holder event arg handlers) := by
  cases handlers with
  | nil => exact h.go rfl
  | cons f rest => exact h.push .values rfl rfl rfl rfl

end HostCode

section Frames

/-- What waits for the end of a block goes on towards what waits for it. -/
theorem afterBlock_ordinary (h : Midway m₀ m) (f : Frame) :
    ∃ mode, Ordinary mode m₀ (afterBlock m f) ∧ (f.Awaits .block → mode = f.below .block) := by
  cases f with
  | counting name next rounds body rest =>
    exact ⟨.block, countOn_ordinary h _ _ _ _ _, fun _ => rfl⟩
  | stepping name next last body rest => exact ⟨.block, stepOn_ordinary h _ _ _ _ _, fun _ => rfl⟩
  | whileBody condition body rest =>
    exact ⟨.block, h.push .values rfl rfl rfl rfl, fun _ => rfl⟩
  | next rest => exact ⟨.block, h.go rfl, fun _ => rfl⟩
  | function outer => exact ⟨.values, (h.withDepth outer).go rfl, fun _ => rfl⟩
  | guard context finish => exact ⟨.block, h.go rfl, fun awaits => by cases awaits⟩
  | steps bodies => exact ⟨.block, h.go rfl, fun awaits => by cases awaits⟩
  | holding o mode => exact ⟨.block, h.go rfl, fun awaits => by cases awaits⟩
  | _ => exact ⟨.block, h.go rfl, fun awaits => Mode.noConfusion awaits⟩

theorem returnFrom_ordinary (h : Midway m₀ m) (vs : List Value) (f : Frame) :
    ∃ mode, Ordinary mode m₀ (returnFrom m vs f) ∧ (f.Awaits .block → mode = f.below .block) := by
  cases f with
  | function outer =>
    refine ⟨.values, ?_, fun _ => rfl⟩
    unfold returnFrom
    dsimp only
    split
    · rename_i fired
      exact ((fire_ok h fired).1.withDepth outer).go rfl
    · rename_i fired
      exact fire_error h fired rfl
  | next rest | counting name next rounds body rest | stepping name next last body rest
  | whileBody condition body rest => exact ⟨.block, h.go rfl, fun _ => rfl⟩
  | guard context finish => exact ⟨.block, h.go rfl, fun awaits => by cases awaits⟩
  | steps bodies => exact ⟨.block, h.go rfl, fun awaits => by cases awaits⟩
  | holding o mode => exact ⟨.block, h.go rfl, fun awaits => by cases awaits⟩
  | _ => exact ⟨.block, h.go rfl, fun awaits => Mode.noConfusion awaits⟩

/-- The frame that waits for a body has its call as the body left it. -/
theorem afterBody_ordinary (h : Midway m₀ m) (v : HostValue) (inv : Invocation) (f : Frame) :
    ∃ mode, Ordinary mode m₀ (afterBody m v inv f) ∧
      (f.Awaits (.body inv) → mode = f.below (.body inv)) := by
  cases f with
  | steps bodies =>
    cases bodies with
    | nil => exact ⟨.body inv, h.go rfl, fun _ => rfl⟩
    | cons body bodies =>
      refine ⟨.body (inv.afterAll (body :: bodies)), ?_, fun _ => rfl⟩
      refine h.push (.body (inv.after body)) rfl rfl ?_ rfl
      exact congrArg Mode.body (inv.afterAll_cons body bodies).symm
  | holding o mode => exact ⟨.body inv, (h.alter (.givesBack o mode)).go rfl, fun _ => rfl⟩
  | guard context finish => exact ⟨.values, deliverResults_ordinary h _ _ _, fun _ => rfl⟩
  | _ => exact ⟨.body inv, h.go rfl, fun awaits => Mode.noConfusion awaits⟩

end Frames

end ScriptBridge.Machine
