import Mathlib.Tactic.Lemma
import ScriptBridge.Proofs.Route

/-!
# Rejected operations

An operation that resolves a member before it runs host code is rejected with an error of
resolution or of coercion, and with no other.
-/

namespace ScriptBridge

/-- The errors with which an operation is rejected before host code runs. -/
def BridgeError.IsRejection : BridgeError → Prop
  | .unknownMember .. | .readOnlyMember .. | .typeMismatch .. | .noMatchingOverload ..
  | .operatorNotSupported .. => True
  | _ => False

namespace Bridge

variable {c : Coercer} {r : Registry} {target : Target} {e : BridgeError}

/-- The coercer fails with nothing but rejections. -/
def Coercer.Rejects (c : Coercer) : Prop :=
  ∀ v kind e, c v kind = .error e → e.IsRejection

lemma checkDepth_error {limit depth : Nat} (h : checkDepth limit depth = .error e) :
    e.IsRejection := by
  unfold checkDepth at h
  split at h
  · cases h
    trivial
  · cases h

lemma ofOption_error {kind : Kind} {v : HostValue} {o : Option HostValue}
    (h : ofOption kind v o = .error e) : e.IsRejection := by
  cases o with
  | none =>
    cases h
    trivial
  | some w => cases h

/-- Items fail to be coerced where they are nested too deep or one of them fails. -/
lemma coerceItems_error {limit depth : Nat} {f : HostValue → Except BridgeError HostValue}
    {items : List HostValue} (each : ∀ v e, f v = .error e → e.IsRejection)
    (failed : (do
      checkDepth limit depth
      return HostValue.array (← items.mapM f)) = .error e) : e.IsRejection := by
  rcases bind_eq_error.1 failed with deep | ⟨_, -, failed⟩
  · exact checkDepth_error deep
  · rcases bind_eq_error.1 failed with item | ⟨_, -, failed⟩
    · obtain ⟨v, -, failed⟩ := exists_of_mapM_error item
      exact each v e failed
    · cases failed

theorem coerceAt_error {limit : Nat} {h : Script.Heap} {kind : Kind} {depth : Nat} {v : HostValue}
    (failed : coerceAt limit h kind depth v = .error e) : e.IsRejection := by
  induction kind generalizing depth v e with
  | any => cases failed
  | placeholder index => cases failed
  | array element ih =>
    cases v with
    | array items => exact coerceItems_error (fun _ _ => ih) failed
    | table id => exact coerceItems_error (fun _ _ => ih) failed
    | _ =>
      cases failed
      trivial
  | object name =>
    cases v with
    | object o =>
      unfold coerceAt at failed
      split at failed
      · cases failed
      · cases failed
        trivial
    | nil => cases failed
    | _ =>
      cases failed
      trivial
  | int k =>
    cases v with
    | nil =>
      cases failed
      trivial
    | _ => exact ofOption_error failed
  | f32 | f64 | bigint =>
    cases v with
    | nil =>
      cases failed
      trivial
    | _ => exact ofOption_error failed
  | bool | string | table | function | thread | type =>
    cases v <;> cases failed <;> trivial

lemma coercer_rejects (w : Machine.World) : Coercer.Rejects w.coercer :=
  fun _ _ _ => coerceAt_error

lemma findMember_error {name : String} (h : findMember r target name = .error e) :
    e.IsRejection := by
  unfold findMember at h
  split at h
  · cases h
  · cases h
    trivial

lemma planWrite_error (hc : c.Rejects) {name : String} {v : HostValue}
    (h : planWrite c r target name v = .error e) : e.IsRejection := by
  rcases bind_eq_error.1 h with unknown | ⟨member, -, h⟩
  · exact findMember_error unknown
  · cases member with
    | field f =>
      dsimp only at h
      split at h
      · rcases bind_eq_error.1 h with mismatch | ⟨w, -, h⟩
        · exact hc _ _ _ mismatch
        · cases h
      · cases h
        trivial
    | property p =>
      dsimp only at h
      split at h
      · cases h
        trivial
      · split at h
        · rcases bind_eq_error.1 h with mismatch | ⟨w, -, h⟩
          · exact hc _ _ _ mismatch
          · cases h
        · cases h
          trivial
    | _ =>
      cases h
      trivial

lemma coerceIndex_error (hc : c.Rejects) {p : Property} {args : List HostValue}
    (h : coerceIndex c target p args = .error e) : e.IsRejection := by
  unfold coerceIndex at h
  split at h
  · cases h
    trivial
  · obtain ⟨arg, -, mismatch⟩ := exists_of_mapM_error h
    exact hc _ _ _ mismatch

lemma planIndexGet_error (hc : c.Rejects) {p : Declared Property} {args : List HostValue}
    (h : planIndexGet c target p args = .error e) : e.IsRejection := by
  unfold planIndexGet at h
  split at h
  · cases h
    trivial
  · rcases bind_eq_error.1 h with index | ⟨w, -, h⟩
    · exact coerceIndex_error hc index
    · cases h

lemma planIndexSet_error (hc : c.Rejects) {p : Declared Property} {args : List HostValue}
    {v : HostValue} (h : planIndexSet c target p args v = .error e) : e.IsRejection := by
  unfold planIndexSet at h
  split at h
  · cases h
    trivial
  · rcases bind_eq_error.1 h with index | ⟨index, -, h⟩
    · exact coerceIndex_error hc index
    · rcases bind_eq_error.1 h with mismatch | ⟨w, -, h⟩
      · exact hc _ _ _ mismatch
      · cases h

lemma planCall_error {strip : Bool} {group : String} {overloads : List (Declared Method)}
    {args : List HostValue} (h : planCall strip c target group overloads args = .error e) :
    e.IsRejection := by
  obtain ⟨-, rfl⟩ := planCall_eq_error.1 h
  trivial

lemma planConstruct_error {t : HostType} {args : List HostValue}
    (h : planConstruct c r t args = .error e) : e.IsRejection := by
  unfold planConstruct at h
  split at h
  · cases h
  · cases h
    trivial

lemma planOperator_error {op : Operator} {operands : List HostValue}
    (h : planOperator c r op operands = .error e) : e.IsRejection := by
  unfold planOperator at h
  dsimp only at h
  split at h
  · cases h
    trivial
  · split at h
    · cases h
    · cases h
      trivial

end Bridge

/-- An operation that finds no host code to run is rejected. -/
theorem Machine.Operation.plan_error {w : Machine.World} {op : Machine.Operation}
    {e : BridgeError} (h : op.plan w = .error e) : e.IsRejection := by
  have rejects := Bridge.coercer_rejects w
  cases op with
  | write target name v => exact Bridge.planWrite_error rejects h
  | call target group overloads args => exact Bridge.planCall_error (map_eq_error.1 h)
  | construct t args => exact Bridge.planConstruct_error (map_eq_error.1 h)
  | operator op operands => exact Bridge.planOperator_error (map_eq_error.1 h)
  | indexGet target p args => exact Bridge.planIndexGet_error rejects h
  | indexSet target p args v => exact Bridge.planIndexSet_error rejects h

end ScriptBridge
