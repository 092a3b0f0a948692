import ScriptBridge.Proofs.Coercion
import ScriptBridge.Proofs.RoundTrip

/-!
# Arrays and their tables

Arrays of the host are coerced item by item, and so are the tables that are made of them. Whether a
value is coerced at once or after it was pushed and pulled makes no difference, for kinds that leave
tables no other place.
-/

namespace ScriptBridge

/-- Whether values of the kind hold no tables. -/
def Kind.isTableFree : Kind → Bool
  | any | table | placeholder _ => false
  | array element => element.isTableFree
  | _ => true

namespace Bridge

open Script HostValue

section Trip

variable {limit : Nat} {h : Heap} {kind : Kind} {depth old : Nat} {v x : HostValue}

/-- Without arrays a value differs from itself as scripts have it in signs at most. -/
lemma coerceAt_scripted (plain : ∀ items, v ≠ .array items) (fits : v.isUnscriptable = false)
    (free : kind.isTableFree = true) :
    Agree (· = ·) (coerceAt limit h kind depth v.scripted) (coerceAt limit h kind depth v) := by
  cases v with
  | array items => exact absurd rfl (plain items)
  | unsigned u =>
    cases kind with
    | any | table | placeholder => cases free
    | int | f32 | f64 | bigint =>
      rw [coerceAt_numeric rfl, coerceAt_numeric rfl,
        coerceNumeric?_of_integer? (integer?_scripted fits), coerceNumeric?_of_integer? rfl]
      exact ofOption_agree (rel_refl (fun _ => rfl) _)
    | _ => exact .error _ _
  | _ => exact .refl (fun _ => rfl) _

theorem coerceAt_arrives (free : kind.isTableFree = true) (arrives : Arrives h old v x)
    (fits : ∀ p ∈ v.parts, p.isUnscriptable = false) :
    Agree (· = ·) (coerceAt limit h kind depth x) (coerceAt limit h kind depth v) := by
  induction kind generalizing depth v x with
  | any | table | placeholder => cases free
  | array element ih =>
    cases arrives with
    | copied plain => exact coerceAt_scripted plain (fits v (self_mem_parts v)) free
    | array made each =>
      rw [coerceAt_table]
      refine coerceAt_array_agree (List.Forall₂.flip ?_) fun vs ws same => ?_
      · exact forall₂_imp_mem each fun v mem x _ arrives =>
          ih free arrives fun p part => fits p (mem_parts_of_mem mem part)
      · rw [List.forall₂_eq_eq_eq] at same
        rw [same]
  | _ =>
    cases arrives with
    | copied plain => exact coerceAt_scripted plain (fits v (self_mem_parts v)) free
    | array made each => exact .error _ _

end Trip

end Bridge

namespace Session

open Script Bridge Machine HostValue

/-- A value that was pushed and pulled is coerced as the value itself: both are refused, or both
come to the same. -/
theorem coerce_pull_push {w w' : World} {v : HostValue} {x : Value} (limit : Nat) (kind : Kind)
    (tallies : ∃ proxies, w.heap.Tallies proxies)
    (room : w'.heap.handles.slots.size ≤ UInt32.size) (sequential : v.IsSequential)
    (free : kind.isTableFree = true) (pushed : w.push v = (.ok x, w')) :
    Agree (· = ·) (coerce limit w'.heap (w'.pull x) kind) (coerce limit w'.heap v kind) := by
  have fits := (push_ok_iff w.heap v).1 ⟨x, congrArg Prod.fst pushed⟩
  exact coerceAt_arrives free (arrives_of_push tallies room sequential pushed) fits

/-- Two arrays in an array. -/
def rows : HostValue :=
  .array [.array [.unsigned 7, .int 8], .array []]

/-- Coerced to big integers the rows come to the same from tables, and the limit on how deep they
nest is the same. -/
theorem rows_pull_push :
    ∃ x w', bench.push rows = (.ok x, w') ∧
      coerce 2 w'.heap (w'.pull x) (.array (.array .bigint))
        = .ok (.array [.array [.big 7, .big 8], .array []]) ∧
      ∃ e, coerce 1 w'.heap (w'.pull x) (.array (.array .bigint)) = .error e := by
  have sequential : rows.IsSequential := by
    constructor <;> simp [rows, parts, partsAll, HostValue.isNil]
    decide
  have agree (limit : Nat) := coerce_pull_push (w := bench) limit (.array (.array .bigint))
    ⟨[], .start rfl rfl⟩ (by decide) sequential rfl (Prod.ext (rfl : (bench.push rows).1 = _) rfl)
  refine ⟨_, _, rfl, ?_, ?_⟩
  · have both := agree 2
    generalize coerce 2 _ (World.pull _ _) _ = result at both ⊢
    cases both with
    | ok same => exact congrArg Except.ok same
  · have both := agree 1
    generalize coerce 1 _ (World.pull _ _) _ = result at both ⊢
    cases both with
    | error e e' => exact ⟨e, rfl⟩

end Session

end ScriptBridge
