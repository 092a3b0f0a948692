import ScriptBridge.Proofs.Conversion
import ScriptBridge.Proofs.SameValue

/-!
# Conversion of equal values

No host representation tells equal values apart: both are read as it, with equal results, or
neither is. An integer type reads an integer by its number alone, whichever way the value holds it.
-/

namespace ScriptBridge

namespace HostValue

variable {v w : HostValue}

lemma Paired.asFloat? (paired : Paired v w) :
    Option.Rel (fun x y => (x == y) = true) v.asFloat? w.asFloat? := by
  have self (n : Int) : (Number.ofInt n == Number.ofInt n) = true :=
    Number.beq_self (Number.isNaN_ofInt n)
  cases paired with
  | int i => exact .some (self _)
  | unsigned u => exact .some (self _)
  | @intUnsigned i u number =>
    show Option.Rel _ (some (Number.ofInt i.toInt)) (some (Number.ofInt u.toNat))
    rw [number]
    exact .some (self _)
  | @unsignedInt i u number =>
    show Option.Rel _ (some (Number.ofInt u.toNat)) (some (Number.ofInt i.toInt))
    rw [number]
    exact .some (self _)
  | float equal => exact .some equal
  | _ => exact .none

end HostValue

open HostValue (Paired)

variable {v w : HostValue}

/-- A reading of integers by their number alone, which succeeds exactly in the range of a width. -/
def ReadsIntegers (k : IntKind)
    (read : HostValue → Except ConversionError { n : Int // k.holds n = true }) : Prop :=
  ∀ (v : HostValue) (n : Int), v.integer? = some n →
    ((∃ t, read v = .ok t) ↔ k.low ≤ n ∧ n ≤ k.high) ∧ ∀ t, read v = .ok t → t.1 = n

theorem readInteger_readsIntegers (k : IntKind) (name : String) :
    ReadsIntegers k (readInteger k name) := by
  intro v n reading
  have range : k.holds n = true ↔ k.low ≤ n ∧ n ≤ k.high := by simp [IntKind.holds]
  unfold readInteger
  rw [reading, ← range]
  by_cases holds : k.holds n = true
  · simp only [holds, dite_true]
    refine ⟨⟨fun _ => trivial, fun _ => ⟨_, rfl⟩⟩, ?_⟩
    rintro t ⟨⟩
    rfl
  · simp [holds]

lemma readInteger_agree (k : IntKind) (name : String) (paired : Paired v w) :
    Agree Eq (readInteger k name v) (readInteger k name w) := by
  unfold readInteger
  rw [← paired.integer?]
  cases v.integer? with
  | none => exact .error _ _
  | some n => exact .refl (fun _ => rfl) _

namespace Representation

/-- Equality of what host members work with: of numbers by value, of references by identity. -/
def Equal : (r : Representation) → r.Native → r.Native → Prop
  | value, v, w => HostValue.same v w = true
  | f32, x, y => (x.1 == y.1) = true
  | f64, (x : Float), (y : Float) => (x == y) = true
  | object, o, o' => HostObject.id o = HostObject.id o'
  | type, t, t' => HostType.equal t t' = true
  | list r, ts, us => List.Forall₂ r.Equal ts us
  | optional r, t, u => Option.Rel r.Equal t u
  | _, t, u => t = u

/-- Equal values are read as equal representations, or neither is read. -/
theorem fromHost_agree (r : Representation) (equal : v.same w = true) :
    Agree r.Equal (r.fromHost v) (r.fromHost w) := by
  have paired := Paired.of_same equal
  induction r generalizing v w with
  | value => exact .ok equal
  | bool =>
    cases paired with
    | bool b => exact .ok rfl
    | _ => exact .error _ _
  | int k => exact readInteger_agree k _ paired
  | size => exact readInteger_agree _ _ paired
  | f32 =>
    have related := paired.asFloat?
    unfold fromHost
    generalize v.asFloat? = x, w.asFloat? = y at related
    cases related with
    | none => exact .error _ _
    | some equal => exact .ok (Number.toSingle_beq equal)
  | f64 =>
    have related := paired.asFloat?
    unfold fromHost
    generalize v.asFloat? = x, w.asFloat? = y at related
    cases related with
    | none => exact .error _ _
    | some equal => exact .ok equal
  | bigint =>
    cases paired with
    | int i => exact .ok rfl
    | unsigned u => exact .ok rfl
    | big n => exact .ok rfl
    | intUnsigned number => exact .ok number
    | unsignedInt number => exact .ok number.symm
    | @float x y equal =>
      obtain ⟨-, rfl | ⟨zero, zero'⟩⟩ := Number.beq_iff.1 equal
      · exact .refl (fun _ => rfl) _
      · simp only [fromHost, Number.integerPart?_of_isZero zero,
          Number.integerPart?_of_isZero zero']
        exact .ok rfl
    | _ => exact .error _ _
  | string =>
    cases paired with
    | str s => exact .ok rfl
    | _ => exact .error _ _
  | object =>
    cases paired with
    | object identity => exact .ok identity
    | _ => exact .error _ _
  | function =>
    cases paired with
    | function r => exact .ok rfl
    | _ => exact .error _ _
  | type =>
    cases paired with
    | type equal => exact .ok equal
    | _ => exact .error _ _
  | table =>
    cases paired with
    | table id => exact .ok rfl
    | _ => exact .error _ _
  | thread =>
    cases paired with
    | thread id => exact .ok rfl
    | _ => exact .error _ _
  | list r ih =>
    cases paired with
    | array each => exact Agree.mapM (each.imp fun v w equal => ih equal (.of_same equal))
    | _ => exact .error _ _
  | optional r ih =>
    cases paired with
    | nil => exact .ok .none
    | _ => exact (ih equal (.of_same equal)).map fun _ _ => .some

/-- Converting reads a representation and hands it back. What is handed back is read as what it was,
where nothing is optional that may be nil already; doubles have one NaN. Equal values are read as
equal representations, or neither is read. An integer of either sign is read by its number, exactly
where the type has that number. -/
theorem conversion_inverts_and_respects_equality :
    (∀ (r : Representation) (v : HostValue), r.convert v = (r.fromHost v).map r.toHost) ∧
    (∀ r : Representation, r.isFaithful = true →
      ∀ t : r.Native, r.fromHost (r.toHost t) = .ok t) ∧
    (∀ (r : Representation) (v w : HostValue), v.same w = true →
      Agree r.Equal (r.fromHost v) (r.fromHost w)) ∧
    (∀ k : IntKind, ReadsIntegers k (int k).fromHost) ∧ ReadsIntegers .u64 size.fromHost := by
  refine ⟨convert_eq, fun r faithful t => fromHost_toHost faithful t, fun r v w equal => ?_,
    fun k => ?_, ?_⟩
  · exact fromHost_agree r equal
  · exact readInteger_readsIntegers k k.text
  · exact readInteger_readsIntegers .u64 size.expected

/-- The largest size comes back although its value is unsigned; a list with a gap comes back, and
is read alike with zero or negative zero and with a signed or unsigned seven in it; and an unsigned
two hundred is no signed byte. -/
theorem conversion_inverts_and_respects_equality_measurements :
    (size.fromHost (size.toHost ⟨2 ^ 64 - 1, by decide⟩) = .ok ⟨2 ^ 64 - 1, by decide⟩ ∧
      (list (optional f64)).fromHost ((list (optional f64)).toHost [some (0.5 : Float), none])
        = .ok [some (0.5 : Float), none]) ∧
    Agree (list (optional f64)).Equal
      ((list (optional f64)).fromHost (.array [.float 0.0, .nil, .int 7]))
      ((list (optional f64)).fromHost (.array [.float (-0.0), .nil, .unsigned 7])) ∧
    ¬ ∃ t, (int .i8).fromHost (.unsigned 200) = .ok t := by
  obtain ⟨-, inverts, agrees, integers, -⟩ := conversion_inverts_and_respects_equality
  refine ⟨⟨inverts size rfl _, inverts (list (optional f64)) rfl _⟩, agrees _ _ _ (by decide), ?_⟩
  intro read
  exact absurd ((integers .i8 (.unsigned 200) 200 rfl).1.1 read) (by decide)

end Representation

end ScriptBridge
