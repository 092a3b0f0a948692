import ScriptBridge.Proofs.Result
import ScriptBridge.Proofs.Rounding
import ScriptBridge.Host.Conversion

/-!
# Typed host representations

`Representation.convert` reads a value and hands it back at once. Here the two halves stand apart:
`fromHost` gives the representation itself, an inhabitant of `Representation.Native`, and `toHost`
hands it back. What a faithful representation hands back is read as what it was.
-/

namespace ScriptBridge

lemma bounds_of_holds {k : IntKind} {n : Int} (h : k.holds n = true) :
    -2 ^ 63 ≤ n ∧ n < 2 ^ 64 := by
  unfold IntKind.holds at h
  rw [Bool.and_eq_true, decide_eq_true_eq, decide_eq_true_eq] at h
  have low : -2 ^ 63 ≤ k.low := by cases k <;> decide
  have high : k.high < 2 ^ 64 := by cases k <;> decide
  exact ⟨low.trans h.1, h.2.trans_lt high⟩

/-- An integer that some fixed width holds is read back from its value. -/
lemma integer?_ofInteger {k : IntKind} {n : Int} (h : k.holds n = true) :
    (HostValue.ofInteger n).integer? = some n := by
  obtain ⟨low, high⟩ := bounds_of_holds h
  unfold HostValue.ofInteger
  split
  · rename_i below
    have below' : n < 2 ^ 63 := below
    simp only [HostValue.integer?]
    rw [Int64.toInt_ofInt_of_le low below']
  · rename_i above
    have above' : ¬n < 2 ^ 63 := above
    simp only [HostValue.integer?]
    rw [UInt64.toNat_ofNat_of_lt' (show n.toNat < 2 ^ 64 by omega), Int.toNat_of_nonneg (by omega)]

/-- An integer of a width is read back from its value, whatever errors would call it. -/
lemma readInteger_ofInteger {k : IntKind} (name : String) (n : { n : Int // k.holds n = true }) :
    readInteger k name (.ofInteger n.1) = .ok n := by
  unfold readInteger
  rw [integer?_ofInteger n.2]
  exact dif_pos n.2

namespace Representation

/-- What a host member works with: fixed-width integers in their range, and single precision
numbers as the doubles that are their own rounding. -/
def Native : Representation → Type
  | value => HostValue
  | bool => Bool
  | int k => { n : Int // k.holds n = true }
  | size => { n : Int // IntKind.u64.holds n = true }
  | f32 => { x : Float // Number.toSingle x = x }
  | f64 => Float
  | bigint => Int
  | string => String
  | object => HostObject
  | function => Routine
  | type => HostType
  | table => Nat
  | thread => Nat
  | list r => List r.Native
  | optional r => Option r.Native

/-- Hands a representation back as a value. -/
def toHost : (r : Representation) → r.Native → HostValue
  | value, v => v
  | bool, b => .bool b
  | int _, n => .ofInteger n.1
  | size, n => .ofInteger n.1
  | f32, x => .float x.1
  | f64, (x : Float) => .float x
  | bigint, (n : Int) => .big n
  | string, (s : String) => .str s
  | object, o => .object o
  | function, r => .function r
  | type, t => .type t
  | table, (id : Nat) => .table id
  | thread, (id : Nat) => .thread id
  | list r, items => .array (items.map r.toHost)
  | optional _, none => .nil
  | optional r, some x => r.toHost x

/-- The failure of reading a value of another type. -/
def refuse (r : Representation) (v : HostValue) : Except ConversionError r.Native :=
  .error (.mismatch r.expected v.describe)

/-- Reads the representation of a value. -/
def fromHost : (r : Representation) → HostValue → Except ConversionError r.Native
  | value => fun v => .ok v
  | bool => fun
    | .bool b => .ok b
    | v => refuse bool v
  | int k => readInteger k k.text
  | size => readInteger .u64 size.expected
  | f32 => fun v =>
    match v.asFloat? with
    | some x => .ok ⟨Number.toSingle x, Number.toSingle_toSingle x⟩
    | none => refuse f32 v
  | f64 => fun v =>
    match v.asFloat? with
    | some x => .ok x
    | none => refuse f64 v
  | bigint => fun
    | .big n => .ok n
    | .float x =>
      match Number.integerPart? x with
      | some n => .ok n
      | none => .error (.notIntegral (Number.hostText x))
    | v =>
      match v.integer? with
      | some n => .ok n
      | none => refuse bigint v
  | string => fun
    | .str s => .ok s
    | v => refuse string v
  | object => fun
    | .object o => .ok o
    | v => refuse object v
  | function => fun
    | .function r => .ok r
    | v => refuse function v
  | type => fun
    | .type t => .ok t
    | v => refuse type v
  | table => fun
    | .table id => .ok id
    | v => refuse table v
  | thread => fun
    | .thread id => .ok id
    | v => refuse thread v
  | list r => fun
    | .array items => items.mapM r.fromHost
    | v => refuse (list r) v
  | optional r => fun
    | .nil => .ok none
    | v => (r.fromHost v).map some

/-- Converting is reading the representation and handing it back. -/
theorem convert_eq (r : Representation) (v : HostValue) :
    r.convert v = (r.fromHost v).map r.toHost := by
  induction r generalizing v with
  | f32 =>
    unfold convert fromHost
    cases v.asFloat? <;> rfl
  | f64 =>
    unfold convert fromHost
    cases v.asFloat? <;> rfl
  | bigint =>
    cases v with
    | float x =>
      simp only [convert, fromHost]
      cases Number.integerPart? x <;> rfl
    | _ => rfl
  | list r ih =>
    cases v with
    | array items =>
      simp only [convert, fromHost]
      rw [funext ih, mapM_map_result]
      cases items.mapM r.fromHost <;> rfl
    | _ => rfl
  | optional r ih =>
    cases v with
    | nil => rfl
    | _ =>
      simp only [convert, fromHost, ih]
      cases r.fromHost _ <;> rfl
  | _ => cases v <;> rfl

section RoundTrip

variable {r : Representation}

/-- Whether nil is one of the values handed back. -/
def givesNil : Representation → Bool
  | value | optional _ => true
  | _ => false

/-- Whether what is handed back tells all that was there: nothing is optional that may be nil
already. -/
def isFaithful : Representation → Bool
  | list r => r.isFaithful
  | optional r => !r.givesNil && r.isFaithful
  | _ => true

lemma toHost_ne_nil (never : r.givesNil = false) (t : r.Native) : r.toHost t ≠ .nil := by
  have ofInteger_ne (n : Int) : HostValue.ofInteger n ≠ .nil := by
    unfold HostValue.ofInteger
    split <;> exact HostValue.noConfusion
  cases r with
  | value => cases never
  | optional _ => cases never
  | int k => exact ofInteger_ne t.1
  | size => exact ofInteger_ne t.1
  | _ => exact HostValue.noConfusion

/-- Everything but nil is there. -/
lemma fromHost_optional {v : HostValue} (present : v ≠ .nil) :
    (optional r).fromHost v = (r.fromHost v).map some := by
  cases v with
  | nil => exact absurd rfl present
  | _ => rfl

/-- What a faithful representation is handed back as is read as that representation. -/
theorem fromHost_toHost (faithful : r.isFaithful = true) (t : r.Native) :
    r.fromHost (r.toHost t) = .ok t := by
  induction r with
  | int k => exact readInteger_ofInteger k.text t
  | size => exact readInteger_ofInteger _ t
  | f32 =>
    obtain ⟨x, fixed⟩ := t
    show Except.ok (⟨Number.toSingle x, _⟩ : { x : Float // Number.toSingle x = x })
      = .ok ⟨x, fixed⟩
    simp only [fixed]
  | list r ih =>
    change List r.Native at t
    exact mapM_map_eq_ok t fun t _ => ih faithful t
  | optional r ih =>
    obtain ⟨present, faithful⟩ := Bool.and_eq_true_iff.1 faithful
    cases t with
    | none => rfl
    | some t =>
      have there := toHost_ne_nil (Bool.not_eq_true' _ ▸ present) t
      show (optional r).fromHost (r.toHost t) = .ok (some t)
      rw [fromHost_optional there, ih faithful t]
      rfl
  | _ => rfl

end RoundTrip

end Representation

end ScriptBridge
