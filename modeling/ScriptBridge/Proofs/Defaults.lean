import ScriptBridge.Proofs.Binding
import ScriptBridge.Proofs.Coercion

/-!
# Defaults

A parameter that is left without an argument holds its default as it was declared. Binding does not
coerce it, so it is what coercion would make of it only where it is a value of the kind already.
-/

namespace ScriptBridge

namespace DefaultValue

/-- Whether a default is a value of the kind as it stands. -/
def fits : DefaultValue → Kind → Bool
  | _, .any | _, .placeholder _ => true
  | nil, kind => kind.acceptsNil
  | bool _, .bool => true
  | int i, .int width => width.holds i.toInt
  | float _, .f64 => true
  | float x, .f32 => Number.toSingle x = x
  | str _, .string => true
  | _, _ => false

end DefaultValue

namespace Bridge

open Script

variable {limit : Nat} {h : Heap} {kind : Kind} {d : DefaultValue}

lemma ofInteger_toInt (i : Int64) : HostValue.ofInteger i.toInt = .int i := by
  have below : i.toInt < (Number.twoTo 63 : Int) := i.toInt_lt
  rw [HostValue.ofInteger, if_pos below, Int64.ofInt_toInt]

/-- An integer is no text and no float. -/
lemma ofInteger_cases (n : Int) :
    (∃ i, HostValue.ofInteger n = .int i) ∨ ∃ u, HostValue.ofInteger n = .unsigned u := by
  unfold HostValue.ofInteger
  split
  · exact Or.inl ⟨_, rfl⟩
  · exact Or.inr ⟨_, rfl⟩

/-- Of the numbers that a numeric kind takes it leaves those of the kind as they are. -/
lemma coerceNumeric?_default (numeric : kind.isNumeric = true) :
    coerceNumeric? kind d.value = some d.value ↔ d.fits kind = true := by
  cases kind with
  | int width =>
    cases d with
    | int i =>
      show (if width.holds i.toInt then some (HostValue.ofInteger i.toInt) else none) = _ ↔ _
      rw [ofInteger_toInt]
      simp [DefaultValue.fits, DefaultValue.value]
    | _ =>
      refine iff_of_false (fun same => ?_) (by simp [DefaultValue.fits, Kind.acceptsNil])
      obtain ⟨⟨n, _⟩, eq⟩ := coerceNumeric?_image (k := .int width) same
      rcases ofInteger_cases n with ⟨i, int⟩ | ⟨u, unsigned⟩
      · cases int.symm.trans eq
      · cases unsigned.symm.trans eq
  | f32 =>
    cases d with
    | float x => simp [coerceNumeric?, ofFloat?, DefaultValue.fits, DefaultValue.value]
    | _ =>
      refine iff_of_false (fun same => ?_) (by simp [DefaultValue.fits, Kind.acceptsNil])
      obtain ⟨x, eq⟩ := coerceNumeric?_image (k := .f32) same
      cases eq
  | f64 =>
    cases d with
    | float x => simp [coerceNumeric?, ofFloat?, DefaultValue.fits, DefaultValue.value]
    | _ =>
      refine iff_of_false (fun same => ?_) (by simp [DefaultValue.fits, Kind.acceptsNil])
      obtain ⟨x, eq⟩ := coerceNumeric?_image (k := .f64) same
      cases eq
  | bigint =>
    refine iff_of_false (fun same => ?_) (by cases d <;> simp [DefaultValue.fits, Kind.acceptsNil])
    obtain ⟨n, eq⟩ := coerceNumeric?_image (k := .bigint) same
    cases d <;> cases eq
  | _ => cases numeric

/-- Coercion leaves a default as it is where the default is a value of the kind. -/
lemma coerce_default_iff : coerce limit h d.value kind = .ok d.value ↔ d.fits kind = true := by
  unfold coerce
  cases kind with
  | int | f32 | f64 | bigint =>
    rw [coerceAt_numeric rfl, ofOption_eq_ok, coerceNumeric?_default rfl]
  | _ => cases d <;> simp [coerceAt, DefaultValue.value, DefaultValue.fits, Kind.acceptsNil]

/-- A parameter that is left no argument holds its default, which is what coercion makes of the
default exactly where it fits the kind. -/
theorem slot_of_default {m : Method} {args : List HostValue} {receiver : Option HostObject}
    {b : Binding} (bound : bind (coerce limit h) m args receiver = some b) {i : Nat} {p : Param}
    (param : (m.left receiver)[i]? = some p) (takes : p.takesArgument = true)
    (default : p.default = some d)
    (missing : Missing (remaining ((m.left receiver).take i) args)) :
    b.slots[(m.received receiver).length + i]? = some d.value ∧
      (coerce limit h d.value p.kind = .ok d.value ↔ d.fits p.kind = true) := by
  obtain ⟨slot, points, here, row⟩ := exists_slot bound param
  obtain ⟨rfl, -⟩ := (row_default takes missing default).1 row
  exact ⟨here, coerce_default_iff⟩

section Zooming

/-- Zooms by a factor, a double, which is the integer one where it is omitted. -/
def zooming : Method where
  name := "zoom"
  params := [⟨"factor", .f64, .input, some (.int 1)⟩]
  returns := some .any
  isStatic := true
  hidden := false
  isExtension := false
  typeParams := 0
  label := "zoom"
  body := .slots

lemma bind_zooming : bind (coerce 8 {}) zooming [] none = some ⟨1, [.int 1]⟩ := by
  rfl

/-- The factor is an integer where it is omitted, which no coercion to doubles makes. -/
theorem zooming_slot : bind (coerce 8 {}) zooming [] none = some ⟨1, [.int 1]⟩ ∧
    Missing (remaining [] []) ∧ [HostValue.int 1][0]? = some (.int 1) ∧
    (coerce 8 {} (.int 1) .f64 = .ok (.int 1) ↔ (DefaultValue.int 1).fits .f64 = true) := by
  have missing : Missing (remaining [] []) := Or.inl rfl
  exact ⟨bind_zooming, missing, slot_of_default (i := 0) bind_zooming rfl rfl rfl missing⟩

/-- An omitted argument does not always come to its default coerced. -/
theorem not_always_coerced : ¬ ∀ (limit : Nat) (h : Heap) (m : Method) (args : List HostValue)
    (receiver : Option HostObject) (b : Binding),
    bind (coerce limit h) m args receiver = some b →
    ∀ (i : Nat) (p : Param) (d : DefaultValue), (m.left receiver)[i]? = some p →
      p.takesArgument = true → p.default = some d → d ≠ .nil →
      Missing (remaining ((m.left receiver).take i) args) →
      ∃ slot, b.slots[(m.received receiver).length + i]? = some slot ∧
        coerce limit h d.value p.kind = .ok slot := by
  intro always
  obtain ⟨slot, here, ok⟩ := always 8 {} zooming [] none _ bind_zooming 0 _ (.int 1) rfl rfl rfl
    (by simp) (Or.inl rfl)
  cases here
  cases ok

end Zooming

end Bridge

end ScriptBridge
