import ScriptBridge.Proofs.Rounding

/-!
# Equality of doubles

A double that is not a NaN equals itself, and the two zeros equal each other; no other doubles are
equal. What integers, big integers and single precision numbers are made of equal doubles is equal.
-/

namespace ScriptBridge.Number

open Float.Model (UnpackedFloat)
open Float.Model.UnpackedFloat (pack unpack unpackExponent unpackMantissa)

/-- Whether a double is one of the two zeros. -/
def isZero (x : Float) : Bool :=
  match read x with
  | .finite _ m _ => m == 0
  | _ => false

section Model

lemma compare_sign (s s' : UnpackedFloat.Sign) : compare s s' = .eq ↔ s = s' := by
  cases s <;> cases s' <;> simp [compare]

lemma compare_eq {a b : UnpackedFloat} :
    a.compare b = some .eq ↔
      a ≠ .notANumber ∧ (a = b ∨ (∃ s, a = .zero s) ∧ ∃ s, b = .zero s) := by
  rcases a with ⟨⟨⟩⟩ | - | ⟨⟨⟩⟩ | ⟨⟨⟩, m, e, pos⟩ <;>
    rcases b with ⟨⟨⟩⟩ | - | ⟨⟨⟩⟩ | ⟨⟨⟩, n, f, pos'⟩ <;>
    simp [UnpackedFloat.compare, compare_sign, Ordering.then_eq_eq, and_comm]

/-- The bits of a double. -/
def word (x : Float) : Word :=
  x.toBits.toBitVec

/-- The fields of a double, as `read` finds them. -/
lemma fields_iff (x : Float) :
    (unpackExponent (word x) = -1#11 ↔
        x.toBits.toNat / twoTo 52 % twoTo 11 = twoTo 11 - 1) ∧
      (unpackExponent (word x) = 0#11 ↔ x.toBits.toNat / twoTo 52 % twoTo 11 = 0) ∧
      (unpackMantissa (word x) = 0#52 ↔ x.toBits.toNat % twoTo 52 = 0) := by
  refine ⟨?_, ?_, ?_⟩
  · rw [← BitVec.toNat_inj]
    exact (toNat_unpackExponent (word x)).congr_left
  · rw [← BitVec.toNat_inj]
    exact (toNat_unpackExponent (word x)).congr_left
  · rw [← BitVec.toNat_inj]
    exact (toNat_unpackMantissa (word x)).congr_left

lemma isNaN_iff (x : Float) :
    isNaN x = true ↔ unpackExponent (word x) = -1#11 ∧ unpackMantissa (word x) ≠ 0#52 := by
  obtain ⟨top, -, zero⟩ := fields_iff x
  rw [top, ne_eq, zero]
  unfold isNaN read
  dsimp only
  split_ifs <;> simp_all

lemma isZero_iff (x : Float) :
    isZero x = true ↔ unpackExponent (word x) = 0#11 ∧ unpackMantissa (word x) = 0#52 := by
  obtain ⟨-, bottom, zero⟩ := fields_iff x
  have one : twoTo 52 ≠ 0 := by decide
  have last : twoTo 11 - 1 ≠ 0 := by decide
  rw [bottom, zero]
  unfold isZero read
  dsimp only
  split_ifs <;> simp_all

lemma unpack_eq_notANumber_iff (x : Float) :
    unpack .binary64 (word x) = .notANumber ↔ isNaN x = true := by
  rw [isNaN_iff]
  unfold unpack
  dsimp only
  split_ifs <;> simp_all

lemma unpack_eq_zero_iff (x : Float) :
    (∃ s, unpack .binary64 (word x) = .zero s) ↔ isZero x = true := by
  rw [isZero_iff]
  unfold unpack
  dsimp only
  split_ifs <;> simp_all

/-- There is one NaN, and every other double is told by its number. -/
lemma eq_of_unpack_eq {x y : Float} (same : unpack .binary64 (word x) = unpack .binary64 (word y)) :
    x = y := by
  have nan_iff : isNaN x = true ↔ isNaN y = true := by
    rw [← unpack_eq_notANumber_iff, ← unpack_eq_notANumber_iff, same]
  have kept {z : Float} (number : ¬ isNaN z = true) :
      pack .binary64 (unpack .binary64 (word z)) = word z := by
    rw [isNaN_iff, not_and_or, not_not] at number
    exact pack_unpack (word z) number
  have words : word x = word y := by
    by_cases nan : isNaN x = true
    · obtain ⟨top, fraction⟩ := (isNaN_iff x).1 nan
      obtain ⟨top', fraction'⟩ := (isNaN_iff y).1 (nan_iff.1 nan)
      exact (x.toModel.valid.eq_packedNaN top fraction).trans
        (y.toModel.valid.eq_packedNaN top' fraction').symm
    · rw [← kept nan, ← kept (mt nan_iff.2 nan), same]
  obtain ⟨⟨⟨bits⟩, valid⟩⟩ := x
  obtain ⟨⟨⟨bits'⟩, valid'⟩⟩ := y
  cases (words : bits = bits')
  rfl

lemma beq_iff_compare (x y : Float) :
    (x == y) = true ↔
      (unpack .binary64 (word x)).compare (unpack .binary64 (word y)) = some .eq := by
  show (UnpackedFloat.compare _ _ == some .eq) = true ↔ _
  rw [beq_iff_eq]
  rfl

end Model

variable {x y z : Float}

/-- Equal doubles are the same, or both are zero. -/
theorem beq_iff :
    (x == y) = true ↔ isNaN x = false ∧ (x = y ∨ isZero x = true ∧ isZero y = true) := by
  rw [beq_iff_compare, compare_eq, unpack_eq_zero_iff, unpack_eq_zero_iff, ne_eq,
    unpack_eq_notANumber_iff, Bool.not_eq_true]
  refine and_congr_right fun _ => or_congr_left ⟨eq_of_unpack_eq, ?_⟩
  rintro rfl
  rfl

lemma beq_self (number : isNaN x = false) : (x == x) = true :=
  beq_iff.2 ⟨number, Or.inl rfl⟩

lemma exists_read_of_isZero (zero : isZero x = true) :
    ∃ negative exponent, read x = .finite negative 0 exponent := by
  unfold isZero at zero
  split at zero
  · rename_i negative m exponent reading
    exact ⟨negative, exponent, reading.trans (by rw [beq_iff_eq.1 zero])⟩
  · cases zero

lemma isNaN_of_isZero (zero : isZero x = true) : isNaN x = false := by
  obtain ⟨negative, exponent, reading⟩ := exists_read_of_isZero zero
  rw [isNaN, reading]

lemma beq_of_isZero (zero : isZero x = true) (zero' : isZero y = true) : (x == y) = true :=
  beq_iff.2 ⟨isNaN_of_isZero zero, Or.inr ⟨zero, zero'⟩⟩

/-- Equality of doubles is symmetric. -/
theorem beq_swap (x y : Float) : (x == y) = (y == x) := by
  have swap {x y : Float} (equal : (x == y) = true) : (y == x) = true := by
    obtain ⟨number, rfl | ⟨zero, zero'⟩⟩ := beq_iff.1 equal
    · exact equal
    · exact beq_of_isZero zero' zero
  exact Bool.eq_iff_iff.2 ⟨swap, swap⟩

/-- Equality of doubles is transitive. -/
theorem beq_trans (first : (x == y) = true) (second : (y == z) = true) : (x == z) = true := by
  obtain ⟨-, rfl | ⟨zero, zero'⟩⟩ := beq_iff.1 first
  · exact second
  · obtain ⟨-, rfl | ⟨-, zero''⟩⟩ := beq_iff.1 second
    · exact first
    · exact beq_of_isZero zero zero''

/-- A zero is the integer zero. -/
lemma integer?_of_isZero (zero : isZero x = true) : integer? x = some 0 := by
  obtain ⟨negative, exponent, reading⟩ := exists_read_of_isZero zero
  cases negative <;> simp [integer?, reading, signed]

lemma integerPart?_of_isZero (zero : isZero x = true) : integerPart? x = some 0 := by
  obtain ⟨negative, exponent, reading⟩ := exists_read_of_isZero zero
  cases negative <;> simp [integerPart?, reading, signed]

/-- Rounded to single precision, a zero is a zero. -/
lemma isZero_toSingle (zero : isZero x = true) : isZero (toSingle x) = true := by
  obtain ⟨negative, exponent, reading⟩ := exists_read_of_isZero zero
  have rounded : toSingle x = write negative 0 0 := by simp [toSingle, reading, round]
  obtain ⟨n, p, written, value⟩ := read_write negative (single_zero.of_single)
  have none : n = 0 := scaled_eq_zero.1 (value.trans (scaled_eq_zero.2 rfl))
  rw [rounded, isZero, written, none]
  rfl

section Rounded

lemma isNaN_infinity (negative : Bool) : isNaN (infinity negative) = false := by
  rw [isNaN, read_infinity]

lemma isNaN_write (negative : Bool) {m : Nat} {q : Int} (h : double.Holds m q) :
    isNaN (write negative m q) = false := by
  obtain ⟨n, p, reading, -⟩ := read_write negative h
  rw [isNaN, reading]

/-- Rounding a ratio never gives a NaN. -/
lemma isNaN_round {format : Format} (hp : 0 < format.precision) (h0 : format.Holds 0 0)
    (wide : ∀ m q, format.Holds m q → double.Holds m q) (negative : Bool) (n : Nat) {d : Nat}
    (hd : 0 < d) : isNaN (round format negative n d) = false := by
  rcases round_holds hp h0 negative n hd with infinite | ⟨m, q, holds, eq⟩
  · rw [infinite, isNaN_infinity]
  · rw [eq, isNaN_write negative (wide m q holds)]

lemma isNaN_ofInt (i : Int) : isNaN (ofInt i) = false :=
  isNaN_round (by decide) single_zero.of_single (fun _ _ => id) _ _ Nat.one_pos

lemma isNaN_toSingle (number : isNaN x = false) : isNaN (toSingle x) = false := by
  cases reading : read x with
  | notANumber =>
    rw [isNaN, reading] at number
    cases number
  | infinite negative => rwa [toSingle, reading]
  | finite negative m q =>
    obtain ⟨n, d, hd, eq, -⟩ := toSingle_of_read reading
    rw [eq]
    exact isNaN_round (by decide) single_zero (fun _ _ => Format.Holds.of_single) negative n hd

/-- Equal doubles are equal once rounded to single precision. -/
lemma toSingle_beq (equal : (x == y) = true) : (toSingle x == toSingle y) = true := by
  obtain ⟨number, rfl | ⟨zero, zero'⟩⟩ := beq_iff.1 equal
  · exact beq_self (isNaN_toSingle number)
  · exact beq_of_isZero (isZero_toSingle zero) (isZero_toSingle zero')

end Rounded

end ScriptBridge.Number
