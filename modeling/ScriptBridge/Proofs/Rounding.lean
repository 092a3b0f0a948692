import ScriptBridge.Proofs.Bits

/-!
# Rounding

The value of a significand and an exponent is a rational number. What `write` gives depends on
that number alone, `read` finds it again, and `round` gives a number of the format and leaves the
numbers of the format as they are. So rounding to single precision is done once.
-/

namespace ScriptBridge.Number

/-- The rational number `m · 2 ^ q`. -/
def scaled (m : Nat) (q : Int) : ℚ :=
  m * 2 ^ q

lemma scaled_pos {m : Nat} (hm : 0 < m) (q : Int) : 0 < scaled m q := by
  unfold scaled
  positivity

lemma scaled_eq_zero {m : Nat} {q : Int} : scaled m q = 0 ↔ m = 0 := by
  unfold scaled
  have : (2 : ℚ) ^ q ≠ 0 := by positivity
  simp [this]

/-- A higher exponent moves into the significand. -/
lemma scaled_shift (m : Nat) {p q : Int} (h : p ≤ q) :
    scaled m q = scaled (m * 2 ^ (q - p).toNat) p := by
  obtain ⟨k, hk⟩ := Int.eq_ofNat_of_zero_le (show 0 ≤ q - p by omega)
  have hq : q = k + p := by omega
  rw [hq, show ((k : Int) + p - p).toNat = k by omega]
  unfold scaled
  rw [zpow_add₀ (by norm_num)]
  push_cast
  rw [zpow_natCast]
  ring

lemma scaled_injective {m n : Nat} {q : Int} (h : scaled m q = scaled n q) : m = n := by
  unfold scaled at h
  have : (2 : ℚ) ^ q ≠ 0 := by positivity
  have := mul_right_cancel₀ this h
  exact_mod_cast this

lemma log_eq {r : ℚ} {e : Int} (hr : 0 < r) (low : (2 : ℚ) ^ e ≤ r) (high : r < 2 ^ (e + 1)) :
    Int.log 2 r = e := by
  have h1 : e ≤ Int.log 2 r := (Int.zpow_le_iff_le_log (by decide) hr).1 (by exact_mod_cast low)
  have h2 : Int.log 2 r < e + 1 :=
    (Int.lt_zpow_iff_log_lt (by decide) hr).1 (by exact_mod_cast high)
  omega

lemma log_scaled {m : Nat} (hm : 0 < m) (q : Int) : Int.log 2 (scaled m q) = m.log2 + q := by
  have low : (2 : ℚ) ^ m.log2 ≤ m := by exact_mod_cast Nat.log2_self_le hm.ne'
  have high : (m : ℚ) < 2 ^ (m.log2 + 1) := by exact_mod_cast Nat.lt_log2_self
  have unit : (0 : ℚ) < 2 ^ q := by positivity
  apply log_eq (scaled_pos hm q)
  · rw [zpow_add₀ (by norm_num), zpow_natCast]
    exact mul_le_mul_of_nonneg_right low unit.le
  · rw [show (m.log2 : Int) + q + 1 = (m.log2 + 1 : Nat) + q by push_cast; ring,
      zpow_add₀ (by norm_num), zpow_natCast]
    exact mul_lt_mul_of_pos_right high unit

/-- The position of the highest bit depends on the value alone. -/
lemma log2_add_eq {m n : Nat} {p q : Int} (hm : 0 < m) (hn : 0 < n) (h : scaled m p = scaled n q) :
    (m.log2 : Int) + p = n.log2 + q := by
  rw [← log_scaled hm, ← log_scaled hn, h]

/-- Comparing a ratio with a power of two by natural numbers alone. -/
lemma zpow_le_div_iff (n : Nat) {d : Nat} (hd : 0 < d) (e : Int) :
    (2 : ℚ) ^ e ≤ n / d ↔ (if 0 ≤ e then d * twoTo e.toNat ≤ n else d ≤ n * twoTo (-e).toNat) := by
  have pos : (0 : ℚ) < d := by exact_mod_cast hd
  rw [le_div_iff₀ pos]
  split
  · obtain ⟨k, rfl⟩ := Int.eq_ofNat_of_zero_le ‹0 ≤ e›
    rw [zpow_natCast, mul_comm, Int.toNat_natCast, twoTo_eq]
    exact_mod_cast Iff.rfl
  · obtain ⟨k, hk⟩ := Int.eq_ofNat_of_zero_le (show 0 ≤ -e by omega)
    rw [show e = -(k : Int) by omega, neg_neg, Int.toNat_natCast, twoTo_eq, zpow_neg, zpow_natCast,
      inv_mul_le_iff₀ (by positivity), mul_comm]
    exact_mod_cast Iff.rfl

theorem floorLog2_eq {n d : Nat} (hn : 0 < n) (hd : 0 < d) :
    floorLog2 n d = Int.log 2 (n / d : ℚ) := by
  have npos : (0 : ℚ) < n := by exact_mod_cast hn
  have dpos : (0 : ℚ) < d := by exact_mod_cast hd
  have nlow : (2 : ℚ) ^ n.log2 ≤ n := by exact_mod_cast Nat.log2_self_le hn.ne'
  have nhigh : (n : ℚ) < 2 ^ (n.log2 + 1) := by exact_mod_cast Nat.lt_log2_self
  have dlow : (2 : ℚ) ^ d.log2 ≤ d := by exact_mod_cast Nat.log2_self_le hd.ne'
  have dhigh : (d : ℚ) < 2 ^ (d.log2 + 1) := by exact_mod_cast Nat.lt_log2_self
  -- the difference of the two logarithms is right or one too high
  have low : (2 : ℚ) ^ ((n.log2 : Int) - d.log2 - 1) ≤ n / d := by
    rw [le_div_iff₀ dpos, sub_sub, zpow_sub₀ (by norm_num), zpow_natCast,
      show ((d.log2 : Int) + 1) = ((d.log2 + 1 : Nat) : Int) by push_cast; rfl, zpow_natCast,
      div_mul_eq_mul_div, div_le_iff₀ (by positivity)]
    exact mul_le_mul nlow dhigh.le dpos.le npos.le
  have high : (n / d : ℚ) < 2 ^ ((n.log2 : Int) - d.log2 + 1) := by
    rw [div_lt_iff₀ dpos, sub_add_eq_add_sub, zpow_sub₀ (by norm_num), zpow_natCast,
      show ((n.log2 : Int) + 1) = ((n.log2 + 1 : Nat) : Int) by push_cast; rfl, zpow_natCast,
      div_mul_eq_mul_div, lt_div_iff₀ (by positivity)]
    exact mul_lt_mul nhigh dlow (by positivity) (by positivity)
  have reached := zpow_le_div_iff n hd ((n.log2 : Int) - d.log2)
  have pos : (0 : ℚ) < n / d := div_pos npos dpos
  unfold floorLog2
  dsimp only
  by_cases le : (2 : ℚ) ^ ((n.log2 : Int) - d.log2) ≤ n / d
  · rw [if_pos (reached.1 le), log_eq pos le high]
  · rw [if_neg (mt reached.2 le), log_eq pos low]
    rw [sub_add_cancel]
    exact lt_of_not_ge le

lemma roundDiv_mul (k : Nat) {d : Nat} (hd : 0 < d) : roundDiv (k * d) d = k := by
  simp [roundDiv, Nat.mul_div_cancel k hd, hd]

lemma roundDiv_le {n d k : Nat} (hd : 0 < d) (h : n ≤ k * d) : roundDiv n d ≤ k := by
  have split := Nat.div_add_mod n d
  have rest := Nat.mod_lt n hd
  have le : n / d ≤ k := Nat.div_le_of_le_mul (by rwa [mul_comm])
  rcases le.eq_or_lt with eq | lt
  · have none : n % d = 0 := by
      rw [eq, mul_comm] at split
      omega
    simp only [roundDiv, none, eq]
    rw [if_pos (by omega)]
  · unfold roundDiv
    dsimp only
    split
    · exact le
    · split <;> omega

/-- The numbers `m · 2 ^ q` of a format, by a significand and an exponent that are in range. -/
structure Format.Holds (format : Format) (m : Nat) (q : Int) : Prop where
  significand : m < 2 ^ format.precision
  exponent : format.unitExponent ≤ q
  range : (m.log2 : Int) + q < format.overflowExponent

lemma Format.Holds.of_single {m : Nat} {q : Int} (h : single.Holds m q) : double.Holds m q := by
  obtain ⟨hm, hq, hr⟩ := h
  simp only [single] at hm hq hr
  exact ⟨lt_trans hm (by decide), by simp only [double]; omega, by simp only [double]; omega⟩

lemma log2_le_of_lt {m k : Nat} (h : m < 2 ^ (k + 1)) : m.log2 ≤ k := by
  by_cases zero : m = 0
  · rw [zero]
    exact Nat.zero_le k
  · have := (Nat.log2_lt zero).2 h
    omega

/-- Shifted so that its highest bit is bit 52, a significand depends on the value alone. -/
lemma aligned_eq {m n : Nat} {p q : Int} (hm : double.Holds m p) (hn : double.Holds n q)
    (mpos : 0 < m) (npos : 0 < n) (h : scaled m p = scaled n q) :
    m * 2 ^ (52 - m.log2) = n * 2 ^ (52 - n.log2) := by
  have log := log2_add_eq mpos npos h
  have mlog : m.log2 ≤ 52 := log2_le_of_lt hm.significand
  have nlog : n.log2 ≤ 52 := log2_le_of_lt hn.significand
  have left := scaled_shift m (show p - (52 - m.log2 : Nat) ≤ p by omega)
  have right := scaled_shift n (show q - (52 - n.log2 : Nat) ≤ q by omega)
  rw [show (p - (p - (52 - m.log2 : Nat))).toNat = 52 - m.log2 by omega] at left
  rw [show (q - (q - (52 - n.log2 : Nat))).toNat = 52 - n.log2 by omega,
    show q - ((52 - n.log2 : Nat) : Int) = p - (52 - m.log2 : Nat) by omega] at right
  exact scaled_injective (left.symm.trans (h.trans right))

/-- What `write` gives depends on the value alone. -/
theorem write_congr (negative : Bool) {m n : Nat} {p q : Int} (hm : double.Holds m p)
    (hn : double.Holds n q) (h : scaled m p = scaled n q) :
    write negative m p = write negative n q := by
  by_cases zero : m = 0
  · have : n = 0 := by
      rw [← scaled_eq_zero (q := q), ← h, zero]
      simp [scaled]
    rw [write, write, if_pos zero, if_pos this]
  · have nzero : n ≠ 0 := by
      intro none
      rw [none] at h
      exact zero (scaled_eq_zero.1 (h.trans (by simp [scaled])))
    have log := log2_add_eq (Nat.pos_of_ne_zero zero) (Nat.pos_of_ne_zero nzero) h
    have plow : -1074 ≤ p := hm.exponent
    have qlow : -1074 ≤ q := hn.exponent
    unfold write
    dsimp only
    rw [if_neg zero, if_neg nzero, log]
    dsimp only [twoTo, Nat.pow_eq]
    split
    · rw [aligned_eq hm hn (Nat.pos_of_ne_zero zero) (Nat.pos_of_ne_zero nzero) h]
    · have left := scaled_shift m plow
      have right := scaled_shift n qlow
      have := scaled_injective (left.symm.trans (h.trans right))
      rw [Int.sub_neg, Int.sub_neg] at this
      rw [this]

/-- A number that was written is read back with the same value. -/
theorem read_write (negative : Bool) {m : Nat} {q : Int} (h : double.Holds m q) :
    ∃ n p, read (write negative m q) = .finite negative n p ∧ scaled n p = scaled m q := by
  have low : -1074 ≤ q := h.exponent
  have high : (m.log2 : Int) + q < 1024 := h.range
  have mlog : m.log2 ≤ 52 := log2_le_of_lt h.significand
  by_cases zero : m = 0
  · refine ⟨0, -1074, ?_, by rw [zero]; simp [scaled]⟩
    have fields := read_fields negative 0 0 (by decide) (by decide)
    simpa [write, zero, twoTo_eq] using fields
  · have mpos := Nat.pos_of_ne_zero zero
    unfold write
    dsimp only
    rw [if_neg zero]
    dsimp only [twoTo, Nat.pow_eq]
    split
    · rename_i normal
      have top : 2 ^ 52 ≤ m * 2 ^ (52 - m.log2) := by
        calc 2 ^ 52 = 2 ^ m.log2 * 2 ^ (52 - m.log2) := by rw [← pow_add]; congr 1; omega
          _ ≤ m * 2 ^ (52 - m.log2) := Nat.mul_le_mul_right _ (Nat.log2_self_le zero)
      have small : m * 2 ^ (52 - m.log2) < 2 ^ 53 := by
        calc m * 2 ^ (52 - m.log2) < 2 ^ (m.log2 + 1) * 2 ^ (52 - m.log2) :=
              Nat.mul_lt_mul_of_pos_right Nat.lt_log2_self (by positivity)
          _ = 2 ^ 53 := by rw [← pow_add]; congr 1; omega
      have fields := read_fields negative ((m.log2 : Int) + q + 1023).toNat
        (m * 2 ^ (52 - m.log2) - 2 ^ 52) (by omega) (by omega)
      rw [if_neg (show ((m.log2 : Int) + q + 1023).toNat ≠ 0 by omega)] at fields
      refine ⟨_, _, fields, ?_⟩
      rw [Nat.sub_add_cancel top, scaled_shift m (show q - (52 - m.log2 : Nat) ≤ q by omega)]
      congr 1
      · congr 2
        omega
      · omega
    · rename_i subnormal
      have shift : m * 2 ^ (q + 1074).toNat < 2 ^ 52 := by
        calc m * 2 ^ (q + 1074).toNat < 2 ^ (m.log2 + 1) * 2 ^ (q + 1074).toNat :=
              Nat.mul_lt_mul_of_pos_right Nat.lt_log2_self (by positivity)
          _ = 2 ^ (m.log2 + 1 + (q + 1074).toNat) := by rw [← pow_add]
          _ ≤ 2 ^ 52 := Nat.pow_le_pow_right (by decide) (by omega)
      have fields := read_fields negative 0 (m * 2 ^ (q + 1074).toNat) (by decide) shift
      rw [if_pos rfl, Nat.zero_mul, Nat.add_zero] at fields
      refine ⟨_, _, fields, ?_⟩
      rw [scaled_shift m low, Int.sub_neg]

/-- How many units of `2 ^ q` make `n / d`, rounded. -/
def units (n d : Nat) (q : Int) : Nat :=
  if 0 ≤ q then roundDiv n (d * twoTo q.toNat) else roundDiv (n * twoTo (-q).toNat) d

/-- A count of units comes from dividing natural numbers whose ratio is the number of units. -/
lemma units_ratio (n : Nat) {d : Nat} (hd : 0 < d) (q : Int) :
    ∃ a b, 0 < b ∧ units n d q = roundDiv a b ∧ (n / d : ℚ) = a / b * 2 ^ q := by
  have dne : (d : ℚ) ≠ 0 := by exact_mod_cast hd.ne'
  unfold units
  split
  · obtain ⟨k, rfl⟩ := Int.eq_ofNat_of_zero_le ‹0 ≤ q›
    refine ⟨n, d * 2 ^ k, by positivity, rfl, ?_⟩
    rw [zpow_natCast]
    push_cast
    field_simp
  · obtain ⟨k, hk⟩ := Int.eq_ofNat_of_zero_le (show 0 ≤ -q by omega)
    refine ⟨n * 2 ^ k, d, hd, by rw [hk]; rfl, ?_⟩
    rw [show q = -(k : Int) by omega, zpow_neg, zpow_natCast]
    push_cast
    field_simp

lemma units_eq {n d k : Nat} {q : Int} (hd : 0 < d) (h : (n / d : ℚ) = scaled k q) :
    units n d q = k := by
  obtain ⟨a, b, hb, eq, ratio⟩ := units_ratio n hd q
  have bne : (b : ℚ) ≠ 0 := by exact_mod_cast hb.ne'
  have unit : (2 : ℚ) ^ q ≠ 0 := by positivity
  rw [h, scaled] at ratio
  have exact_ratio : (a : ℚ) = k * b := by
    rw [mul_right_cancel₀ unit ratio]
    field_simp
  rw [eq, show a = k * b by exact_mod_cast exact_ratio]
  exact roundDiv_mul k hb

lemma units_le {n d k : Nat} {q : Int} (hd : 0 < d) (h : (n / d : ℚ) ≤ scaled k q) :
    units n d q ≤ k := by
  obtain ⟨a, b, hb, eq, ratio⟩ := units_ratio n hd q
  have bpos : (0 : ℚ) < b := by exact_mod_cast hb
  have unit : (0 : ℚ) < 2 ^ q := by positivity
  rw [ratio, scaled] at h
  have le : (a : ℚ) ≤ k * b := by
    rw [← div_le_iff₀ bpos]
    exact le_of_mul_le_mul_right h unit
  rw [eq]
  exact roundDiv_le hb (by exact_mod_cast le)

/-- The exponent that `n / d` gets in a format, before rounding. -/
def Format.exponentOf (format : Format) (n d : Nat) : Int :=
  max format.unitExponent (floorLog2 n d - (format.precision - 1))

/-- Before rounding, the significand is below the first power of two that is too long. -/
lemma ratio_lt (format : Format) {n d : Nat} (hn : 0 < n) (hd : 0 < d) :
    (n / d : ℚ) < scaled (2 ^ format.precision) (format.exponentOf n d) := by
  have high := Int.lt_zpow_succ_log_self (b := 2) (by decide) (n / d : ℚ)
  rw [← floorLog2_eq hn hd] at high
  refine lt_of_lt_of_le (by exact_mod_cast high) ?_
  rw [scaled]
  push_cast
  rw [← zpow_natCast, ← zpow_add₀ (by norm_num)]
  refine zpow_le_zpow_right₀ (by norm_num) ?_
  unfold Format.exponentOf
  omega

theorem round_pos (format : Format) (negative : Bool) {n d : Nat} (hn : 0 < n) :
    round format negative n d =
      if format.overflowExponent ≤
          ((units n d (format.exponentOf n d)).log2 : Int) + format.exponentOf n d then
        infinity negative
      else if units n d (format.exponentOf n d) = 2 ^ format.precision then
        write negative (2 ^ (format.precision - 1)) (format.exponentOf n d + 1)
      else write negative (units n d (format.exponentOf n d)) (format.exponentOf n d) := by
  rw [round, if_neg hn.ne']
  rfl

/-- Rounding gives a number of the format, or overflows. -/
theorem round_holds {format : Format} (hp : 0 < format.precision) (h0 : format.Holds 0 0)
    (negative : Bool) (n : Nat) {d : Nat} (hd : 0 < d) :
    round format negative n d = infinity negative ∨
      ∃ m q, format.Holds m q ∧ round format negative n d = write negative m q := by
  by_cases zero : n = 0
  · exact Or.inr ⟨0, 0, h0, by rw [round, if_pos zero]⟩
  · have hn := Nat.pos_of_ne_zero zero
    have le := units_le hd (ratio_lt format hn hd).le
    have unit : format.unitExponent ≤ format.exponentOf n d := le_max_left _ _
    rw [round_pos format negative hn]
    split
    · exact Or.inl rfl
    · rename_i fits
      split
      · rename_i carry
        refine Or.inr ⟨_, _, ⟨?_, by omega, ?_⟩, rfl⟩
        · exact Nat.pow_lt_pow_right (by decide) (by omega)
        · rw [carry, Nat.log2_two_pow] at fits
          rw [Nat.log2_two_pow]
          omega
      · exact Or.inr ⟨_, _, ⟨by omega, unit, by omega⟩, rfl⟩

/-- A number of the format is its own rounding. -/
theorem round_of_holds {format : Format} (wide : ∀ m q, format.Holds m q → double.Holds m q)
    (negative : Bool) {n d m : Nat} {q : Int} (hd : 0 < d) (h : format.Holds m q)
    (value : (n / d : ℚ) = scaled m q) :
    round format negative n d = write negative m q := by
  have dne : (d : ℚ) ≠ 0 := by exact_mod_cast hd.ne'
  by_cases zero : m = 0
  · have none : n = 0 := by
      rw [zero, scaled_eq_zero.2 rfl, div_eq_zero_iff, or_iff_left dne] at value
      exact_mod_cast value
    rw [round, if_pos none, zero, write, write, if_pos rfl, if_pos rfl]
  · have hm := Nat.pos_of_ne_zero zero
    have hn : 0 < n := by
      refine Nat.pos_of_ne_zero fun none => ?_
      rw [none, Nat.cast_zero, zero_div] at value
      exact zero (scaled_eq_zero.1 value.symm)
    have log : floorLog2 n d = m.log2 + q := by
      rw [floorLog2_eq hn hd, value, log_scaled hm]
    have short : m.log2 < format.precision := (Nat.log2_lt zero).2 h.significand
    have unit := h.exponent
    have range := h.range
    have exponent : format.exponentOf n d ≤ q := by
      unfold Format.exponentOf
      omega
    rw [scaled_shift m exponent] at value
    have count := units_eq hd value
    have pos : 0 < m * 2 ^ (q - format.exponentOf n d).toNat := by positivity
    have top := log2_add_eq pos hm (scaled_shift m exponent).symm
    have inside : format.Holds (m * 2 ^ (q - format.exponentOf n d).toNat)
        (format.exponentOf n d) := by
      refine ⟨?_, le_max_left _ _, by omega⟩
      rw [← Nat.log2_lt pos.ne']
      have : (m.log2 : Int) + q - (format.precision - 1) ≤ format.exponentOf n d := by
        unfold Format.exponentOf
        omega
      omega
    rw [round_pos format negative hn, count, if_neg (by omega), if_neg inside.significand.ne]
    exact write_congr negative (wide _ _ inside) (wide _ _ h) (scaled_shift m exponent).symm

lemma single_zero : single.Holds 0 0 :=
  ⟨by decide, by decide, by decide⟩

/-- A finite double is rounded to single precision as a ratio with its value. -/
lemma toSingle_of_read {x : Float} {negative : Bool} {m : Nat} {q : Int}
    (h : read x = .finite negative m q) :
    ∃ n d, 0 < d ∧ toSingle x = round single negative n d ∧ (n / d : ℚ) = scaled m q := by
  simp only [toSingle, h]
  split
  · obtain ⟨k, rfl⟩ := Int.eq_ofNat_of_zero_le ‹0 ≤ q›
    refine ⟨m * twoTo k, 1, Nat.one_pos, rfl, ?_⟩
    simp [scaled, twoTo_eq]
  · obtain ⟨k, hk⟩ := Int.eq_ofNat_of_zero_le (show 0 ≤ -q by omega)
    refine ⟨m, twoTo k, by rw [twoTo_eq]; positivity, by rw [hk]; rfl, ?_⟩
    rw [show q = -(k : Int) by omega, scaled, twoTo_eq, zpow_neg, zpow_natCast, div_eq_mul_inv]
    push_cast
    rfl

lemma toSingle_write (negative : Bool) {m : Nat} {q : Int} (h : single.Holds m q) :
    toSingle (write negative m q) = write negative m q := by
  obtain ⟨n, p, reading, value⟩ := read_write negative h.of_single
  obtain ⟨a, b, hb, eq, ratio⟩ := toSingle_of_read reading
  rw [eq]
  exact round_of_holds (fun _ _ => Format.Holds.of_single) negative hb h (ratio.trans value)

lemma toSingle_infinity (negative : Bool) : toSingle (infinity negative) = infinity negative := by
  rw [toSingle, read_infinity]

/-- What was rounded to single precision is a single precision number. -/
lemma toSingle_round (negative : Bool) (n : Nat) {d : Nat} (hd : 0 < d) :
    toSingle (round single negative n d) = round single negative n d := by
  rcases round_holds (by decide) single_zero negative n hd with infinite | ⟨m, q, holds, eq⟩
  · rw [infinite, toSingle_infinity]
  · rw [eq, toSingle_write negative holds]

/-- Rounding to single precision a second time changes nothing. -/
@[simp]
theorem toSingle_toSingle (x : Float) : toSingle (toSingle x) = toSingle x := by
  cases reading : read x with
  | notANumber => simp only [toSingle, reading]
  | infinite negative => simp only [toSingle, reading]
  | finite negative m q =>
    obtain ⟨n, d, hd, eq, -⟩ := toSingle_of_read reading
    rw [eq, toSingle_round negative n hd]

/-- An integer rounded to single precision is a single precision number. -/
@[simp]
theorem toSingle_singleOfInt (i : Int) : toSingle (singleOfInt i) = singleOfInt i :=
  toSingle_round _ _ Nat.one_pos

end ScriptBridge.Number
