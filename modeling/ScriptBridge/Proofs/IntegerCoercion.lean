import Mathlib.Data.List.DropRight
import Mathlib.Data.Nat.Digits.Defs
import ScriptBridge.Proofs.Defaults

/-!
# Coercion to integers

An integer comes as a signed or an unsigned value, as a big integer or written out as a text. A
kind of integers takes those of its range, whichever way they come, and hands each out in one way
(`integer_coercion_exact`). What a text writes is told by a grammar, and the value of digits by
their positions.
-/

namespace ScriptBridge

namespace Number

/-- One or more ASCII decimal digits. -/
structure IsDigits (cs : List Char) : Prop where
  nonempty : cs ≠ []
  digit : ∀ c ∈ cs, c.isDigit = true

/-- The number that digits write, the last one being that of the units. -/
def valueOfDigits (cs : List Char) : Nat :=
  Nat.ofDigits 10 (cs.reverse.map fun c => c.toNat - '0'.toNat)

/-- An integer is written by an optional sign and digits. -/
inductive Writes : List Char → Int → Prop
  | bare {digits : List Char} (all : IsDigits digits) : Writes digits (valueOfDigits digits)
  | plus {digits : List Char} (all : IsDigits digits) :
      Writes ('+' :: digits) (valueOfDigits digits)
  | minus {digits : List Char} (all : IsDigits digits) :
      Writes ('-' :: digits) (-(valueOfDigits digits : Int))

section Reading

variable {cs : List Char} {n : Int}

lemma foldl_digits (cs : List Char) :
    cs.foldl (fun n c => 10 * n + (c.toNat - '0'.toNat)) 0 = valueOfDigits cs := by
  rw [valueOfDigits, Nat.ofDigits_eq_foldr, List.map_reverse, List.foldr_reverse, List.foldl_map]
  simp only [Nat.cast_id, Nat.add_comm]

lemma readDigits?_eq_some_iff {n : Nat} :
    readDigits? cs = some n ↔ IsDigits cs ∧ valueOfDigits cs = n := by
  rw [readDigits?, foldl_digits]
  split
  · rename_i no
    refine iff_of_false (by simp) fun ⟨all, _⟩ => ?_
    rcases Bool.or_eq_true_iff.1 no with empty | other
    · exact all.nonempty (List.isEmpty_iff.1 empty)
    · rw [List.all_eq_true.2 all.digit] at other
      cases other
  · rename_i yes
    rw [Bool.or_eq_true_iff, not_or] at yes
    have all : IsDigits cs := ⟨by simpa using yes.1, by simpa using yes.2⟩
    simp [all]

lemma readInteger?_minus :
    readInteger? ('-' :: cs) = (readDigits? cs).map fun n : Nat => -(n : Int) := by
  rw [readInteger?]
  cases readDigits? cs <;> rfl

/-- The reader accepts what the grammar derives. -/
lemma readInteger?_eq_some_iff : readInteger? cs = some n ↔ Writes cs n := by
  constructor
  · intro read
    unfold readInteger? at read
    split at read
    · rw [← readInteger?, readInteger?_minus] at read
      obtain ⟨m, digits, rfl⟩ := Option.map_eq_some_iff.1 read
      obtain ⟨all, rfl⟩ := readDigits?_eq_some_iff.1 digits
      exact .minus all
    · obtain ⟨m, digits, rfl⟩ := Option.map_eq_some_iff.1 read
      obtain ⟨all, rfl⟩ := readDigits?_eq_some_iff.1 digits
      exact .plus all
    · obtain ⟨m, digits, rfl⟩ := Option.map_eq_some_iff.1 read
      obtain ⟨all, rfl⟩ := readDigits?_eq_some_iff.1 digits
      exact .bare all
  · intro writes
    cases writes with
    | bare all =>
      unfold readInteger?
      split
      · cases all.digit _ List.mem_cons_self
      · cases all.digit _ List.mem_cons_self
      · rw [readDigits?_eq_some_iff.2 ⟨all, rfl⟩]
        rfl
    | plus all =>
      rw [readInteger?, readDigits?_eq_some_iff.2 ⟨all, rfl⟩]
      rfl
    | minus all =>
      rw [readInteger?, readDigits?_eq_some_iff.2 ⟨all, rfl⟩]
      rfl

lemma not_isBlank_of_isDigit {c : Char} (digit : c.isDigit = true) : Text.isBlank c = false := by
  simp only [Char.isDigit, Bool.and_eq_true, decide_eq_true_eq] at digit
  have low : 48 ≤ c.toNat := digit.1
  have high : c.toNat ≤ 57 := digit.2
  simp [Text.isBlank]
  omega

lemma IsDigits.not_isBlank (all : IsDigits cs) : ∀ c ∈ cs, Text.isBlank c = false :=
  fun c mem => not_isBlank_of_isDigit (all.digit c mem)

/-- A numeral has no blanks in it. -/
lemma Writes.not_isBlank (writes : Writes cs n) : ∀ c ∈ cs, Text.isBlank c = false := by
  cases writes with
  | bare all => exact all.not_isBlank
  | plus all => exact List.forall_mem_cons.2 ⟨by decide, all.not_isBlank⟩
  | minus all => exact List.forall_mem_cons.2 ⟨by decide, all.not_isBlank⟩

lemma Writes.ne_nil (writes : Writes cs n) : cs ≠ [] := by
  cases writes with
  | bare all => exact all.nonempty
  | plus | minus => exact List.cons_ne_nil _ _

end Reading

end Number

namespace Text

section Trimming

variable {front core back : List Char}

/-- Trimming takes nothing but blanks away, on both sides. -/
lemma exists_blanks (cs : List Char) : ∃ front back, cs = front ++ trim cs ++ back ∧
    (∀ c ∈ front, isBlank c = true) ∧ ∀ c ∈ back, isBlank c = true := by
  have trimmed : trim cs = (cs.dropWhile isBlank).rdropWhile isBlank := rfl
  refine ⟨cs.takeWhile isBlank, (cs.dropWhile isBlank).rtakeWhile isBlank, ?_, ?_, ?_⟩
  · rw [trimmed, List.append_assoc, List.rdropWhile_append_rtakeWhile,
      List.takeWhile_append_dropWhile]
  · exact fun c mem => List.mem_takeWhile_imp mem
  · exact fun c mem => List.mem_rtakeWhile_imp mem

lemma dropWhile_isBlank (before : ∀ c ∈ front, isBlank c = true) (nonempty : core ≠ [])
    (inside : ∀ c ∈ core, isBlank c = false) :
    (front ++ (core ++ back)).dropWhile isBlank = core ++ back := by
  obtain ⟨c, cs, rfl⟩ := List.exists_cons_of_ne_nil nonempty
  rw [List.dropWhile_append_of_pos before, List.cons_append,
    List.dropWhile_cons_of_neg (by simp [inside c])]

/-- What has no blanks in it is what trimming leaves of it with blanks around. -/
lemma trim_eq (before : ∀ c ∈ front, isBlank c = true) (after : ∀ c ∈ back, isBlank c = true)
    (nonempty : core ≠ []) (inside : ∀ c ∈ core, isBlank c = false) :
    trim (front ++ core ++ back) = core := by
  have reversed : (back.reverse ++ (core.reverse ++ [])).dropWhile isBlank = core.reverse ++ [] :=
    dropWhile_isBlank (by simpa using after) (by simpa using nonempty) (by simpa using inside)
  rw [List.append_nil] at reversed
  rw [trim, List.append_assoc, dropWhile_isBlank before nonempty inside, List.reverse_append,
    reversed, List.reverse_reverse]

end Trimming

end Text

namespace Bridge

open Script

/-- The ways an integer comes in. -/
inductive IntegerSource
  | signed (i : Int64)
  | unsigned (u : UInt64)
  | big (n : Int)
  | text (s : String)

namespace IntegerSource

def value : IntegerSource → HostValue
  | signed i => .int i
  | unsigned u => .unsigned u
  | big n => .big n
  | text s => .str s

/-- The integer that comes in; that of a text is written in it, with blanks around. -/
inductive Denotes : IntegerSource → Int → Prop
  | signed (i : Int64) : Denotes (signed i) i.toInt
  | unsigned (u : UInt64) : Denotes (unsigned u) u.toNat
  | big (n : Int) : Denotes (big n) n
  | text {s : String} {front numeral back : List Char} {n : Int}
      (split : s.toList = front ++ numeral ++ back) (before : ∀ c ∈ front, Text.isBlank c = true)
      (after : ∀ c ∈ back, Text.isBlank c = true) (writes : Number.Writes numeral n) :
      Denotes (text s) n

end IntegerSource

/-- The value that an integer is handed out as: a signed one where it fits 64 signed bits. -/
inductive HandedOut : Int → HostValue → Prop
  | signed {n : Int} (i : Int64) (same : i.toInt = n) : HandedOut n (.int i)
  | unsigned {n : Int} (u : UInt64) (same : (u.toNat : Int) = n) (large : 2 ^ 63 ≤ n) :
      HandedOut n (.unsigned u)

section Integers

variable {k k' : IntKind} {source : IntegerSource} {n : Int} {w : HostValue}
  {limit : Nat} {h : Heap}

lemma holds_iff : k.holds n = true ↔ k.low ≤ n ∧ n ≤ k.high := by
  rw [IntKind.holds, Bool.and_eq_true, decide_eq_true_eq, decide_eq_true_eq]

/-- Nothing that a fixed width holds is lost by way of 128 bits. -/
lemma fitsInt128_of_holds (holds : k.holds n = true) : Number.fitsInt128 n = true := by
  obtain ⟨low, high⟩ := bounds_of_holds holds
  have narrow : (2 : Int) ^ 64 ≤ (Number.twoTo 127 : Int) := by decide
  rw [Number.fitsInt128, Bool.and_eq_true, decide_eq_true_eq, decide_eq_true_eq]
  omega

lemma ofInteger?_int :
    ofInteger? (.int k) n = some w ↔ k.holds n = true ∧ HostValue.ofInteger n = w := by
  rw [ofInteger?]
  split <;> simp [*]

lemma ofWide?_int : ofWide? (.int k) n = ofInteger? (.int k) n := by
  ext w
  rw [ofWide?_eq_some, ofInteger?_int, and_iff_right_iff_imp]
  exact fun ⟨holds, _⟩ => fitsInt128_of_holds holds

/-- An integer that a fixed width holds is handed out in one way. -/
lemma handedOut_iff (holds : k.holds n = true) : HandedOut n w ↔ HostValue.ofInteger n = w := by
  obtain ⟨low, high⟩ := bounds_of_holds holds
  constructor
  · rintro (⟨i, rfl⟩ | ⟨u, rfl, large⟩)
    · exact ofInteger_toInt i
    · have above : ¬(u.toNat : Int) < (Number.twoTo 63 : Int) := not_lt.2 large
      rw [HostValue.ofInteger, if_neg above, Int.toNat_natCast, UInt64.ofNat_toNat]
  · rintro rfl
    unfold HostValue.ofInteger
    split
    · rename_i below
      exact .signed _ (Int64.toInt_ofInt_of_le low below)
    · rename_i above
      have large : (2 : Int) ^ 63 ≤ n := not_lt.1 above
      refine .unsigned _ ?_ large
      rw [UInt64.toNat_ofNat_of_lt' (show n.toNat < 2 ^ 64 by omega),
        Int.toNat_of_nonneg (by omega)]

lemma ofInteger?_eq_some_iff :
    ofInteger? (.int k) n = some w ↔ (k.low ≤ n ∧ n ≤ k.high) ∧ HandedOut n w := by
  rw [ofInteger?_int, ← holds_iff]
  exact and_congr_right fun holds => (handedOut_iff holds).symm

lemma denotes_text_iff {s : String} :
    (IntegerSource.text s).Denotes n ↔ Number.readInteger? (Text.trim s.toList) = some n := by
  rw [Number.readInteger?_eq_some_iff]
  constructor
  · rintro (_ | _ | _ | ⟨split, before, after, writes⟩)
    rwa [split, Text.trim_eq before after writes.ne_nil writes.not_isBlank]
  · intro writes
    obtain ⟨front, back, split, before, after⟩ := Text.exists_blanks s.toList
    exact .text split before after writes

/-- Whichever way it comes in, an integer is taken by its number alone. -/
lemma coerceNumeric?_source : coerceNumeric? (.int k) source.value = some w ↔
    ∃ n, source.Denotes n ∧ ofInteger? (.int k) n = some w := by
  cases source with
  | signed i => exact ⟨fun made => ⟨_, .signed i, made⟩, fun ⟨_, .signed _, made⟩ => made⟩
  | unsigned u => exact ⟨fun made => ⟨_, .unsigned u, made⟩, fun ⟨_, .unsigned _, made⟩ => made⟩
  | big n =>
    show ofWide? (.int k) n = some w ↔ _
    rw [ofWide?_int]
    exact ⟨fun made => ⟨_, .big n, made⟩, fun ⟨_, .big _, made⟩ => made⟩
  | text s =>
    show (Number.readInteger? (Text.trim s.toList)).bind (ofWide? (.int k)) = some w ↔ _
    simp only [Option.bind_eq_some_iff, denotes_text_iff, ofWide?_int]

lemma coerce_source : coerce limit h source.value (.int k) = .ok w ↔
    ∃ n, source.Denotes n ∧ (k.low ≤ n ∧ n ≤ k.high) ∧ HandedOut n w := by
  rw [coerce, coerceAt_numeric rfl, ofOption_eq_ok, coerceNumeric?_source]
  simp only [ofInteger?_eq_some_iff]

lemma IntegerSource.Denotes.unique (denotes : source.Denotes n) {m : Int}
    (other : source.Denotes m) :
    m = n := by
  cases source with
  | text s =>
    exact Option.some.inj ((denotes_text_iff.1 other).symm.trans (denotes_text_iff.1 denotes))
  | _ =>
    cases denotes
    cases other
    rfl

lemma coerce_of_denotes (denotes : source.Denotes n) :
    coerce limit h source.value (.int k) = .ok w ↔ (k.low ≤ n ∧ n ≤ k.high) ∧ HandedOut n w := by
  rw [coerce_source]
  constructor
  · rintro ⟨m, other, taken⟩
    rwa [denotes.unique other] at taken
  · exact fun taken => ⟨n, denotes, taken⟩

/-- A wider kind makes the same of an integer. -/
lemma ofInteger?_wider (low : k'.low ≤ k.low) (high : k.high ≤ k'.high)
    (made : ofInteger? (.int k) n = some w) : ofInteger? (.int k') n = some w := by
  obtain ⟨range, out⟩ := ofInteger?_eq_some_iff.1 made
  exact ofInteger?_eq_some_iff.2 ⟨⟨low.trans range.1, range.2.trans high⟩, out⟩

lemma coerceNumeric?_wider {v : HostValue} (low : k'.low ≤ k.low) (high : k.high ≤ k'.high)
    (made : coerceNumeric? (.int k) v = some w) : coerceNumeric? (.int k') v = some w := by
  have wider : ∀ source : IntegerSource,
      source.value = v → coerceNumeric? (.int k') v = some w := by
    rintro source rfl
    obtain ⟨n, denotes, made⟩ := coerceNumeric?_source.1 made
    exact coerceNumeric?_source.2 ⟨n, denotes, ofInteger?_wider low high made⟩
  cases v with
  | int i => exact wider (.signed i) rfl
  | unsigned u => exact wider (.unsigned u) rfl
  | big n => exact wider (.big n) rfl
  | str s => exact wider (.text s) rfl
  | float x =>
    obtain ⟨n, integral, made⟩ := Option.bind_eq_some_iff.1 made
    exact Option.bind_eq_some_iff.2 ⟨n, integral, ofInteger?_wider low high made⟩
  | _ => cases made

end Integers

/-- A kind of integers takes exactly the integers of its range and hands each out in one way,
whichever way it comes in. A wider kind makes the same of what a narrower one takes. -/
theorem integer_coercion_exact (limit : Nat) (h : Heap) (k : IntKind) :
    (∀ source : IntegerSource,
      ((∃ w, coerce limit h source.value (.int k) = .ok w) ↔
        ∃ n, source.Denotes n ∧ k.low ≤ n ∧ n ≤ k.high) ∧
      ∀ n w, source.Denotes n → coerce limit h source.value (.int k) = .ok w → HandedOut n w) ∧
    (∀ (source source' : IntegerSource) (n : Int), source.Denotes n → source'.Denotes n →
      ∀ w, coerce limit h source.value (.int k) = .ok w ↔
        coerce limit h source'.value (.int k) = .ok w) ∧
    ∀ (k' : IntKind) (v w : HostValue), k'.low ≤ k.low → k.high ≤ k'.high →
      coerce limit h v (.int k) = .ok w → coerce limit h v (.int k') = .ok w := by
  refine ⟨fun source => ⟨⟨?_, ?_⟩, ?_⟩, ?_, ?_⟩
  · rintro ⟨w, ok⟩
    obtain ⟨n, denotes, range, -⟩ := coerce_source.1 ok
    exact ⟨n, denotes, range⟩
  · rintro ⟨n, denotes, range⟩
    have out : HandedOut n (.ofInteger n) := (handedOut_iff (holds_iff.2 range)).2 rfl
    exact ⟨_, (coerce_of_denotes denotes).2 ⟨range, out⟩⟩
  · exact fun n w denotes ok => ((coerce_of_denotes denotes).1 ok).2
  · intro source source' n denotes denotes' w
    rw [coerce_of_denotes denotes, coerce_of_denotes denotes']
  · intro k' v w low high ok
    rw [coerce, coerceAt_numeric rfl, ofOption_eq_ok] at ok ⊢
    exact coerceNumeric?_wider low high ok

lemma denotes_first_unsigned :
    (IntegerSource.text "\u3000+9223372036854775808\n").Denotes 9223372036854775808 := by
  have split : "\u3000+9223372036854775808\n".toList
      = ['\u3000'] ++ '+' :: "9223372036854775808".toList ++ ['\n'] := by simp
  have digits : Number.IsDigits "9223372036854775808".toList := ⟨by simp, by simp⟩
  have value : Number.valueOfDigits "9223372036854775808".toList = 9223372036854775808 := by
    simp [Number.valueOfDigits, Nat.ofDigits]
  have writes := Number.Writes.plus digits
  rw [value] at writes
  exact .text split (by simp [Text.isBlank]) (by simp [Text.isBlank]) writes

/-- The first integer beyond 64 signed bits is unsigned, whether written out or big, and a byte is
what it is among the integers of 16 bits. -/
theorem first_unsigned_either_way :
    coerce 8 {} (.str "\u3000+9223372036854775808\n") (.int .u64)
      = .ok (.unsigned 9223372036854775808) ∧
    coerce 8 {} (.big 9223372036854775808) (.int .u64) = .ok (.unsigned 9223372036854775808) ∧
    coerce 8 {} (.big 200) (.int .u8) = .ok (.int 200) ∧
    coerce 8 {} (.big 200) (.int .i16) = .ok (.int 200) := by
  obtain ⟨taken, alike, -⟩ := integer_coercion_exact 8 {} .u64
  have written : coerce 8 {} (.str "\u3000+9223372036854775808\n") (.int .u64)
      = .ok (.unsigned 9223372036854775808) := by
    obtain ⟨w, ok⟩ := (taken _).1.2 ⟨_, denotes_first_unsigned, by decide, by decide⟩
    refine ok.trans (congrArg _ ?_)
    cases (taken _).2 _ w denotes_first_unsigned ok with
    | signed i same => exact absurd (same ▸ i.toInt_lt) (by decide)
    | unsigned u same _ => exact congrArg _ (UInt64.toNat.inj (Int.ofNat.inj same))
  obtain ⟨bytes, -, wider⟩ := integer_coercion_exact 8 {} .u8
  have byte : coerce 8 {} (.big 200) (.int .u8) = .ok (.int 200) := by
    obtain ⟨w, ok⟩ := (bytes (.big 200)).1.2 ⟨200, .big 200, by decide, by decide⟩
    refine ok.trans (congrArg _ ?_)
    cases (bytes _).2 200 w (.big 200) ok with
    | signed i same => exact congrArg _ (Int64.toInt_inj.1 same)
    | unsigned _ _ large => exact absurd large (by decide)
  exact ⟨written, (alike _ _ _ denotes_first_unsigned (.big _) _).1 written, byte,
    wider .i16 _ _ (by decide) (by decide) byte⟩

end Bridge

end ScriptBridge
