import ScriptBridge.Proofs.Conversion
import ScriptBridge.Bridge.Coercion

/-!
# Coercion and host representations

A kind made of booleans, numbers, strings and arrays has a host representation. Coercing to the
kind gives what the representation is handed back as, and leaves that as it is.
-/

namespace ScriptBridge.Bridge

open Script

/-- The kinds whose values a host member reads as plain data. -/
inductive DataKind
  | bool
  | int (width : IntKind)
  | f32
  | f64
  | bigint
  | string
  | array (element : DataKind)

namespace DataKind

def kind : DataKind → Kind
  | bool => .bool
  | int k => .int k
  | f32 => .f32
  | f64 => .f64
  | bigint => .bigint
  | string => .string
  | array element => .array element.kind

def representation : DataKind → Representation
  | bool => .bool
  | int k => .int k
  | f32 => .f32
  | f64 => .f64
  | bigint => .bigint
  | string => .string
  | array element => .list element.representation

lemma representation_faithful (k : DataKind) : k.representation.isFaithful = true := by
  induction k with
  | array element ih => exact ih
  | _ => rfl

/-- How deep arrays nest. -/
def levels : DataKind → Nat
  | array element => element.levels + 1
  | _ => 0

/-- What a host member works with where a value of the kind is declared. -/
abbrev Native (k : DataKind) : Type :=
  k.representation.Native

abbrev toHost (k : DataKind) : k.Native → HostValue :=
  k.representation.toHost

end DataKind

section Image

variable {k : DataKind} {w : HostValue}

lemma ofInteger?_image {n : Int} (h : ofInteger? k.kind n = some w) : ∃ t, k.toHost t = w := by
  cases k with
  | int width =>
    simp only [DataKind.kind, ofInteger?] at h
    split at h
    · rename_i holds
      cases h
      exact ⟨⟨n, holds⟩, rfl⟩
    · cases h
  | f32 =>
    cases h
    exact ⟨⟨_, Number.toSingle_singleOfInt n⟩, rfl⟩
  | f64 =>
    cases h
    exact ⟨Number.ofInt n, rfl⟩
  | bigint =>
    cases h
    exact ⟨n, rfl⟩
  | _ => cases h

lemma ofFloat?_image {x : Float} (h : ofFloat? k.kind x = some w) : ∃ t, k.toHost t = w := by
  cases k with
  | int width =>
    obtain ⟨n, -, eq⟩ := Option.bind_eq_some_iff.1 h
    exact ofInteger?_image (k := .int width) eq
  | f32 =>
    cases h
    exact ⟨⟨_, Number.toSingle_toSingle x⟩, rfl⟩
  | f64 =>
    cases h
    exact ⟨x, rfl⟩
  | bigint =>
    obtain ⟨n, -, rfl⟩ := Option.map_eq_some_iff.1 h
    exact ⟨n, rfl⟩
  | _ => cases h

lemma ofWide?_eq_some {kind : Kind} {n : Int} :
    ofWide? kind n = some w ↔ Number.fitsInt128 n = true ∧ ofInteger? kind n = some w := by
  rw [ofWide?]
  split <;> simp [*]

lemma ofBig?_image {n : Int} (h : ofBig? k.kind n = some w) : ∃ t, k.toHost t = w := by
  cases k with
  | f32 => exact ofFloat?_image (k := .f32) h
  | f64 => exact ofFloat?_image (k := .f64) h
  | int width => exact ofInteger?_image (k := .int width) (ofWide?_eq_some.1 h).2
  | bigint => exact ofInteger?_image (k := .bigint) h
  | _ => cases (ofWide?_eq_some.1 h).2

lemma ofNumeral?_image {cs : List Char} (h : ofNumeral? k.kind cs = some w) :
    ∃ t, k.toHost t = w := by
  cases k with
  | f32 =>
    obtain ⟨x, -, eq⟩ := Option.bind_eq_some_iff.1 h
    exact ofFloat?_image (k := .f32) eq
  | f64 =>
    obtain ⟨x, -, eq⟩ := Option.bind_eq_some_iff.1 h
    exact ofFloat?_image (k := .f64) eq
  | bigint =>
    obtain ⟨n, -, rfl⟩ := Option.map_eq_some_iff.1 h
    exact ⟨n, rfl⟩
  | int width =>
    obtain ⟨n, -, eq⟩ := Option.bind_eq_some_iff.1 h
    exact ofInteger?_image (k := .int width) (ofWide?_eq_some.1 eq).2
  | _ =>
    obtain ⟨n, -, eq⟩ := Option.bind_eq_some_iff.1 h
    cases (ofWide?_eq_some.1 eq).2

/-- A number made for a kind is what its representation is handed back as. -/
lemma coerceNumeric?_image {v : HostValue} (h : coerceNumeric? k.kind v = some w) :
    ∃ t, k.toHost t = w := by
  cases v with
  | int i => exact ofInteger?_image h
  | unsigned u => exact ofInteger?_image h
  | float x => exact ofFloat?_image h
  | big n => exact ofBig?_image h
  | str s => exact ofNumeral?_image h
  | _ => cases h

lemma ofOption_eq_ok {kind : Kind} {v : HostValue} {o : Option HostValue} :
    ofOption kind v o = .ok w ↔ o = some w := by
  cases o <;> simp [ofOption]

end Image

section Numbers

variable {kind : Kind} {v w : HostValue}

/-- Signed or not, an integer is a number of a kind by its number alone. -/
lemma coerceNumeric?_of_integer? {n : Int} (reading : v.integer? = some n) :
    coerceNumeric? kind v = ofInteger? kind n := by
  cases v with
  | int i =>
    cases reading
    rfl
  | unsigned u =>
    cases reading
    rfl
  | _ => cases reading

lemma ofOption_agree {R : HostValue → HostValue → Prop} {o o' : Option HostValue}
    (related : Option.Rel R o o') : Agree R (ofOption kind v o) (ofOption kind w o') := by
  cases related with
  | none => exact .error _ _
  | some related => exact .ok related

/-- What is coerced to a numeric kind is its number, if it has one of that kind. -/
lemma coerceAt_numeric {limit : Nat} {h : Heap} {depth : Nat} (numeric : kind.isNumeric = true) :
    coerceAt limit h kind depth v = ofOption kind v (coerceNumeric? kind v) := by
  cases kind with
  | int | f32 | f64 | bigint => cases v <;> rfl
  | _ => cases numeric

end Numbers

section Run

variable {limit : Nat} {h : Heap}

/-- Coercing the elements at the next depth, which must be below the limit. -/
lemma coerceAt_array {element : Kind} {depth : Nat} {items : List HostValue} {w : HostValue} :
    coerceAt limit h (.array element) depth (.array items) = .ok w ↔
      depth < limit ∧ ∃ ws, w = .array ws ∧
        List.Forall₂ (fun v w => coerceAt limit h element (depth + 1) v = .ok w) items ws := by
  rw [coerceAt]
  unfold checkDepth
  split
  · rename_i deep
    constructor
    · intro h
      cases h
    · rintro ⟨shallow, -⟩
      omega
  · rename_i shallow
    constructor
    · intro h
      cases eq : items.mapM (coerceAt limit _ element (depth + 1)) with
      | error e =>
        rw [eq] at h
        cases h
      | ok ws =>
        rw [eq] at h
        cases h
        exact ⟨by omega, ws, rfl, mapM_eq_ok.1 eq⟩
    · rintro ⟨-, ws, rfl, all⟩
      rw [mapM_eq_ok.2 all]
      rfl

/-- Arrays are coerced alike when their items are. -/
lemma coerceAt_array_agree {R : HostValue → HostValue → Prop} {element : Kind} {depth : Nat}
    {vs ws : List HostValue}
    (each : List.Forall₂ (fun v w => Agree R (coerceAt limit h element (depth + 1) v)
      (coerceAt limit h element (depth + 1) w)) vs ws)
    (array : ∀ vs ws, List.Forall₂ R vs ws → R (.array vs) (.array ws)) :
    Agree R (coerceAt limit h (.array element) depth (.array vs))
      (coerceAt limit h (.array element) depth (.array ws)) := by
  rw [coerceAt, coerceAt]
  refine (Agree.refl (fun _ => rfl) (checkDepth limit depth)).bind fun _ _ _ => ?_
  exact (Agree.mapM each).bind fun vs ws related => .ok (array vs ws related)

/-- A table is coerced as the array of its sequence. -/
lemma coerceAt_table (element : Kind) (depth : Nat) (id : Nat) :
    coerceAt limit h (.array element) depth (.table id) =
      coerceAt limit h (.array element) depth (.array (pullAll h (h.sequence id))) := by
  rw [coerceAt, coerceAt]

/-- Only arrays and tables become arrays. -/
lemma array_of_coerceAt {element : Kind} {depth : Nat} {v w : HostValue}
    (ok : coerceAt limit h (.array element) depth v = .ok w) :
    ∃ items, coerceAt limit h (.array element) depth (.array items) = .ok w := by
  cases v with
  | array items => exact ⟨items, ok⟩
  | table id =>
    rw [coerceAt_table] at ok
    exact ⟨_, ok⟩
  | _ => cases ok

/-- A list is in the image of a map when its members are. -/
lemma exists_map_eq {α β γ : Type} {f : γ → β} {P : α → β → Prop} {xs : List α} {ys : List β}
    (all : List.Forall₂ P xs ys) (image : ∀ x y, P x y → ∃ z, f z = y) :
    ∃ zs : List γ, zs.map f = ys := by
  induction all with
  | nil => exact ⟨[], rfl⟩
  | cons head _ tails =>
    obtain ⟨z, rfl⟩ := image _ _ head
    obtain ⟨zs, rfl⟩ := tails
    exact ⟨z :: zs, rfl⟩

lemma exists_left_of_mem {α β : Type} {P : α → β → Prop} {xs : List α} {ys : List β}
    (all : List.Forall₂ P xs ys) {y : β} (mem : y ∈ ys) : ∃ x, P x y := by
  induction all with
  | nil => cases mem
  | cons head _ ih =>
    cases mem with
    | head => exact ⟨_, head⟩
    | tail _ mem => exact ih mem

/-- Whatever is coerced to a kind of data is what its representation is handed back as. -/
theorem coerceAt_image {k : DataKind} {depth : Nat} {v w : HostValue}
    (ok : coerceAt limit h k.kind depth v = .ok w) : ∃ t, k.toHost t = w := by
  induction k generalizing depth v w with
  | bool =>
    cases v with
    | bool b =>
      cases ok
      exact ⟨b, rfl⟩
    | _ => cases ok
  | string =>
    cases v with
    | str s =>
      cases ok
      exact ⟨s, rfl⟩
    | _ => cases ok
  | array element ih =>
    obtain ⟨items, ok⟩ := array_of_coerceAt ok
    obtain ⟨-, ws, rfl, all⟩ := coerceAt_array.1 ok
    obtain ⟨ts, rfl⟩ := exists_map_eq all fun _ _ ok => ih ok
    exact ⟨ts, rfl⟩
  | int width =>
    cases v with
    | nil => cases ok
    | _ => exact coerceNumeric?_image (k := .int width) (ofOption_eq_ok.1 ok)
  | f32 =>
    cases v with
    | nil => cases ok
    | _ => exact coerceNumeric?_image (k := .f32) (ofOption_eq_ok.1 ok)
  | f64 =>
    cases v with
    | nil => cases ok
    | _ => exact coerceNumeric?_image (k := .f64) (ofOption_eq_ok.1 ok)
  | bigint =>
    cases v with
    | nil => cases ok
    | _ => exact coerceNumeric?_image (k := .bigint) (ofOption_eq_ok.1 ok)

/-- Signed or not, an integer is coerced by its number. -/
lemma coerceAt_of_integer? {v : HostValue} {n : Int} (reading : v.integer? = some n)
    (width : IntKind) (depth : Nat) :
    coerceAt limit h (.int width) depth v
      = ofOption (.int width) v (ofInteger? (.int width) n) := by
  cases v with
  | int i =>
    cases reading
    rfl
  | unsigned u =>
    cases reading
    rfl
  | _ => cases reading

/-- What a representation is handed back as is left as it is, if its arrays stay below the
limit. -/
theorem coerceAt_toHost (k : DataKind) {depth : Nat} (levels : depth + k.levels ≤ limit)
    (t : k.Native) : coerceAt limit h k.kind depth (k.toHost t) = .ok (k.toHost t) := by
  induction k generalizing depth with
  | bool => rfl
  | string => rfl
  | int width =>
    obtain ⟨n, holds⟩ := t
    show coerceAt limit h (.int width) depth (.ofInteger n) = .ok (.ofInteger n)
    rw [coerceAt_of_integer? (integer?_ofInteger holds), ofInteger?, if_pos holds]
    rfl
  | f32 =>
    obtain ⟨x, fixed⟩ := t
    show Except.ok (HostValue.float (Number.toSingle x)) = .ok (.float x)
    rw [fixed]
  | f64 => rfl
  | bigint => rfl
  | array element ih =>
    rw [DataKind.levels] at levels
    change List element.Native at t
    refine coerceAt_array.2 ⟨by omega, t.map element.toHost, rfl, ?_⟩
    rw [List.forall₂_map_left_iff, List.forall₂_map_right_iff, List.forall₂_same]
    intro t _
    exact ih (by omega) t

/-- Coercing once more changes nothing, however deep arrays nest. -/
theorem coerceAt_coerceAt {k : DataKind} {depth : Nat} {v w : HostValue} (level : depth ≤ limit)
    (ok : coerceAt limit h k.kind depth v = .ok w) : coerceAt limit h k.kind depth w = .ok w := by
  induction k generalizing depth v w with
  | array element ih =>
    obtain ⟨items, ok⟩ := array_of_coerceAt ok
    obtain ⟨below, ws, rfl, all⟩ := coerceAt_array.1 ok
    refine coerceAt_array.2 ⟨below, ws, rfl, List.forall₂_same.2 fun w mem => ?_⟩
    obtain ⟨v, ok⟩ := exists_left_of_mem all mem
    exact ih below ok
  | _ =>
    obtain ⟨t, rfl⟩ := coerceAt_image ok
    exact coerceAt_toHost _ level t

end Run

/-- What a representation is handed back as is read as that representation. -/
theorem fromHost_toHost (k : DataKind) (t : k.Native) :
    k.representation.fromHost (k.toHost t) = .ok t :=
  Representation.fromHost_toHost k.representation_faithful t

/-- Coercing to a kind of data and converting to its host representation have the same image, so
coercing is idempotent. -/
theorem coerce_agrees_with_representation (limit : Nat) (h : Heap) (k : DataKind) :
    (∀ v w, coerce limit h v k.kind = .ok w →
      ∃ t, k.representation.fromHost w = .ok t ∧ k.representation.toHost t = w) ∧
    (k.levels ≤ limit → ∀ t : k.representation.Native,
      coerce limit h (k.representation.toHost t) k.kind = .ok (k.representation.toHost t)) ∧
    (∀ v w, coerce limit h v k.kind = .ok w → coerce limit h w k.kind = .ok w) := by
  refine ⟨fun v w ok => ?_, fun levels t => ?_, fun v w ok => ?_⟩
  · obtain ⟨t, rfl⟩ := coerceAt_image ok
    exact ⟨t, fromHost_toHost k t, rfl⟩
  · exact coerceAt_toHost k (by omega) t
  · exact coerceAt_coerceAt (Nat.zero_le limit) ok

/-- An unsigned seven among bytes is made a signed one, and that is what the bytes are handed
back as. -/
theorem coerce_bytes_agrees :
    coerce 8 {} (.array [.unsigned 7]) (DataKind.array (.int .i8)).kind = .ok (.array [.int 7]) ∧
    (∃ t, (DataKind.array (.int .i8)).representation.fromHost (.array [.int 7]) = .ok t ∧
      (DataKind.array (.int .i8)).representation.toHost t = .array [.int 7]) ∧
    (∀ bytes : List { n : Int // IntKind.i8.holds n = true },
      coerce 8 {} ((DataKind.array (.int .i8)).representation.toHost bytes)
        (DataKind.array (.int .i8)).kind
        = .ok ((DataKind.array (.int .i8)).representation.toHost bytes)) ∧
    coerce 8 {} (.array [.int 7]) (DataKind.array (.int .i8)).kind = .ok (.array [.int 7]) := by
  have made : coerce 8 {} (.array [.unsigned 7]) (DataKind.array (.int .i8)).kind
      = .ok (.array [.int 7]) := by
    have seven : HostValue.ofInteger 7 = .int 7 := by
      rw [HostValue.ofInteger, if_pos (by decide)]
      rfl
    refine coerceAt_array.2 ⟨by decide, _, rfl, .cons ?_ .nil⟩
    rw [DataKind.kind,
      coerceAt_of_integer? (show (HostValue.unsigned 7).integer? = some 7 from rfl),
      ofInteger?, if_pos (by decide), seven]
    rfl
  obtain ⟨image, fixed, again⟩ := coerce_agrees_with_representation 8 {} (.array (.int .i8))
  refine ⟨made, ?_, ?_, ?_⟩
  · exact image _ _ made
  · exact fixed (by decide)
  · exact again _ _ made

end ScriptBridge.Bridge
