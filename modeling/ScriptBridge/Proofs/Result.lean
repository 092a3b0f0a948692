import Mathlib.Data.List.Forall2
import Mathlib.Tactic.Lemma

/-!
# Computations that may fail

When a sequence of steps succeeds, and what it gives.
-/

namespace ScriptBridge

variable {α β γ ε : Type}

lemma bind_eq_ok {x : Except ε α} {f : α → Except ε β} {b : β} :
    x >>= f = .ok b ↔ ∃ a, x = .ok a ∧ f a = .ok b := by
  cases x with
  | error e =>
    constructor
    · intro h
      cases h
    · rintro ⟨a, h, -⟩
      cases h
  | ok a =>
    constructor
    · intro h
      exact ⟨a, rfl, h⟩
    · rintro ⟨a, h, rest⟩
      cases h
      exact rest

lemma bind_eq_error {x : Except ε α} {f : α → Except ε β} {e : ε} :
    x >>= f = .error e ↔ x = .error e ∨ ∃ a, x = .ok a ∧ f a = .error e := by
  cases x with
  | error e' =>
    constructor
    · intro h
      cases h
      exact Or.inl rfl
    · rintro (h | ⟨a, h, -⟩)
      · cases h
        rfl
      · cases h
  | ok a =>
    constructor
    · intro h
      exact Or.inr ⟨a, rfl, h⟩
    · rintro (h | ⟨a, h, rest⟩)
      · cases h
      · cases h
        exact rest

lemma map_eq_error {x : Except ε α} {f : α → β} {e : ε} :
    x.map f = .error e ↔ x = .error e := by
  cases x with
  | error e' =>
    constructor
    · intro h
      cases h
      rfl
    · rintro ⟨⟩
      rfl
  | ok a =>
    constructor
    · intro h
      cases h
    · intro h
      cases h

lemma map_eq_ok {x : Except ε α} {f : α → β} {b : β} :
    x.map f = .ok b ↔ ∃ a, x = .ok a ∧ f a = b := by
  cases x with
  | error e =>
    constructor
    · intro h
      cases h
    · rintro ⟨a, h, -⟩
      cases h
  | ok a =>
    constructor
    · intro h
      cases h
      exact ⟨a, rfl, rfl⟩
    · rintro ⟨a, h, rfl⟩
      cases h
      rfl

/-- `mapM` of a computation that may fail succeeds when every step does, in the same order. -/
lemma mapM_eq_ok {f : α → Except ε β} {xs : List α} {ys : List β} :
    xs.mapM f = .ok ys ↔ List.Forall₂ (fun x y => f x = .ok y) xs ys := by
  induction xs generalizing ys with
  | nil =>
    rw [List.mapM_nil, List.forall₂_nil_left_iff]
    constructor
    · intro h
      cases h
      rfl
    · rintro rfl
      rfl
  | cons x xs ih =>
    rw [List.mapM_cons, List.forall₂_cons_left_iff]
    constructor
    · intro h
      cases hx : f x with
      | error e =>
        rw [hx] at h
        cases h
      | ok y =>
        cases hxs : xs.mapM f with
        | error e =>
          rw [hx, hxs] at h
          cases h
        | ok zs =>
          rw [hx, hxs] at h
          cases h
          exact ⟨y, zs, rfl, ih.1 hxs, rfl⟩
    · rintro ⟨y, zs, hx, hxs, rfl⟩
      rw [hx, ih.2 hxs]
      rfl

/-- `mapM` of a partial function gives a list when every step gives an item. -/
lemma mapM_eq_some {f : α → Option β} {xs : List α} {ys : List β} :
    xs.mapM f = some ys ↔ List.Forall₂ (fun x y => f x = some y) xs ys := by
  induction xs generalizing ys with
  | nil =>
    rw [List.mapM_nil, List.forall₂_nil_left_iff]
    exact ⟨fun h => (Option.some.inj h).symm, fun h => congrArg some h.symm⟩
  | cons x xs ih =>
    rw [List.mapM_cons, List.forall₂_cons_left_iff]
    constructor
    · intro h
      obtain ⟨y, hx, rest⟩ := Option.bind_eq_some_iff.1 h
      obtain ⟨zs, hxs, eq⟩ := Option.bind_eq_some_iff.1 rest
      cases eq
      exact ⟨y, zs, hx, ih.1 hxs, rfl⟩
    · rintro ⟨y, zs, hx, hxs, rfl⟩
      rw [hx, ih.2 hxs]
      rfl

/-- Where `mapM` fails, one of its steps does. -/
lemma exists_of_mapM_error {f : α → Except ε β} {xs : List α} {e : ε}
    (h : xs.mapM f = .error e) : ∃ x ∈ xs, f x = .error e := by
  induction xs with
  | nil => cases h
  | cons x xs ih =>
    rw [List.mapM_cons] at h
    rcases bind_eq_error.1 h with first | ⟨y, -, rest⟩
    · exact ⟨x, List.mem_cons_self, first⟩
    · rcases bind_eq_error.1 rest with others | ⟨ys, -, last⟩
      · obtain ⟨x', mem, failed⟩ := ih others
        exact ⟨x', List.mem_cons_of_mem x mem, failed⟩
      · cases last

/-- `mapM` over values of the form `g x` that `f` maps to themselves. -/
lemma mapM_map_eq_ok {f : β → Except ε α} {g : α → β} (xs : List α)
    (h : ∀ x ∈ xs, f (g x) = .ok x) : (xs.map g).mapM f = .ok xs := by
  rw [mapM_eq_ok, List.forall₂_map_left_iff]
  exact List.forall₂_same.2 h

/-- Mapping over the result of every step is mapping over the results. -/
lemma mapM_map_result (f : α → Except ε β) (g : β → γ) (xs : List α) :
    xs.mapM (fun x => (f x).map g) = (xs.mapM f).map (List.map g) := by
  induction xs with
  | nil => rfl
  | cons x xs ih =>
    rw [List.mapM_cons, List.mapM_cons, ih]
    cases f x with
    | error e => rfl
    | ok y => cases xs.mapM f <;> rfl

/-- Both computations fail, for whatever reasons, or both succeed and their results are related. -/
inductive Agree (R : α → β → Prop) : Except ε α → Except ε β → Prop
  | error (e e' : ε) : Agree R (.error e) (.error e')
  | ok {a : α} {b : β} (related : R a b) : Agree R (.ok a) (.ok b)

namespace Agree

variable {α' β' : Type} {R : α → β → Prop} {S : α' → β' → Prop} {x : Except ε α} {y : Except ε β}

lemma refl {R : α → α → Prop} (self : ∀ a, R a a) (x : Except ε α) : Agree R x x := by
  cases x with
  | error e => exact .error e e
  | ok a => exact .ok (self a)

lemma bind {f : α → Except ε α'} {g : β → Except ε β'} (first : Agree R x y)
    (next : ∀ a b, R a b → Agree S (f a) (g b)) : Agree S (x >>= f) (y >>= g) := by
  cases first with
  | error e e' => exact .error e e'
  | ok related => exact next _ _ related

lemma map {f : α → α'} {g : β → β'} (first : Agree R x y)
    (next : ∀ a b, R a b → S (f a) (g b)) : Agree S (x.map f) (y.map g) := by
  cases first with
  | error e e' => exact .error e e'
  | ok related => exact .ok (next _ _ related)

/-- Steps that agree one by one agree as a sequence. -/
lemma mapM {f : α' → Except ε α} {g : β' → Except ε β} {xs : List α'} {ys : List β'}
    (steps : List.Forall₂ (fun x y => Agree R (f x) (g y)) xs ys) :
    Agree (List.Forall₂ R) (xs.mapM f) (ys.mapM g) := by
  induction steps with
  | nil => exact .ok .nil
  | cons step _ ih =>
    rw [List.mapM_cons, List.mapM_cons]
    exact step.bind fun a b head => ih.bind fun as bs rest => .ok (.cons head rest)

lemma toOption (agree : Agree R x y) : Option.Rel R x.toOption y.toOption := by
  cases agree with
  | error e e' => exact .none
  | ok related => exact .some related

end Agree

section Options

variable {α' β' : Type} {R : α → β → Prop} {S : α' → β' → Prop} {x : Option α} {y : Option β}

lemma rel_refl {R : α → α → Prop} (self : ∀ a, R a a) (x : Option α) : Option.Rel R x x := by
  cases x with
  | none => exact .none
  | some a => exact .some (self a)

lemma rel_bind {f : α → Option α'} {g : β → Option β'} (first : Option.Rel R x y)
    (next : ∀ a b, R a b → Option.Rel S (f a) (g b)) : Option.Rel S (x.bind f) (y.bind g) := by
  cases first with
  | none => exact .none
  | some related => exact next _ _ related

lemma rel_map {f : α → α'} {g : β → β'} (first : Option.Rel R x y)
    (next : ∀ a b, R a b → S (f a) (g b)) : Option.Rel S (x.map f) (y.map g) := by
  cases first with
  | none => exact .none
  | some related => exact .some (next _ _ related)

/-- Steps that give related items, or nothing, give related lists, or nothing. -/
lemma rel_mapM {f : α' → Option α} {g : β' → Option β} {xs : List α'} {ys : List β'}
    (steps : List.Forall₂ (fun x y => Option.Rel R (f x) (g y)) xs ys) :
    Option.Rel (List.Forall₂ R) (xs.mapM f) (ys.mapM g) := by
  induction steps with
  | nil => exact .some .nil
  | cons step _ ih =>
    rw [List.mapM_cons, List.mapM_cons]
    exact rel_bind step fun a b head => rel_bind ih fun as bs rest => .some (.cons head rest)

end Options

end ScriptBridge
