import ScriptBridge.Proofs.Coercion

/-!
# The limit on nesting

Coercion checks the limit at every array and table before it looks at the items. Said of the
result: a limit refuses just those values in which an array, where the kind calls for one, stands
at the level of the limit or deeper. What is coerced under one limit comes to the same under any
higher one.
-/

namespace ScriptBridge

/-- How many levels of arrays the kind calls for. -/
def Kind.levels : Kind → Nat
  | array element => element.levels + 1
  | _ => 0

namespace Bridge

open Script

/-- Coercion with no limit on how deep arrays and tables nest. The limit that is named is never
read, as only arrays and tables look at one. -/
def coerceUnlimited (h : Heap) : Kind → HostValue → Except BridgeError HostValue
  | .array element, .array items => do
    return .array (← items.mapM (coerceUnlimited h element))
  | .array element, .table id => do
    return .array (← (pullAll h (h.sequence id)).mapM (coerceUnlimited h element))
  | kind, v => coerceAt 0 h kind 0 v

/-- There is an array at a level of the value, the outermost being level 0, where the kind calls
for one. -/
inductive ArrayAt : Kind → HostValue → Nat → Prop
  | outermost {element : Kind} {items : List HostValue} : ArrayAt (.array element) (.array items) 0
  | inside {element : Kind} {items : List HostValue} {v : HostValue} {level : Nat}
      (mem : v ∈ items) (deeper : ArrayAt element v level) :
      ArrayAt (.array element) (.array items) (level + 1)

section Levels

variable {element kind : Kind} {items : List HostValue} {v w : HostValue}

/-- The levels of an array, relative to those of its items. -/
lemma forall_arrayAt_array {P : Nat → Prop} :
    (∀ level, ArrayAt (.array element) (.array items) level → P level) ↔
      P 0 ∧ ∀ v ∈ items, ∀ level, ArrayAt element v level → P (level + 1) := by
  constructor
  · exact fun all => ⟨all 0 .outermost, fun v mem level deeper => all _ (.inside mem deeper)⟩
  · rintro ⟨outermost, inside⟩ level found
    cases found with
    | outermost => exact outermost
    | inside mem deeper => exact inside _ mem _ deeper

/-- A kind without arrays calls for none. -/
lemma not_arrayAt (plain : ∀ element, kind ≠ .array element) (level : Nat) :
    ¬ ArrayAt kind v level := by
  intro found
  cases found with
  | outermost => exact plain _ rfl
  | inside => exact plain _ rfl

lemma forall₂_and_right {α β : Type} {R : α → β → Prop} {P : β → Prop} {xs : List α} {ys : List β} :
    List.Forall₂ (fun x y => R x y ∧ P y) xs ys ↔ List.Forall₂ R xs ys ∧ ∀ y ∈ ys, P y := by
  constructor
  · intro both
    induction both with
    | nil => exact ⟨.nil, fun _ mem => absurd mem List.not_mem_nil⟩
    | cons head _ tails => exact ⟨.cons head.1 tails.1, List.forall_mem_cons.2 ⟨head.2, tails.2⟩⟩
  · rintro ⟨related, all⟩
    induction related with
    | nil => exact .nil
    | cons head _ tails =>
      obtain ⟨here, others⟩ := List.forall_mem_cons.1 all
      exact .cons ⟨head, here⟩ (tails others)

end Levels

section Limit

variable {limit depth : Nat} {h : Heap} {element kind : Kind} {v w : HostValue}

/-- Where no array is called for, nothing depends on the limit. -/
lemma coerceAt_plain (plain : ∀ element, kind ≠ .array element) :
    coerceAt limit h kind depth v = coerceUnlimited h kind v := by
  cases kind with
  | array element => exact absurd rfl (plain element)
  | any | placeholder => rfl
  | _ => cases v <;> rfl

lemma coerceUnlimited_array {items : List HostValue} :
    coerceUnlimited h (.array element) (.array items) = .ok w ↔
      ∃ ws, w = .array ws ∧
        List.Forall₂ (fun v w => coerceUnlimited h element v = .ok w) items ws := by
  rw [coerceUnlimited, bind_eq_ok]
  refine exists_congr fun ws => ?_
  rw [mapM_eq_ok, and_comm]
  exact and_congr_left fun _ => ⟨fun eq => (Except.ok.inj eq).symm, congrArg Except.ok ∘ Eq.symm⟩

/-- A table is the array of its sequence here too. -/
lemma coerceUnlimited_table (element : Kind) (id : Nat) :
    coerceUnlimited h (.array element) (.table id) =
      coerceUnlimited h (.array element) (.array (pullAll h (h.sequence id))) := by
  rw [coerceUnlimited, coerceUnlimited]

lemma coerceAt_array_iff {items : List HostValue}
    (each : ∀ v w, coerceAt limit h element (depth + 1) v = .ok w ↔
      coerceUnlimited h element v = .ok w ∧
        ∀ level, ArrayAt element w level → depth + 1 + level < limit) :
    coerceAt limit h (.array element) depth (.array items) = .ok w ↔
      coerceUnlimited h (.array element) (.array items) = .ok w ∧
        ∀ level, ArrayAt (.array element) w level → depth + level < limit := by
  rw [coerceAt_array, coerceUnlimited_array]
  constructor
  · rintro ⟨below, ws, rfl, all⟩
    obtain ⟨free, levels⟩ := forall₂_and_right.1 (all.imp fun v w => (each v w).1)
    refine ⟨⟨ws, rfl, free⟩, forall_arrayAt_array.2 ⟨below, fun w mem level found => ?_⟩⟩
    have := levels w mem level found
    omega
  · rintro ⟨⟨ws, rfl, free⟩, levels⟩
    obtain ⟨below, inside⟩ := forall_arrayAt_array.1 levels
    have shallow : ∀ w ∈ ws, ∀ level, ArrayAt element w level → depth + 1 + level < limit := by
      intro w mem level found
      have := inside w mem level found
      omega
    refine ⟨below, ws, rfl, ?_⟩
    exact (forall₂_and_right.2 ⟨free, shallow⟩).imp fun v w => (each v w).2

/-- The limit refuses a value exactly for an array of the result that is too deep. The induction
is on the kind, with the depth that was reached; it need not be on the value, so tables may hold
themselves. -/
theorem coerceAt_iff :
    coerceAt limit h kind depth v = .ok w ↔
      coerceUnlimited h kind v = .ok w ∧ ∀ level, ArrayAt kind w level → depth + level < limit := by
  induction kind generalizing depth v w with
  | array element ih =>
    cases v with
    | array items => exact coerceAt_array_iff fun v w => ih
    | table id =>
      rw [coerceAt_table, coerceUnlimited_table]
      exact coerceAt_array_iff fun v w => ih
    | _ =>
      -- What is no array and no table is refused with a limit and without.
      constructor
      · intro ok
        cases ok
      · rintro ⟨ok, -⟩
        cases ok
  | _ =>
    rw [coerceAt_plain fun _ => Kind.noConfusion]
    refine (and_iff_left fun level found => ?_).symm
    exact absurd found (not_arrayAt (fun _ => Kind.noConfusion) level)

/-- A limit that the kind cannot reach is as good as none, also for the errors. -/
theorem coerceAt_of_levels (enough : depth + kind.levels ≤ limit) (v : HostValue) :
    coerceAt limit h kind depth v = coerceUnlimited h kind v := by
  induction kind generalizing depth v with
  | array element ih =>
    rw [Kind.levels] at enough
    have each : coerceAt limit h element (depth + 1) = coerceUnlimited h element :=
      funext fun v => ih (by omega) v
    have below : checkDepth limit depth = .ok () := if_neg (by omega)
    cases v with
    | array items | table id =>
      rw [coerceAt, coerceUnlimited, below, each]
      rfl
    | _ => rfl
  | _ => exact coerceAt_plain fun _ => Kind.noConfusion

end Limit

/-- A limit on how deep arrays nest refuses no more and no less than the values in which it is
reached, and changes none of the others: coercion under a limit succeeds with a result just if it
does without a limit and every array that the kind calls for stands below the limit in that result.
Without a limit means under any limit that the kind cannot reach. So a higher limit leaves every
result as it is. -/
theorem depth_limit_exact (h : Heap) (kind : Kind) (v : HostValue) :
    (∀ limit w, coerce limit h v kind = .ok w ↔
      coerceUnlimited h kind v = .ok w ∧ ∀ level, ArrayAt kind w level → level < limit) ∧
    (∀ limit, kind.levels ≤ limit → coerce limit h v kind = coerceUnlimited h kind v) ∧
    ∀ limit higher w, limit ≤ higher → coerce limit h v kind = .ok w →
      coerce higher h v kind = .ok w := by
  have exact_limit (limit : Nat) (w : HostValue) : coerce limit h v kind = .ok w ↔
      coerceUnlimited h kind v = .ok w ∧ ∀ level, ArrayAt kind w level → level < limit := by
    rw [coerce, coerceAt_iff]
    simp only [Nat.zero_add]
  refine ⟨exact_limit, fun limit enough => ?_, fun limit higher w le ok => ?_⟩
  · exact coerceAt_of_levels (by omega) v
  · obtain ⟨free, levels⟩ := (exact_limit limit w).1 ok
    exact (exact_limit higher w).2 ⟨free, fun level found => (levels level found).trans_le le⟩

/-- A table that holds itself and an empty array, as they come from a script. -/
def knot : Heap where
  tables := #[.ofList [.table 0, .table 1], {}]

/-- Where arrays of arrays of anything are called for, the knot comes to two arrays in an array:
the limit has to be two, and what the knot holds deeper does not count. -/
theorem knot_depth :
    coerce 2 knot (.table 0) (.array (.array .any)) =
        .ok (.array [.array [.table 0, .table 1], .array []]) ∧
      coerce 32 knot (.table 0) (.array (.array .any)) =
        .ok (.array [.array [.table 0, .table 1], .array []]) ∧
      ∀ w, coerce 1 knot (.table 0) (.array (.array .any)) ≠ .ok w := by
  obtain ⟨exact_limit, enough, higher⟩ := depth_limit_exact knot (.array (.array .any)) (.table 0)
  have free : coerceUnlimited knot (.array (.array .any)) (.table 0) =
      .ok (.array [.array [.table 0, .table 1], .array []]) := by
    rw [← enough 2 (Nat.le_refl 2)]
    rfl
  have two := (enough 2 (Nat.le_refl 2)).trans free
  refine ⟨two, higher 2 32 _ (by decide) two, fun w ok => ?_⟩
  obtain ⟨same, levels⟩ := (exact_limit 1 w).1 ok
  cases free.symm.trans same
  exact absurd (levels 1 (.inside List.mem_cons_self .outermost)) (by decide)

end Bridge

end ScriptBridge
