import Mathlib.Data.Option.Basic
import Mathlib.Tactic.Lemma
import ScriptBridge.Bridge.Dispatch

/-!
# What overload resolution selects

The best of several candidates is the first of those with the most points (`best_iff`), and each
parameter does one thing with the arguments, by its mode. The overload selected is one of the
candidates, or one closed over explicit type arguments, and it accepted arguments of the call.
-/

namespace ScriptBridge.Bridge

section Best

/-- The one with more points, the first of two with the same. -/
def better : Option Resolved → Option Resolved → Option Resolved
  | some r, some s => if r.score < s.score then some s else some r
  | some r, none => some r
  | none, s => s

lemma best_cons (r : Resolved) (rest : List Resolved) :
    best (r :: rest) = better (some r) (best rest) := by
  rw [best]
  cases best rest <;> rfl

lemma better_assoc (x y z : Option Resolved) : better (better x y) z = better x (better y z) := by
  rcases x with _ | r <;> rcases y with _ | s <;> rcases z with _ | t <;> simp only [better]
  · by_cases first : r.score < s.score <;> simp [first]
  · by_cases first : r.score < s.score <;> by_cases second : s.score < t.score
    · have both : r.score < t.score := by omega
      simp [first, second, both]
    · simp [first, second]
    · simp [first, second]
    · have neither : ¬ r.score < t.score := by omega
      simp [first, second, neither]

lemma best_append (own others : List Resolved) :
    best (own ++ others) = better (best own) (best others) := by
  induction own with
  | nil => rfl
  | cons r rest ih => rw [List.cons_append, best_cons, ih, best_cons, better_assoc]

lemma better_eq_some {x y : Option Resolved} {found : Resolved} (won : better x y = some found) :
    x = some found ∨ y = some found ∧ ∀ other, x = some other → other.score < found.score := by
  cases x with
  | none => exact Or.inr ⟨won, by simp⟩
  | some r =>
    cases y with
    | none => exact Or.inl won
    | some s =>
      rw [better] at won
      split at won
      · rename_i more
        cases won
        exact Or.inr ⟨rfl, by simpa using more⟩
      · exact Or.inl won

lemma mem_of_best {found : Resolved} {candidates : List Resolved}
    (h : best candidates = some found) : found ∈ candidates := by
  induction candidates with
  | nil => cases h
  | cons r rest ih =>
    rw [best] at h
    split at h
    · rename_i s later
      split at h
      · cases h
        exact List.mem_cons_of_mem r (ih later)
      · cases h
        exact List.mem_cons_self
    · cases h
      exact List.mem_cons_self

lemma best_eq_none_iff {candidates : List Resolved} : best candidates = none ↔ candidates = [] := by
  cases candidates with
  | nil => exact iff_of_true rfl rfl
  | cons r rest =>
    rw [best_cons]
    refine iff_of_false (fun none => ?_) (List.cons_ne_nil r rest)
    cases eq : best rest <;> simp only [eq, better] at none
    · cases none
    · split at none <;> cases none

/-- The best candidate has more points than those before it and no fewer than those behind it. -/
theorem best_iff {found : Resolved} {candidates : List Resolved} :
    best candidates = some found ↔ ∃ before after, candidates = before ++ found :: after ∧
      (∀ r ∈ before, r.score < found.score) ∧ ∀ r ∈ after, r.score ≤ found.score := by
  constructor
  · intro won
    induction candidates generalizing found with
    | nil => cases won
    | cons r rest ih =>
      rw [best_cons] at won
      cases eq : best rest with
      | none =>
        rw [eq] at won
        cases won
        exact ⟨[], rest, rfl, by simp, by simp [best_eq_none_iff.1 eq]⟩
      | some s =>
        obtain ⟨before, after, rfl, fewer, most⟩ := ih eq
        rw [eq, better] at won
        split at won
        · rename_i more
          cases won
          exact ⟨r :: before, after, rfl, List.forall_mem_cons.2 ⟨more, fewer⟩, most⟩
        · rename_i enough
          cases won
          refine ⟨[], before ++ s :: after, rfl, by simp, ?_⟩
          intro t mem
          rcases List.mem_append.1 mem with early | late
          · have := fewer t early
            omega
          · rcases List.mem_cons.1 late with rfl | late
            · omega
            · have := most t late
              omega
  · rintro ⟨before, after, rfl, fewer, most⟩
    induction before with
    | nil =>
      rw [List.nil_append, best_cons]
      cases eq : best after with
      | none => rfl
      | some s =>
        have enough := most s (mem_of_best eq)
        rw [better, if_neg (by omega)]
    | cons r before ih =>
      have more := fewer r List.mem_cons_self
      rw [List.cons_append, best_cons, ih fun s mem => fewer s (List.mem_cons_of_mem r mem), better,
        if_pos more]

/-- No candidate has more points than the best one. -/
lemma exists_best {candidates : List Resolved} {r : Resolved} (mem : r ∈ candidates) :
    ∃ winner, best candidates = some winner ∧ r.score ≤ winner.score := by
  cases eq : best candidates with
  | none =>
    rw [best_eq_none_iff.1 eq] at mem
    cases mem
  | some winner =>
    refine ⟨winner, rfl, ?_⟩
    obtain ⟨before, after, rfl, fewer, most⟩ := best_iff.1 eq
    rcases List.mem_append.1 mem with early | late
    · exact Nat.le_of_lt (fewer r early)
    · rcases List.mem_cons.1 late with rfl | late
      · exact Nat.le_refl _
      · exact most r late

end Best

section Parameters

variable {c : Coercer} {p : Param} {params : List Param} {args : List HostValue} {a : HostValue}

lemma bindParams_out (mode : p.mode = .out) :
    bindParams c (p :: params) args = (bindParams c params args).map (.behind 0 .nil) := by
  simp [bindParams, mode]

lemma bindParams_variadic (mode : p.mode = .variadic) :
    bindParams c (p :: params) args =
      (args.mapM fun a => (c a p.kind).toOption).bind fun items =>
        (bindParams c params []).map (.behind (if items.isEmpty then 1 else 2) (.array items)) := by
  simp [bindParams, mode, Option.map_eq_bind]

/-- What a parameter does without an argument: it takes its default. -/
lemma bindParams_missing (takes : p.takesArgument = true) :
    bindParams c (p :: params) [] =
      p.default.bind fun d => (bindParams c params []).map (.behind 1 d.value) := by
  cases mode : p.mode <;> simp_all [Param.takesArgument, bindParams] <;> cases p.default <;> rfl

/-- An argument that is nil leaves the parameter its default, if it has one. -/
lemma bindParams_default {d : DefaultValue} (takes : p.takesArgument = true)
    (default : p.default = some d) :
    bindParams c (p :: params) (.nil :: args) =
      (bindParams c params args).map (.behind 1 d.value) := by
  cases mode : p.mode <;> simp_all [Param.takesArgument, bindParams]

/-- Any other argument is coerced to the kind of the parameter. -/
lemma bindParams_given (takes : p.takesArgument = true)
    (given : a = .nil → p.default = none) :
    bindParams c (p :: params) (a :: args) =
      (c a p.kind).toOption.bind fun slot => (bindParams c params args).map (.behind 2 slot) := by
  cases mode : p.mode <;> simp_all [Param.takesArgument, bindParams, Option.map_eq_bind] <;>
    split <;> simp_all

lemma takesArgument_or (p : Param) :
    p.mode = .out ∨ p.mode = .variadic ∨ p.takesArgument = true := by
  cases mode : p.mode <;> simp [Param.takesArgument, mode]

end Parameters

/-- `found` is a candidate that accepted the arguments, as it stands or with its type parameters
replaced. -/
structure Selected (c : Coercer) (candidates : List (Declared Method))
    (receiver : Option HostObject) (found : Resolved) : Prop where
  candidate : ∃ m ∈ candidates, found.member.owner = m.owner ∧ found.member.index = m.index ∧
    (found.member.item = m.item ∨ ∃ kinds, found.member.item = m.item.instantiate kinds)
  accepted : ∃ taken b, bind c found.member.item taken receiver = some b ∧ b.slots = found.slots

variable {c : Coercer} {candidates : List (Declared Method)} {args : List HostValue}
  {receiver : Option HostObject} {found : Resolved}

/-- An overload without type parameters is selected as it stands. -/
lemma mem_of_resolve (h : resolve c candidates args receiver = some found) :
    found.member ∈ candidates ∧
      ∃ b, bind c found.member.item args receiver = some b ∧ b.slots = found.slots := by
  obtain ⟨m, mem, accepted⟩ := List.mem_filterMap.1 (mem_of_best h)
  obtain ⟨b, bound, rfl⟩ := Option.map_eq_some_iff.1 accepted
  exact ⟨(List.mem_filter.1 mem).1, b, bound, rfl⟩

/-- The overload that wins took the arguments for its points. -/
lemma bind_of_resolve (won : resolve c candidates args receiver = some found) :
    bind c found.member.item args receiver = some ⟨found.score, found.slots⟩ := by
  obtain ⟨m, -, accepted⟩ := List.mem_filterMap.1 (mem_of_best won)
  obtain ⟨b, bound, rfl⟩ := Option.map_eq_some_iff.1 accepted
  exact bound

/-- A generic overload took what is behind its type arguments. -/
lemma bind_of_resolveGeneric (won : resolveGeneric c candidates args receiver = some found) :
    ∃ m ∈ candidates, found.member.item = m.item.instantiate (found.typeArgs.map (·.kind)) ∧
      found.member.owner = m.owner ∧ found.member.index = m.index ∧
      bind c found.member.item (args.drop m.item.typeParams) receiver
        = some ⟨found.score, found.slots⟩ := by
  obtain ⟨m, mem, accepted⟩ := List.mem_filterMap.1 (mem_of_best won)
  unfold bindGeneric at accepted
  dsimp only at accepted
  split at accepted
  · cases accepted
  · obtain ⟨b, bound, rfl⟩ := Option.map_eq_some_iff.1 accepted
    exact ⟨m, (List.mem_filter.1 mem).1, rfl, rfl, rfl, bound⟩

lemma bind_of_select (won : select c candidates args receiver = some found) :
    ∃ given, given <:+ args ∧
      bind c found.member.item given receiver = some ⟨found.score, found.slots⟩ := by
  rcases Option.or_eq_some_iff.1 won with plain | ⟨-, generic⟩
  · exact ⟨args, List.suffix_refl args, bind_of_resolve plain⟩
  · obtain ⟨m, -, -, -, -, bound⟩ := bind_of_resolveGeneric generic
    exact ⟨_, List.drop_suffix _ _, bound⟩

lemma Selected.of_resolve (h : resolve c candidates args receiver = some found) :
    Selected c candidates receiver found := by
  obtain ⟨mem, b, bound, slots⟩ := mem_of_resolve h
  exact ⟨⟨found.member, mem, rfl, rfl, Or.inl rfl⟩, args, b, bound, slots⟩

lemma Selected.of_resolveGeneric (h : resolveGeneric c candidates args receiver = some found) :
    Selected c candidates receiver found := by
  obtain ⟨m, mem, item, owner, index, bound⟩ := bind_of_resolveGeneric h
  exact ⟨⟨m, mem, owner, index, Or.inr ⟨_, item⟩⟩, _, _, bound, rfl⟩

lemma Selected.of_select (h : select c candidates args receiver = some found) :
    Selected c candidates receiver found := by
  rcases Option.or_eq_some_iff.1 h with plain | ⟨-, generic⟩
  · exact of_resolve plain
  · exact of_resolveGeneric generic

section Calls

variable {strip : Bool} {target : Target} {group : String} {overloads : List (Declared Method)}
  {inv : Invocation}

/-- The call of a method group that an overload was selected for. -/
def Resolved.through (found : Resolved) (target : Target) (group : String) : Invocation :=
  ⟨found.member, group, target.cls, target.object?, found.slots, found.typeArgs⟩

lemma planCall_eq_ok : planCall strip c target group overloads args = .ok inv ↔
    ∃ found, selectCall strip c target overloads args = some found ∧
      inv = found.through target group := by
  unfold planCall
  cases selectCall strip c target overloads args with
  | none => simp
  | some found => simp [Resolved.through, eq_comm]

lemma planCall_eq_error {e : BridgeError} :
    planCall strip c target group overloads args = .error e ↔
      selectCall strip c target overloads args = none ∧
        e = noMatchingOverload target.cls group (listedArgs strip target args) := by
  unfold planCall
  cases selectCall strip c target overloads args with
  | none => simp [eq_comm]
  | some found => simp

/-- Whether or not the receiver is dropped, what is selected was selected for the last of the
arguments. -/
lemma exists_select (selected : selectCall strip c target overloads args = some found) :
    ∃ taken, taken <:+ args ∧ select c overloads taken target.object? = some found := by
  unfold selectCall at selected
  split at selected
  · split at selected
    · rcases Option.or_eq_some_iff.1 selected with dropped | ⟨-, kept⟩
      · exact ⟨_, List.suffix_cons _ _, dropped⟩
      · exact ⟨_, List.suffix_refl _, kept⟩
    · exact ⟨_, List.suffix_refl _, selected⟩
  · exact ⟨_, List.suffix_refl _, selected⟩

/-- A call on a bound group selects one of its overloads. -/
lemma Selected.of_selectCall (h : selectCall strip c target overloads args = some found) :
    Selected c overloads target.object? found := by
  obtain ⟨taken, -, selected⟩ := exists_select h
  exact .of_select selected

end Calls

/-- An extension function called on an instance has it in its first slot. -/
lemma slot_of_bind {m : Method} {o : HostObject} {b : Binding} (extension : m.isExtension = true)
    (params : m.params ≠ []) (h : bind c m args (some o) = some b) :
    b.slots[0]? = some (.object o) := by
  unfold bind at h
  rw [extension] at h
  cases eq : m.params with
  | nil => exact absurd eq params
  | cons p rest =>
    rw [eq] at h
    obtain ⟨rest, -, rfl⟩ := Option.map_eq_some_iff.1 h
    rfl

end ScriptBridge.Bridge
