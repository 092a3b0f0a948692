import Mathlib.Logic.Relation
import ScriptBridge.Proofs.Overload

/-!
# The first best candidate

Resolution takes the first of the candidates that bind the arguments for the most points
(`resolve_first_best`). A candidate that cannot win makes no difference to it, wherever it stands:
`Spare` says which ones cannot.
-/

namespace ScriptBridge.Bridge

/-- A candidate wins where it offers more points than all before it and no fewer than all behind
it. -/
structure Wins (Offers : Declared Method → Resolved → Prop) (before : List (Declared Method))
    (m : Declared Method) (after : List (Declared Method)) (found : Resolved) : Prop where
  offered : Offers m found
  before : ∀ n ∈ before, ∀ r, Offers n r → r.score < found.score
  after : ∀ n ∈ after, ∀ r, Offers n r → r.score ≤ found.score

section Offers

variable {offer : Declared Method → Option Resolved} {Offers : Declared Method → Resolved → Prop}
  {candidates front back : List (Declared Method)} {m : Declared Method} {found : Resolved}

lemma best_offer_eq_none (same : ∀ m r, offer m = some r ↔ Offers m r) :
    best (candidates.filterMap offer) = none ↔ ∀ m ∈ candidates, ∀ r, ¬ Offers m r := by
  rw [best_eq_none_iff, List.filterMap_eq_nil_iff]
  refine forall₂_congr fun m _ => ?_
  rw [Option.eq_none_iff_forall_ne_some]
  exact forall_congr' fun r => not_congr (same m r)

/-- The best of the offers is that of the candidate that wins. -/
lemma best_offer_iff (same : ∀ m r, offer m = some r ↔ Offers m r) :
    best (candidates.filterMap offer) = some found ↔
      ∃ before m after, candidates = before ++ m :: after ∧ Wins Offers before m after found := by
  rw [best_iff]
  constructor
  · rintro ⟨fewer, most, split, less, enough⟩
    obtain ⟨before, rest, rfl, rfl, offered⟩ := List.filterMap_eq_append_iff.1 split
    obtain ⟨idle, m, after, rfl, rejects, here, rfl⟩ := List.filterMap_eq_cons_iff.1 offered
    refine ⟨before ++ idle, m, after, by rw [List.append_assoc], (same m found).1 here, ?_, ?_⟩
    · intro n mem r offers
      rcases List.mem_append.1 mem with early | late
      · exact less r (List.mem_filterMap.2 ⟨n, early, (same n r).2 offers⟩)
      · cases (rejects n late).symm.trans ((same n r).2 offers)
    · intro n mem r offers
      exact enough r (List.mem_filterMap.2 ⟨n, mem, (same n r).2 offers⟩)
  · rintro ⟨before, m, after, rfl, offered, less, enough⟩
    refine ⟨before.filterMap offer, after.filterMap offer, ?_, ?_, ?_⟩
    · rw [List.filterMap_append, List.filterMap_cons_some ((same m found).2 offered)]
    · intro r mem
      obtain ⟨n, here, offers⟩ := List.mem_filterMap.1 mem
      exact less n here r ((same n r).1 offers)
    · intro r mem
      obtain ⟨n, here, offers⟩ := List.mem_filterMap.1 mem
      exact enough n here r ((same n r).1 offers)

/-- What a candidate offers that one before it matches or one behind it exceeds makes no
difference. -/
lemma best_offer_insert (beaten : ∀ r, offer m = some r →
      (∃ n ∈ front, ∃ s, offer n = some s ∧ r.score ≤ s.score) ∨
        ∃ n ∈ back, ∃ s, offer n = some s ∧ r.score < s.score) :
    best ((front ++ m :: back).filterMap offer) = best ((front ++ back).filterMap offer) := by
  cases offered : offer m with
  | none =>
    rw [List.filterMap_append, List.filterMap_append, List.filterMap_cons_none offered]
  | some r =>
    rw [List.filterMap_append, List.filterMap_append, List.filterMap_cons_some offered, best_append,
      best_append, best_cons]
    rcases beaten r offered with ⟨n, mem, s, other, enough⟩ | ⟨n, mem, s, other, more⟩
    · obtain ⟨w, eq, le⟩ := exists_best (List.mem_filterMap.2 ⟨n, mem, other⟩)
      have ahead : better (some w) (some r) = some w := by rw [better, if_neg (by omega)]
      rw [eq, ← better_assoc, ahead]
    · obtain ⟨w, eq, le⟩ := exists_best (List.mem_filterMap.2 ⟨n, mem, other⟩)
      have behind : better (some r) (some w) = some w := by rw [better, if_pos (by omega)]
      rw [eq, behind]

end Offers

section Candidates

variable {c : Coercer} {args : List HostValue} {receiver : Option HostObject}
  {candidates fewer more : List (Declared Method)} {m : Declared Method} {found : Resolved}

/-- What a candidate without type parameters offers where it binds the arguments. -/
structure Offers (c : Coercer) (args : List HostValue) (receiver : Option HostObject)
    (m : Declared Method) (r : Resolved) : Prop where
  plain : m.item.isGeneric = false
  bound : bind c m.item args receiver = some ⟨r.score, r.slots⟩
  member : r.member = m
  typeArgs : r.typeArgs = []

/-- One candidate more that cannot win: one with type parameters, one that rejects the arguments,
one with fewer points than the winner, or one with as many behind it. The winner may be that of
either list. -/
inductive Spare (c : Coercer) (args : List HostValue) (receiver : Option HostObject) :
    List (Declared Method) → List (Declared Method) → Prop
  | generic (front back : List (Declared Method)) {m : Declared Method}
      (generic : m.item.isGeneric = true) :
      Spare c args receiver (front ++ back) (front ++ m :: back)
  | rejects (front back : List (Declared Method)) {m : Declared Method}
      (rejects : bind c m.item args receiver = none) :
      Spare c args receiver (front ++ back) (front ++ m :: back)
  | fewer (front back : List (Declared Method)) {m : Declared Method} {b : Binding}
      {found : Resolved} (bound : bind c m.item args receiver = some b)
      (won : resolve c (front ++ back) args receiver = some found ∨
        resolve c (front ++ m :: back) args receiver = some found)
      (fewer : b.score < found.score) : Spare c args receiver (front ++ back) (front ++ m :: back)
  | later (before between back : List (Declared Method)) {w m : Declared Method} {b : Binding}
      {found : Resolved} (bound : bind c m.item args receiver = some b)
      (won : Wins (Offers c args receiver) before w (between ++ back) found ∨
        Wins (Offers c args receiver) before w (between ++ m :: back) found)
      (equal : b.score = found.score) :
      Spare c args receiver (before ++ w :: between ++ back) (before ++ w :: between ++ m :: back)

/-- The offer of a candidate, if it has one. -/
def offer? (c : Coercer) (args : List HostValue) (receiver : Option HostObject)
    (m : Declared Method) : Option Resolved :=
  if !m.item.isGeneric then (bind c m.item args receiver).map fun b => ⟨m, [], b.slots, b.score⟩
  else none

lemma offer?_eq_some_iff (m : Declared Method) (r : Resolved) :
    offer? c args receiver m = some r ↔ Offers c args receiver m r := by
  unfold offer?
  constructor
  · intro offered
    split at offered
    · rename_i plain
      obtain ⟨b, bound, rfl⟩ := Option.map_eq_some_iff.1 offered
      exact ⟨by simpa using plain, bound, rfl, rfl⟩
    · cases offered
  · rintro ⟨plain, bound, rfl, typeArgs⟩
    rw [if_pos (by simp [plain]), bound, Option.map_some, ← typeArgs]

lemma resolve_eq (c : Coercer) (candidates : List (Declared Method)) (args : List HostValue)
    (receiver : Option HostObject) :
    resolve c candidates args receiver = best (candidates.filterMap (offer? c args receiver)) := by
  rw [resolve, List.filterMap_filter]
  rfl

lemma resolve_eq_none_iff : resolve c candidates args receiver = none ↔
    ∀ m ∈ candidates, m.item.isGeneric = false → bind c m.item args receiver = none := by
  rw [resolve_eq, best_offer_eq_none offer?_eq_some_iff]
  refine forall₂_congr fun m _ => ?_
  constructor
  · intro silent plain
    rw [Option.eq_none_iff_forall_ne_some]
    exact fun b bound => silent ⟨m, [], b.slots, b.score⟩ ⟨plain, bound, rfl, rfl⟩
  · intro rejects r offers
    cases (rejects offers.plain).symm.trans offers.bound

lemma resolve_iff : resolve c candidates args receiver = some found ↔
    ∃ before m after, candidates = before ++ m :: after ∧
      Wins (Offers c args receiver) before m after found := by
  rw [resolve_eq, best_offer_iff offer?_eq_some_iff]

lemma resolve_singleton : resolve c [m] args receiver = some found ↔
    Offers c args receiver m found := by
  rw [resolve_eq, ← offer?_eq_some_iff, List.filterMap_cons, List.filterMap_nil]
  cases offer? c args receiver m <;> simp [best]

lemma exists_offer (won : resolve c candidates args receiver = some found) :
    ∃ n ∈ candidates, Offers c args receiver n found := by
  obtain ⟨before, n, after, rfl, wins⟩ := resolve_iff.1 won
  exact ⟨n, by simp, wins.offered⟩

/-- A candidate that binds the arguments for no more points than one before it, or for fewer than
one behind it, makes no difference. -/
lemma resolve_insert {front back : List (Declared Method)}
    (beaten : ∀ b, m.item.isGeneric = false → bind c m.item args receiver = some b →
      (∃ n ∈ front, ∃ s, Offers c args receiver n s ∧ b.score ≤ s.score) ∨
        ∃ n ∈ back, ∃ s, Offers c args receiver n s ∧ b.score < s.score) :
    resolve c (front ++ m :: back) args receiver = resolve c (front ++ back) args receiver := by
  rw [resolve_eq, resolve_eq]
  refine best_offer_insert fun r offered => ?_
  have offers := (offer?_eq_some_iff m r).1 offered
  simpa only [offer?_eq_some_iff] using beaten _ offers.plain offers.bound

/-- A spare candidate makes no difference. -/
lemma Spare.resolve_eq (spare : Spare c args receiver fewer more) :
    resolve c fewer args receiver = resolve c more args receiver := by
  cases spare with
  | generic front back generic =>
    exact (resolve_insert fun b plain => by simp [generic] at plain).symm
  | rejects front back rejects =>
    exact (resolve_insert fun b _ bound => by simp [rejects] at bound).symm
  | @fewer front back m b found bound won fewer =>
    have winner : ∃ n ∈ front ++ back, Offers c args receiver n found := by
      rcases won with won | won
      · exact exists_offer won
      · obtain ⟨n, mem, offers⟩ := exists_offer won
        have other : n ≠ m := by
          rintro rfl
          cases bound.symm.trans offers.bound
          exact Nat.lt_irrefl _ fewer
        refine ⟨n, ?_, offers⟩
        simpa [other] using mem
    obtain ⟨n, mem, offers⟩ := winner
    refine (resolve_insert fun b' _ bound' => ?_).symm
    cases bound.symm.trans bound'
    rcases List.mem_append.1 mem with early | late
    · exact Or.inl ⟨n, early, found, offers, Nat.le_of_lt fewer⟩
    · exact Or.inr ⟨n, late, found, offers, fewer⟩
  | @later before between back w m b found bound won equal =>
    refine (resolve_insert fun b' _ bound' => ?_).symm
    cases bound.symm.trans bound'
    have offered : Offers c args receiver w found := won.elim (·.offered) (·.offered)
    exact Or.inl ⟨w, by simp, found, offered, Nat.le_of_eq equal⟩

end Candidates

/-- Resolution finds the first of the candidates with the most points, if one accepts, and goes on
finding it however candidates that cannot win are added or left out. -/
theorem resolve_first_best (c : Coercer) (args : List HostValue) (receiver : Option HostObject) :
    (∀ candidates, resolve c candidates args receiver = none ↔
      ∀ m ∈ candidates, m.item.isGeneric = false → bind c m.item args receiver = none) ∧
    (∀ candidates found, resolve c candidates args receiver = some found ↔
      ∃ before m after, candidates = before ++ m :: after ∧
        Wins (Offers c args receiver) before m after found) ∧
    ∀ fewer more, Relation.EqvGen (Spare c args receiver) fewer more →
      resolve c fewer args receiver = resolve c more args receiver := by
  refine ⟨fun _ => resolve_eq_none_iff, fun _ _ => resolve_iff, fun fewer more spares => ?_⟩
  induction spares with
  | rel _ _ spare => exact spare.resolve_eq
  | refl => rfl
  | symm _ _ _ ih => exact ih.symm
  | trans _ _ _ _ _ first second => exact first.trans second

section Painting

/-- Paints with a colour of some kind. -/
def painting (index : Nat) (kind : Kind) : Declared Method where
  owner := default
  index := index
  item :=
    { name := "paint"
      params := [⟨"colour", kind, .input, none⟩]
      returns := none
      isStatic := true
      hidden := false
      isExtension := false
      typeParams := 0
      label := "paint"
      body := .idle }

def named : Declared Method := painting 0 .string

def numbered : Declared Method := painting 1 (.int .u8)

def described : Declared Method := painting 2 .any

def red : List HostValue := [.str "red"]

/-- The name of a colour is no number, and what takes it for anything comes too late. -/
theorem named_stays :
    Relation.EqvGen (Spare (coerce 8 {}) red none) [named] [numbered, named, described] ∧
      resolve (coerce 8 {}) [named] red none = some ⟨named, [], red, 2⟩ ∧
      resolve (coerce 8 {}) [numbered, named, described] red none = some ⟨named, [], red, 2⟩ := by
  have rejects : bind (coerce 8 {}) numbered.item red none = none := rfl
  have offers : Offers (coerce 8 {}) red none named ⟨named, [], red, 2⟩ := ⟨rfl, rfl, rfl, rfl⟩
  have wins : Wins (Offers (coerce 8 {}) red none) [numbered] named [] ⟨named, [], red, 2⟩ := by
    refine ⟨offers, fun n mem r other => ?_, fun n mem => by cases mem⟩
    rw [List.mem_singleton.1 mem] at other
    cases rejects.symm.trans other.bound
  have bound : bind (coerce 8 {}) described.item red none = some ⟨2, red⟩ := rfl
  have spares := Relation.EqvGen.trans _ _ _ (.rel _ _ (Spare.rejects [] [named] rejects))
    (.rel _ _ (Spare.later [numbered] [] [] bound (Or.inl wins) rfl))
  obtain ⟨-, first_best, unchanged⟩ := resolve_first_best (coerce 8 {}) red none
  have won : resolve (coerce 8 {}) [named] red none = some ⟨named, [], red, 2⟩ :=
    (first_best _ _).2 ⟨[], named, [], rfl, offers, by simp, by simp⟩
  exact ⟨spares, won, (unchanged _ _ spares).symm.trans won⟩

end Painting

end ScriptBridge.Bridge
