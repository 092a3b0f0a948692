import ScriptBridge.Proofs.Binding
import ScriptBridge.Proofs.Selection

/-!
# Explicit type arguments

A generic candidate is closed over the types that a call starts with and takes part with what it
then offers to the other arguments (`OffersClosed`); the first best of them is selected. No
placeholder of its type parameters is left in a closed candidate, so its parameters take what is
coerced to the kinds of the type arguments (`instantiated_row`).
-/

namespace ScriptBridge

/-- Arrays nested to a depth around a kind. -/
def Kind.arrays : Nat → Kind → Kind
  | 0, kind => kind
  | depth + 1, kind => .array (arrays depth kind)

lemma Kind.substitute_arrays (kinds : List Kind) (depth : Nat) (kind : Kind) :
    (arrays depth kind).substitute kinds = arrays depth (kind.substitute kinds) := by
  induction depth with
  | zero => rfl
  | succ depth ih => exact congrArg Kind.array ih

/-- The candidate closed over types. -/
def Declared.closedOver (m : Declared Method) (types : List HostType) : Declared Method :=
  { m with item := m.item.instantiate (types.map (·.kind)) }

namespace Bridge

/-- The types that a generic method is closed over are those that the arguments start with, as many
as it has type parameters and none of them an open generic type. -/
structure ClosesOver (m : Method) (args : List HostValue) (types : List HostType) : Prop where
  generic : m.isGeneric = true
  length : types.length = m.typeParams
  leading : args.take m.typeParams = types.map .type
  closed : ∀ t ∈ types, t.isOpen = false

/-- What a generic candidate offers: closed over its type arguments it is resolved alone for the
arguments behind them. -/
def OffersClosed (c : Coercer) (args : List HostValue) (receiver : Option HostObject)
    (m : Declared Method) (r : Resolved) : Prop :=
  ClosesOver m.item args r.typeArgs ∧
    resolve c [m.closedOver r.typeArgs] (args.drop m.item.typeParams) receiver
      = some { r with typeArgs := [] }

section Leading

/-- Types suffice for a number of type parameters where there are as many and none is open. -/
lemma suffices_iff {n : Nat} {types : List HostType} :
    ¬ (decide (types.length < n) || types.any (·.isOpen)) = true ↔
      n ≤ types.length ∧ ∀ t ∈ types, t.isOpen = false := by
  simp

/-- The arguments start with types exactly as far as `leadingTypes` goes. -/
lemma leadingTypes_take_iff {args : List HostValue} {types : List HostType} :
    (leadingTypes args).take types.length = types ↔
      args.take types.length = types.map .type := by
  induction types generalizing args with
  | nil => simp
  | cons t types ih =>
    cases args with
    | nil => simp [leadingTypes]
    | cons a args =>
      cases a with
      | type s => simp [leadingTypes, ih]
      | _ => simp [leadingTypes]

end Leading

section Candidates

variable {c : Coercer} {args : List HostValue} {receiver : Option HostObject}
  {candidates : List (Declared Method)} {m : Declared Method} {found : Resolved}

lemma bindGeneric_iff (generic : m.item.isGeneric = true) :
    bindGeneric c m args receiver = some found ↔ OffersClosed c args receiver m found := by
  unfold bindGeneric
  dsimp only
  constructor
  · intro offered
    split at offered
    · cases offered
    · rename_i complete
      obtain ⟨b, bound, rfl⟩ := Option.map_eq_some_iff.1 offered
      obtain ⟨enough, closed⟩ := suffices_iff.1 complete
      have length : ((leadingTypes args).take m.item.typeParams).length = m.item.typeParams :=
        Nat.le_antisymm (List.length_take_le _ _) enough
      have leading := leadingTypes_take_iff.1
        (show (leadingTypes args).take ((leadingTypes args).take m.item.typeParams).length = _ by
          rw [length])
      rw [length] at leading
      exact ⟨⟨generic, length, leading, closed⟩,
        resolve_singleton.2 ⟨rfl, bound, rfl, rfl⟩⟩
  · rintro ⟨⟨-, length, leading, closed⟩, won⟩
    have types : (leadingTypes args).take m.item.typeParams = found.typeArgs := by
      rw [← length] at leading ⊢
      exact leadingTypes_take_iff.2 leading
    have complete := suffices_iff.2 ⟨Nat.le_of_eq length.symm, closed⟩
    obtain ⟨-, bound, member, -⟩ := resolve_singleton.1 won
    have bound' : bind c (m.item.instantiate (found.typeArgs.map (·.kind)))
        (args.drop m.item.typeParams) receiver = some ⟨found.score, found.slots⟩ := bound
    have member' : { m with item := m.item.instantiate (found.typeArgs.map (·.kind)) }
        = found.member := member.symm
    rw [types, if_neg complete, bound', Option.map_some, member']

/-- The offer of a generic candidate, if it has one. -/
def offerClosed? (c : Coercer) (args : List HostValue) (receiver : Option HostObject)
    (m : Declared Method) : Option Resolved :=
  if m.item.isGeneric then bindGeneric c m args receiver else none

lemma offerClosed?_eq_some_iff (m : Declared Method) (r : Resolved) :
    offerClosed? c args receiver m = some r ↔ OffersClosed c args receiver m r := by
  unfold offerClosed?
  split
  · rename_i generic
    exact bindGeneric_iff generic
  · rename_i plain
    exact iff_of_false (by simp) fun offers => plain offers.1.generic

lemma resolveGeneric_eq (c : Coercer) (candidates : List (Declared Method)) (args : List HostValue)
    (receiver : Option HostObject) : resolveGeneric c candidates args receiver =
      best (candidates.filterMap (offerClosed? c args receiver)) := by
  rw [resolveGeneric, List.filterMap_filter]
  rfl

lemma resolveGeneric_eq_none_iff : resolveGeneric c candidates args receiver = none ↔
    ∀ m ∈ candidates, ∀ types, ClosesOver m.item args types →
      resolve c [m.closedOver types] (args.drop m.item.typeParams) receiver = none := by
  rw [resolveGeneric_eq, best_offer_eq_none offerClosed?_eq_some_iff]
  refine forall₂_congr fun m _ => ?_
  constructor
  · intro silent types closes
    rw [Option.eq_none_iff_forall_ne_some]
    intro r won
    have untyped : { r with typeArgs := [] } = r := by
      obtain ⟨-, -, -, typeArgs⟩ := resolve_singleton.1 won
      rw [← typeArgs]
    exact silent { r with typeArgs := types } ⟨closes, won.trans (congrArg some untyped.symm)⟩
  · rintro rejects r ⟨closes, won⟩
    cases (rejects _ closes).symm.trans won

lemma resolveGeneric_iff : resolveGeneric c candidates args receiver = some found ↔
    ∃ before m after, candidates = before ++ m :: after ∧
      Wins (OffersClosed c args receiver) before m after found := by
  rw [resolveGeneric_eq, best_offer_iff offerClosed?_eq_some_iff]

end Candidates

section Instantiation

variable {m : Method} {kinds : List Kind} {receiver : Option HostObject}

lemma received_instantiate : (m.instantiate kinds).received receiver = m.received receiver := by
  simp [Method.received, Method.instantiate]

lemma left_instantiate : (m.instantiate kinds).left receiver =
    (m.left receiver).map fun p => { p with kind := p.kind.substitute kinds } := by
  rw [Method.left, Method.left, received_instantiate, List.map_drop]
  rfl

/-- What parameters leave does not depend on their kinds. -/
lemma remaining_substitute (params : List Param) (args : List HostValue) :
    remaining (params.map fun p => { p with kind := p.kind.substitute kinds }) args
      = remaining params args := by
  rw [remaining, remaining, List.any_map, List.countP_map]
  rfl

end Instantiation

/-- Where a placeholder was declared the row is that of a parameter with the kind of its type
argument, in as many arrays. -/
lemma instantiated_row {c : Coercer} {args : List HostValue} {receiver : Option HostObject}
    {m : Declared Method} {found : Resolved} (offers : OffersClosed c args receiver m found)
    {i depth n : Nat} {p : Param} (param : (m.item.left receiver)[i]? = some p)
    (kind : p.kind = .arrays depth (.placeholder n)) (bounded : n < m.item.typeParams) :
    ∃ t slot points, found.typeArgs[n]? = some t ∧
      found.slots[(m.item.received receiver).length + i]? = some slot ∧
      Row c { p with kind := .arrays depth t.kind }
        (remaining ((m.item.left receiver).take i) (args.drop m.item.typeParams)) slot points := by
  obtain ⟨closes, won⟩ := offers
  have inside : n < found.typeArgs.length := closes.length ▸ bounded
  have bound := (resolve_singleton.1 won).bound
  have substituted : ((m.closedOver found.typeArgs).item.left receiver)[i]? =
      some { p with kind := .arrays depth found.typeArgs[n].kind } := by
    rw [Declared.closedOver, left_instantiate, List.getElem?_map, param, Option.map_some, kind,
      Kind.substitute_arrays]
    simp [Kind.substitute, inside]
  obtain ⟨slot, points, here, row⟩ := exists_slot bound substituted
  refine ⟨found.typeArgs[n], slot, points, List.getElem?_eq_getElem inside, ?_, ?_⟩
  · rw [← here, Declared.closedOver, received_instantiate]
  · rw [Declared.closedOver, left_instantiate, ← List.map_take, remaining_substitute] at row
    exact row

/-- A generic call selects the first of the candidates that closed over its type arguments have the
most points, if one accepts. Where a candidate declared a placeholder the call gives what the
kind of the type argument gives. -/
theorem resolveGeneric_first_best (c : Coercer) (args : List HostValue)
    (receiver : Option HostObject) :
    (∀ candidates, resolveGeneric c candidates args receiver = none ↔
      ∀ m ∈ candidates, ∀ types, ClosesOver m.item args types →
        resolve c [m.closedOver types] (args.drop m.item.typeParams) receiver = none) ∧
    (∀ candidates found, resolveGeneric c candidates args receiver = some found ↔
      ∃ before m after, candidates = before ++ m :: after ∧
        Wins (OffersClosed c args receiver) before m after found) ∧
    ∀ m found, OffersClosed c args receiver m found → ∀ i p depth n,
      (m.item.left receiver)[i]? = some p → p.kind = .arrays depth (.placeholder n) →
      n < m.item.typeParams → ∃ t slot points, found.typeArgs[n]? = some t ∧
        found.slots[(m.item.received receiver).length + i]? = some slot ∧
        Row c { p with kind := .arrays depth t.kind }
          (remaining ((m.item.left receiver).take i) (args.drop m.item.typeParams)) slot points :=
  ⟨fun _ => resolveGeneric_eq_none_iff, fun _ _ => resolveGeneric_iff,
    fun _ _ offers _ _ _ _ param kind bounded => instantiated_row offers param kind bounded⟩

section Collecting

/-- Collects items under a label, in a list of a given kind. -/
def labelledItems : Declared Method where
  owner := default
  index := 0
  item :=
    { name := "collect"
      params := [⟨"label", .any, .input, none⟩, ⟨"items", .array (.placeholder 0), .input, none⟩]
      returns := none
      isStatic := true
      hidden := false
      isExtension := false
      typeParams := 1
      label := "labelled"
      body := .idle }

/-- Collects items of the second of two kinds. -/
def keyedItems : Declared Method where
  owner := default
  index := 1
  item :=
    { name := "collect"
      params := [⟨"items", .array (.placeholder 1), .input, none⟩]
      returns := none
      isStatic := true
      hidden := false
      isExtension := false
      typeParams := 2
      label := "keyed"
      body := .idle }

def whole : HostType := .ofKind 1 "Whole" .bigint none

def word : HostType := .ofKind 2 "Word" .string none

/-- A call with two leading types. -/
def items : List HostValue :=
  [.type whole, .type word, .array [.int 7]]

def collected : Resolved :=
  ⟨labelledItems.closedOver [whole], [whole], [.type word, .array [.big 7]], 4⟩

/-- With one type argument the second type is an ordinary argument, and the items are brought to the
kind of the first. -/
theorem labelledItems_row :
    resolveGeneric (coerce 8 {}) [keyedItems, labelledItems] items none = some collected ∧
    OffersClosed (coerce 8 {}) items none labelledItems collected ∧
    ∃ t slot points, collected.typeArgs[0]? = some t ∧ collected.slots[1]? = some slot ∧
      Row (coerce 8 {}) ⟨"items", .arrays 1 t.kind, .input, none⟩ [.array [.int 7]] slot
        points := by
  obtain ⟨-, -, rows⟩ := resolveGeneric_first_best (coerce 8 {}) items none
  have offers : OffersClosed (coerce 8 {}) items none labelledItems collected :=
    ⟨⟨rfl, rfl, rfl, by decide⟩, rfl⟩
  exact ⟨rfl, offers, rows _ _ offers 1 _ 1 0 rfl rfl (by decide)⟩

end Collecting

end Bridge

end ScriptBridge
