import Mathlib.Data.List.Forall2
import ScriptBridge.Proofs.Coercion
import ScriptBridge.Proofs.MemberTable
import ScriptBridge.Proofs.Overload

/-!
# Instances of derived classes

What a class offers under a name its derived classes offer too, and what takes an object takes an
instance of a derived class in its place. So a call that was accepted goes on being accepted, with
no fewer points.
-/

namespace ScriptBridge

namespace HostType

/-- Behind a class of the chain stands the chain of that class. -/
lemma suffix_chain {base t : HostType} (mem : base ∈ t.chain) : base.chain <:+ t.chain := by
  induction t using chain.induct with
  | case1 _ _ _ _ _ _ _ parent _ _ ih =>
    rw [chain] at mem ⊢
    rcases List.mem_cons.1 mem with rfl | mem
    · rw [chain]
    · exact (ih mem).trans (List.suffix_cons _ _)
  | case2 t rootless =>
    rw [chain.eq_2 t rootless, List.mem_singleton] at mem
    rw [mem]

lemma isSubtypeOf_of_mem {base t : HostType} {name : String} (mem : base ∈ t.chain)
    (subtype : base.isSubtypeOf name = true) : t.isSubtypeOf name = true := by
  obtain ⟨s, here, named⟩ := List.any_eq_true.1 subtype
  exact List.any_eq_true.2 ⟨s, (suffix_chain mem).subset here, named⟩

end HostType

namespace Metadata

variable {extensions : String → List (Declared Method)} {base derived : HostType}

/-- A derived class offers every overload that its base class offers. -/
lemma candidates_subset (mem : base ∈ derived.chain) (isStatic : Bool) :
    candidates extensions base isStatic ⊆ candidates extensions derived isStatic := by
  have chain := (HostType.suffix_chain mem).subset
  unfold candidates exposedExtensions
  intro m offered
  rcases List.mem_append.1 offered with own | extension
  · obtain ⟨s, here, own⟩ := List.mem_flatMap.1 own
    exact List.mem_append_left _ (List.mem_flatMap.2 ⟨s, chain here, own⟩)
  · refine List.mem_append_right _ ?_
    cases isStatic with
    | true => cases extension
    | false =>
      obtain ⟨s, here, extension⟩ := List.mem_flatMap.1 extension
      exact List.mem_flatMap.2 ⟨s, chain here, extension⟩

lemma overloads_subset (mem : base ∈ derived.chain) (isStatic : Bool) (name : String) :
    ((build extensions base).members isStatic).overloads name ⊆
      ((build extensions derived).members isStatic).overloads name := by
  rw [overloads_members, overloads_members]
  exact List.filter_subset _ (candidates_subset mem isStatic)

end Metadata

namespace Bridge

open Script

/-- Whatever the first binds the second binds too, for as many points. -/
def Matches (bound bound' : Option Binding) : Prop :=
  ∀ b, bound = some b → ∃ b', bound' = some b' ∧ b'.score = b.score

lemma Matches.refl (bound : Option Binding) : Matches bound bound :=
  fun b eq => ⟨b, eq, rfl⟩

lemma Matches.behind {bound bound' : Option Binding} (same : Matches bound bound') (points : Nat)
    (slot slot' : HostValue) :
    Matches (bound.map (.behind points slot)) (bound'.map (.behind points slot')) := by
  intro b eq
  obtain ⟨rest, ok, rfl⟩ := Option.map_eq_some_iff.1 eq
  obtain ⟨rest', ok', score⟩ := same rest ok
  exact ⟨_, Option.map_eq_some_iff.2 ⟨rest', ok', rfl⟩, by simp [Binding.behind, score]⟩

section Points

variable {c : Coercer} {args : List HostValue} {found : Resolved}

/-- Which instance a method is called on makes no difference to its points. -/
lemma bind_receiver {receiver receiver' : Option HostObject}
    (same : receiver.isSome = receiver'.isSome) (m : Method) :
    Matches (bind c m args receiver) (bind c m args receiver') := by
  cases receiver with
  | none =>
    cases receiver' with
    | none => exact .refl _
    | some o' => cases same
  | some o =>
    cases receiver' with
    | none => cases same
    | some o' =>
      unfold bind
      cases m.isExtension with
      | false => exact .refl _
      | true =>
        cases m.params with
        | nil => exact .refl _
        | cons p rest => exact (Matches.refl _).behind 0 (.object o) (.object o')

/-- With more overloads to choose from the selected one has no fewer points. -/
lemma resolve_mono {candidates more : List (Declared Method)} (subset : candidates ⊆ more)
    {receiver receiver' : Option HostObject} (same : receiver.isSome = receiver'.isSome)
    (resolved : resolve c candidates args receiver = some found) :
    ∃ found', resolve c more args receiver' = some found' ∧ found.score ≤ found'.score := by
  -- The overload that won still competes, so whatever wins now has at least its points.
  obtain ⟨m, mem, accepted⟩ := List.mem_filterMap.1 (mem_of_best resolved)
  obtain ⟨b, bound, rfl⟩ := Option.map_eq_some_iff.1 accepted
  obtain ⟨b', bound', score⟩ := bind_receiver same m.item b bound
  obtain ⟨offered, plain⟩ := List.mem_filter.1 mem
  have accepted' : (⟨m, [], b'.slots, b'.score⟩ : Resolved) ∈
      (more.filter (!·.item.isGeneric)).filterMap fun m =>
        (bind c m.item args receiver').map fun b => ⟨m, [], b.slots, b.score⟩ :=
    List.mem_filterMap.2 ⟨m, List.mem_filter.2 ⟨subset offered, plain⟩,
      Option.map_eq_some_iff.2 ⟨b', bound', rfl⟩⟩
  obtain ⟨winner, eq, le⟩ := exists_best accepted'
  refine ⟨winner, eq, ?_⟩
  rw [← score]
  exact le

end Points

/-- The second value is the first one with instances of derived classes in the place of objects. -/
inductive Narrows : HostValue → HostValue → Prop
  | same (v : HostValue) : Narrows v v
  | object {o o' : HostObject} (derived : o.cls ∈ o'.cls.chain) : Narrows (.object o) (.object o')
  | array {items items' : List HostValue} (each : List.Forall₂ Narrows items items') :
      Narrows (.array items) (.array items')

abbrev NarrowsAll : List HostValue → List HostValue → Prop :=
  List.Forall₂ Narrows

/-- The tables of the second heap hold instances of derived classes in the place of objects. -/
def TablesNarrow (h h' : Heap) : Prop :=
  ∀ id, NarrowsAll (pullAll h (h.sequence id)) (pullAll h' (h'.sequence id))

section Narrowing

variable {limit : Nat} {h h' : Heap} {v v' : HostValue}

lemma NarrowsAll.refl (vs : List HostValue) : NarrowsAll vs vs :=
  List.forall₂_same.2 fun v _ => .same v

/-- What can be done to each value of a list can be done to each value of one that narrows it. -/
lemma NarrowsAll.exists_results {P P' : HostValue → HostValue → Prop} {vs vs' ws : List HostValue}
    (step : ∀ {v v' w}, Narrows v v' → P v w → ∃ w', P' v' w' ∧ Narrows w w')
    (narrows : NarrowsAll vs vs') (all : List.Forall₂ P vs ws) :
    ∃ ws', List.Forall₂ P' vs' ws' ∧ NarrowsAll ws ws' := by
  induction narrows generalizing ws with
  | nil =>
    cases all
    exact ⟨[], .nil, .nil⟩
  | cons head _ ih =>
    obtain ⟨w, ws, first, others, rfl⟩ := List.forall₂_cons_left_iff.1 all
    obtain ⟨w', first', narrow⟩ := step head first
    obtain ⟨ws', others', rest⟩ := ih others
    exact ⟨w' :: ws', .cons first' others', .cons narrow rest⟩

lemma TablesNarrow.refl (h : Heap) : TablesNarrow h h :=
  fun _ => .refl _

/-- Of a value that is coerced to an array the elements narrow. -/
lemma items_of_narrows (tables : TablesNarrow h h') (narrows : Narrows v v') {element : Kind}
    {depth : Nat} {w : HostValue} (ok : coerceAt limit h (.array element) depth v = .ok w) :
    ∃ items items', NarrowsAll items items' ∧
      coerceAt limit h (.array element) depth (.array items) = .ok w ∧
      coerceAt limit h' (.array element) depth v'
        = coerceAt limit h' (.array element) depth (.array items') := by
  cases narrows with
  | same =>
    cases v with
    | array items => exact ⟨items, items, .refl items, ok, rfl⟩
    | table id =>
      rw [coerceAt_table] at ok
      exact ⟨_, _, tables id, ok, coerceAt_table element depth id⟩
    | _ => cases ok
  | object derived => cases ok
  | array each => exact ⟨_, _, each, ok, rfl⟩

/-- A kind that is not one of arrays takes the same values whatever tables hold. -/
lemma coerceAt_heap {kind : Kind} (plain : ∀ element, kind ≠ .array element) (depth : Nat)
    (v : HostValue) : coerceAt limit h kind depth v = coerceAt limit h' kind depth v := by
  cases kind with
  | array element => exact absurd rfl (plain element)
  | _ => cases v <;> rfl

/-- Whatever a kind takes, it takes with instances of derived classes in it, and leaves them
there. -/
theorem coerceAt_narrows (tables : TablesNarrow h h') {kind : Kind} {depth : Nat} {w : HostValue}
    (narrows : Narrows v v') (ok : coerceAt limit h kind depth v = .ok w) :
    ∃ w', coerceAt limit h' kind depth v' = .ok w' ∧ Narrows w w' := by
  induction kind generalizing depth v v' w with
  | array element ih =>
    obtain ⟨items, items', each, ok, eq⟩ := items_of_narrows tables narrows ok
    obtain ⟨below, ws, rfl, all⟩ := coerceAt_array.1 ok
    obtain ⟨ws', all', narrows⟩ := each.exists_results ih all
    exact ⟨.array ws', eq ▸ coerceAt_array.2 ⟨below, ws', rfl, all'⟩, .array narrows⟩
  | any =>
    cases ok
    exact ⟨v', rfl, narrows⟩
  | placeholder index =>
    cases ok
    exact ⟨v', rfl, narrows⟩
  | object name =>
    cases narrows with
    | same => exact ⟨w, (coerceAt_heap (fun _ => Kind.noConfusion) depth v).symm.trans ok, .same w⟩
    | @object o o' derived =>
      change (if o.cls.isSubtypeOf name then _ else _) = _ at ok
      split at ok
      · rename_i subtype
        cases ok
        refine ⟨.object o', ?_, .object derived⟩
        show (if o'.cls.isSubtypeOf name then _ else _) = _
        rw [if_pos (HostType.isSubtypeOf_of_mem derived subtype)]
      · cases ok
    | array each => cases ok
  | _ =>
    cases narrows with
    | same =>
      refine ⟨w, (coerceAt_heap ?_ depth v).symm.trans ok, .same w⟩
      exact fun _ => Kind.noConfusion
    | object derived => cases ok
    | array each => cases ok

lemma coerce_narrows (tables : TablesNarrow h h') {kind : Kind} {slot : HostValue}
    (narrows : Narrows v v') (ok : (coerce limit h v kind).toOption = some slot) :
    ∃ slot', (coerce limit h' v' kind).toOption = some slot' ∧ Narrows slot slot' := by
  have ok' : coerceAt limit h kind 0 v = .ok slot := by
    unfold coerce at ok
    cases eq : coerceAt limit h kind 0 v with
    | error e => simp [eq, Except.toOption] at ok
    | ok w => simpa [eq, Except.toOption] using ok
  obtain ⟨slot', eq, narrow⟩ := coerceAt_narrows tables narrows ok'
  exact ⟨slot', by simp [coerce, eq, Except.toOption], narrow⟩

lemma Narrows.nil_iff (narrows : Narrows v v') : v = .nil ↔ v' = .nil := by
  cases narrows <;> simp

end Narrowing

section Candidates

variable {limit : Nat} {h h' : Heap} {args args' : List HostValue}

/-- What parameters took they take with instances of derived classes in it, for as many points. -/
theorem bindParams_narrows (tables : TablesNarrow h h') (params : List Param)
    (narrows : NarrowsAll args args') :
    Matches (bindParams (coerce limit h) params args)
      (bindParams (coerce limit h') params args') := by
  induction params generalizing args args' with
  | nil =>
    cases narrows with
    | nil => exact .refl _
    | cons _ _ => exact .refl _
  | cons p params ih =>
    rcases takesArgument_or p with out | variadic | takes
    · rw [bindParams_out out, bindParams_out out]
      exact (ih narrows).behind 0 .nil .nil
    · rw [bindParams_variadic variadic, bindParams_variadic variadic]
      intro b bound
      obtain ⟨items, all, bound⟩ := Option.bind_eq_some_iff.1 bound
      obtain ⟨items', all', narrow⟩ :=
        narrows.exists_results (coerce_narrows tables) (mapM_eq_some.1 all)
      have empty : items'.isEmpty = items.isEmpty := by cases narrow <;> rfl
      rw [mapM_eq_some.2 all', Option.bind_some, empty]
      exact (ih .nil).behind _ (.array items) (.array items') b bound
    · cases narrows with
      | nil =>
        rw [bindParams_missing takes, bindParams_missing takes]
        cases p.default with
        | none => exact .refl _
        | some d => exact (ih .nil).behind 1 d.value d.value
      | @cons a a' args args' head others =>
        -- What is nil narrows to nil only, so the same rule applies to both arguments.
        by_cases given : a = .nil → p.default = none
        · rw [bindParams_given takes given,
            bindParams_given takes fun nil => given (head.nil_iff.2 nil)]
          intro b bound
          obtain ⟨slot, ok, bound⟩ := Option.bind_eq_some_iff.1 bound
          obtain ⟨slot', ok', -⟩ := coerce_narrows tables head ok
          rw [ok', Option.bind_some]
          exact (ih others).behind 2 slot slot' b bound
        · obtain ⟨nil, default⟩ := Classical.not_imp.1 given
          obtain ⟨d, default⟩ := Option.ne_none_iff_exists'.1 default
          rw [nil, head.nil_iff.1 nil, bindParams_default takes default,
            bindParams_default takes default]
          exact (ih others).behind 1 d.value d.value

lemma bind_narrows (tables : TablesNarrow h h') (m : Method) (narrows : NarrowsAll args args')
    (receiver : Option HostObject) :
    Matches (bind (coerce limit h) m args receiver) (bind (coerce limit h') m args' receiver) := by
  unfold bind
  split
  · exact (bindParams_narrows tables _ narrows).behind 0 _ _
  · exact bindParams_narrows tables _ narrows

/-- Types among arguments stay the types they are. -/
lemma leadingTypes_narrows (narrows : NarrowsAll args args') :
    leadingTypes args' = leadingTypes args := by
  induction narrows with
  | nil => rfl
  | @cons a a' _ _ head _ ih =>
    cases head with
    | same =>
      cases a with
      | type t => simp [leadingTypes, ih]
      | _ => rfl
    | object => rfl
    | array => rfl

/-- A candidate takes the same type arguments and accepts the rest for as many points. -/
lemma bindGeneric_narrows (tables : TablesNarrow h h') {m : Declared Method}
    (narrows : NarrowsAll args args') {receiver : Option HostObject} {found : Resolved}
    (accepted : bindGeneric (coerce limit h) m args receiver = some found) :
    ∃ found', bindGeneric (coerce limit h') m args' receiver = some found' ∧
      found'.typeArgs = found.typeArgs ∧ found'.score = found.score := by
  unfold bindGeneric at accepted ⊢
  rw [leadingTypes_narrows narrows]
  dsimp only at accepted ⊢
  split at accepted
  · cases accepted
  · rename_i complete
    obtain ⟨b, bound, rfl⟩ := Option.map_eq_some_iff.1 accepted
    rw [if_neg complete]
    have others := List.forall₂_drop m.item.typeParams narrows
    obtain ⟨b', bound', score⟩ := bind_narrows tables _ others receiver b bound
    exact ⟨_, Option.map_eq_some_iff.2 ⟨b', bound', rfl⟩, rfl, score⟩

end Candidates

/-- What is called on a class or its instances can be called on a derived class or its instances,
for no fewer points. And arguments may be instances of derived classes, inside arrays and tables
too: each candidate that accepted them goes on accepting them, for as many points. -/
theorem substitution (r : Registry) :
    (∀ base derived : Target, base.cls ∈ derived.cls.chain → base.isStatic = derived.isStatic →
      ∀ (c : Coercer) (name : String) (args : List HostValue) (found : Resolved),
        resolve c (((r.metadata base.cls).members base.isStatic).overloads name) args base.object?
            = some found →
          ∃ found', resolve c (((r.metadata derived.cls).members derived.isStatic).overloads name)
              args derived.object? = some found' ∧ found.score ≤ found'.score) ∧
    ∀ (limit : Nat) (h h' : Heap) (args args' : List HostValue), TablesNarrow h h' →
      NarrowsAll args args' → ∀ (m : Declared Method) (receiver : Option HostObject),
        (∀ b, bind (coerce limit h) m.item args receiver = some b →
          ∃ b', bind (coerce limit h') m.item args' receiver = some b' ∧ b'.score = b.score) ∧
        (∀ found, bindGeneric (coerce limit h) m args receiver = some found →
          ∃ found', bindGeneric (coerce limit h') m args' receiver = some found' ∧
            found'.typeArgs = found.typeArgs ∧ found'.score = found.score) := by
  constructor
  · intro base derived mem kind c name args found resolved
    have subset : ((r.metadata base.cls).members base.isStatic).overloads name ⊆
        ((r.metadata derived.cls).members derived.isStatic).overloads name := by
      rw [← kind, r.metadata_eq, r.metadata_eq]
      exact Metadata.overloads_subset mem base.isStatic name
    have same : base.object?.isSome = derived.object?.isSome := by
      cases base <;> cases derived <;> first | rfl | cases kind
    exact resolve_mono subset same resolved
  · intro limit h h' args args' tables narrows m receiver
    exact ⟨bind_narrows tables m.item narrows receiver,
      fun _ accepted => bindGeneric_narrows tables narrows accepted⟩

/-- Whether a rectangle covers another one. -/
def covers : Method where
  name := "covers"
  params := [⟨"other", .object "geometry.Rectangle", .input, none⟩]
  returns := some .bool
  isStatic := false
  hidden := false
  isExtension := false
  typeParams := 0
  label := "covers"
  body := .idle

def rectangle : HostType where
  identity := 20
  name := "Rectangle"
  ns := some "geometry"
  primitive := none
  members := { methods := [covers] }
  typeParams := none
  home := "geometry.Rectangle"
  base := none
  nested := []
  typeArgs := []

def square : HostType :=
  { rectangle with
    identity := 21
    name := "Square"
    members := {}
    home := "geometry.Square"
    base := some rectangle }

def shapes : Registry :=
  { Registry.empty with types := [rectangle, square], nextIdentity := 30 }

lemma chain_square : square.chain = [square, rectangle] := by
  simp [square, rectangle, HostType.chain]

/-- A square can be asked whether it covers a rectangle, as any rectangle can, and a rectangle
whether it covers a square. -/
theorem square_among_rectangles :
    (∃ found, resolve (coerce 8 {}) (((shapes.metadata square).members false).overloads "covers")
        [.object ⟨1, rectangle⟩] (some ⟨2, square⟩) = some found ∧ 2 ≤ found.score) ∧
      ∃ b, bind (coerce 8 {}) covers [.object ⟨2, square⟩] (some ⟨1, rectangle⟩) = some b ∧
        b.score = 2 := by
  have derived : rectangle ∈ square.chain := by simp [chain_square]
  obtain ⟨calls, arguments⟩ := substitution shapes
  constructor
  · exact calls (.object ⟨3, rectangle⟩) (.object ⟨2, square⟩) derived rfl (coerce 8 {}) "covers"
      [.object ⟨1, rectangle⟩] ⟨⟨rectangle, 0, covers⟩, [], [.object ⟨1, rectangle⟩], 2⟩ rfl
  · exact (arguments 8 {} {} [.object ⟨1, rectangle⟩] [.object ⟨2, square⟩] (.refl {})
      (.cons (.object derived) .nil) ⟨rectangle, 0, covers⟩ (some ⟨1, rectangle⟩)).1
      ⟨2, [.object ⟨1, rectangle⟩]⟩ rfl

end Bridge

end ScriptBridge
