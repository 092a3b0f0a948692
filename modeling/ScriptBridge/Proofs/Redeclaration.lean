import Mathlib.Data.List.Nodup
import ScriptBridge.Proofs.Closing
import ScriptBridge.Proofs.Exposure
import ScriptBridge.Proofs.Substitution
import ScriptBridge.Proofs.TypeArguments

/-!
# Redeclared methods

Nothing says of a method that it overrides another one. A group lists the overloads of a class
before those of its base classes, and of several overloads with the same points the first one is
selected. So an overload with the parameters of one before it is never selected: what a class
redeclares it overrides.
-/

namespace ScriptBridge

/-- Parameters that take the same arguments for the same points. What the defaults are makes no
difference, only whether there are any. -/
structure Param.Alike (p q : Param) : Prop where
  kind : p.kind = q.kind
  mode : p.mode = q.mode
  optional : p.isOptional = q.isOptional

/-- A method with the parameters of another one, of the same kinds, modes and defaults. -/
structure Method.Redeclares (own base : Method) : Prop where
  params : List.Forall₂ Param.Alike own.params base.params
  extension : own.isExtension = base.isExtension
  typeParams : own.typeParams = base.typeParams

/-- The class that makes a declaration, and the position where it does. -/
def Declared.place {α : Type} (d : Declared α) : HostType × Nat :=
  (d.owner, d.index)

/-- The registries that there are: built of some types, with some types asked for their members
and some generic types closed since. -/
inductive Registry.Made : Registry → Prop
  | build (registered : List HostType) (nextIdentity : Nat) (closer : Closer) :
      Made (Registry.build registered nextIdentity closer)
  | remember {r : Registry} (made : Made r) (t : HostType) : Made (r.remember t)
  | close {r r' : Registry} {t closed : HostType} {args : List HostType} (made : Made r)
      (ok : r.close t args = .ok (closed, r')) : Made r'

section Redeclared

variable {p q : Param} {own base : Method}

lemma Param.Alike.takesArgument (alike : Param.Alike p q) :
    p.takesArgument = q.takesArgument := by
  rw [Param.takesArgument, Param.takesArgument, alike.mode]

lemma Param.Alike.default_eq_none (alike : Param.Alike p q) (required : q.default = none) :
    p.default = none := by
  simpa [Param.isOptional, required] using alike.optional

namespace Method.Redeclares

lemma isGeneric (redeclares : own.Redeclares base) : own.isGeneric = base.isGeneric := by
  rw [Method.isGeneric, Method.isGeneric, redeclares.typeParams]

/-- The same parameters are left to the arguments. -/
lemma left (redeclares : own.Redeclares base) (receiver : Option HostObject) :
    List.Forall₂ Param.Alike (own.left receiver) (base.left receiver) := by
  have length : (own.received receiver).length = (base.received receiver).length := by
    unfold Method.received
    rw [redeclares.extension, redeclares.params.length_eq]
  rw [Method.left, Method.left, length]
  exact List.forall₂_drop _ redeclares.params

/-- So it is of the methods closed over the same kinds. -/
lemma instantiate (redeclares : own.Redeclares base) (kinds : List Kind) :
    (own.instantiate kinds).Redeclares (base.instantiate kinds) where
  params := by
    simp only [Method.instantiate, List.forall₂_map_left_iff, List.forall₂_map_right_iff]
    exact redeclares.params.imp fun _ _ alike => ⟨by rw [alike.kind], alike.mode, alike.optional⟩
  extension := redeclares.extension
  typeParams := rfl

end Method.Redeclares

end Redeclared

namespace HostType

/-- The classes that a class derives from are parts of it. -/
lemma sizeOf_le_of_mem_chain {b t : HostType} (mem : b ∈ t.chain) : sizeOf b ≤ sizeOf t := by
  induction t using chain.induct with
  | case1 _ _ _ _ _ _ _ parent _ _ ih =>
    rw [chain] at mem
    rcases List.mem_cons.1 mem with rfl | mem
    · exact Nat.le_refl _
    · have smaller := ih mem
      simp only [mk.sizeOf_spec, Option.some.sizeOf_spec]
      omega
  | case2 t rootless =>
    rw [chain.eq_2 t rootless, List.mem_singleton] at mem
    rw [mem]

lemma chain_eq_cons (t : HostType) : t.chain = t :: t.chain.tail := by
  cases t with
  | mk _ _ _ _ _ _ _ base _ _ => cases base <;> rfl

lemma sizeOf_lt_of_mem_tail {b t : HostType} (mem : b ∈ t.chain.tail) : sizeOf b < sizeOf t := by
  cases t with
  | mk _ _ _ _ _ _ _ base _ _ =>
    cases base with
    | none => cases mem
    | some parent =>
      have smaller := sizeOf_le_of_mem_chain (show b ∈ parent.chain from mem)
      simp only [mk.sizeOf_spec, Option.some.sizeOf_spec]
      omega

/-- A chain goes from each class to smaller ones, so it repeats none. -/
lemma chain_pairwise (t : HostType) : t.chain.Pairwise fun s u => sizeOf u < sizeOf s := by
  induction t using chain.induct with
  | case1 _ _ _ _ _ _ _ parent _ _ ih =>
    rw [chain, List.pairwise_cons]
    exact ⟨fun b mem => sizeOf_lt_of_mem_tail mem, ih⟩
  | case2 t rootless =>
    rw [chain.eq_2 t rootless]
    exact List.pairwise_singleton _ _

/-- Behind a class of the chain stand the classes it derives from, and none of them before it. -/
lemma exists_chain_split {b d t : HostType} (derived : d ∈ t.chain) (inherited : b ∈ d.chain.tail) :
    ∃ front, t.chain = front ++ d :: d.chain.tail ∧ b ∉ front ++ [d] := by
  obtain ⟨front, split⟩ := suffix_chain derived
  have larger := chain_pairwise t
  rw [← split, List.pairwise_append] at larger
  rw [chain_eq_cons d] at split
  refine ⟨front, split.symm, fun mem => ?_⟩
  have smaller := sizeOf_lt_of_mem_tail inherited
  rcases List.mem_append.1 mem with early | here
  · have order := larger.2.2 b early d (by rw [chain_eq_cons]; exact List.mem_cons_self)
    omega
  · rw [List.mem_singleton.1 here] at smaller
    exact Nat.lt_irrefl _ smaller

lemma chain_nodup (t : HostType) : t.chain.Nodup :=
  t.chain_pairwise.imp fun smaller same => by
    rw [same] at smaller
    exact Nat.lt_irrefl _ smaller

end HostType

section Places

variable {r : Registry} {m n : Declared Method} {t : HostType} {name : String} {isStatic : Bool}

/-- Extension functions are methods of the classes that declare them. -/
lemma Registry.Made.extension_declared (made : r.Made) (mem : (name, m) ∈ r.extensions) :
    m.owner.members.methods[m.index]? = some m.item := by
  induction made with
  | build registered nextIdentity closer =>
    obtain ⟨t, -, mem⟩ := List.mem_flatMap.1 mem
    obtain ⟨m', declared, eq⟩ := List.mem_filterMap.1 mem
    obtain ⟨_, -, eq⟩ := Option.map_eq_some_iff.1 eq
    cases eq
    obtain ⟨owner, here⟩ := Declared.mem_all declared
    rwa [owner]
  | remember _ t ih => exact ih (by simpa using mem)
  | close _ ok ih =>
    obtain ⟨-, ⟨-, rfl⟩ | ⟨-, -, rfl⟩⟩ := Registry.close_cases ok
    · exact ih mem
    · exact ih mem

lemma mem_exposedMethods (mem : m ∈ exposedMethods isStatic t) :
    m.owner = t ∧ m.owner.members.methods[m.index]? = some m.item := by
  obtain ⟨owner, here⟩ := Declared.mem_all (List.mem_filter.1 mem).1
  exact ⟨owner, by rwa [owner]⟩

/-- So is whatever a group offers. -/
lemma Registry.Made.overload_declared (made : r.Made)
    (mem : m ∈ ((r.metadata t).members isStatic).overloads name) :
    m.owner.members.methods[m.index]? = some m.item := by
  rw [Registry.metadata_eq, Metadata.overloads_members] at mem
  rcases List.mem_append.1 (List.mem_filter.1 mem).1 with own | extension
  · obtain ⟨s, -, mem⟩ := List.mem_flatMap.1 own
    exact (mem_exposedMethods mem).2
  · split at extension
    · cases extension
    · obtain ⟨s, -, mem⟩ := List.mem_flatMap.1 extension
      obtain ⟨⟨key, kept⟩, mem, eq⟩ := List.mem_filterMap.1 (List.mem_filter.1 mem).1
      dsimp only at eq
      split at eq
      · cases eq
        exact made.extension_declared mem
      · cases eq

/-- The place tells which method was declared. -/
lemma eq_of_place (declared : m.owner.members.methods[m.index]? = some m.item)
    (declared' : n.owner.members.methods[n.index]? = some n.item) (same : m.place = n.place) :
    m = n := by
  obtain ⟨owner, index, item⟩ := m
  obtain ⟨owner', index', item'⟩ := n
  cases same
  cases declared.symm.trans declared'
  rfl

/-- What a class declares stands before everything that the classes declare from which it
derives. -/
lemma exists_overloads_split {b d : HostType} {own : Declared Method} (derived : d ∈ t.chain)
    (inherited : b ∈ d.chain.tail) (own_mem : own ∈ exposedMethods isStatic d) :
    ∃ front rest, ((r.metadata t).members isStatic).overloads own.item.name = front ++ own :: rest ∧
      ∀ m ∈ front ++ [own], m.owner ≠ b := by
  obtain ⟨nearer, chain, fresh⟩ := HostType.exists_chain_split derived inherited
  obtain ⟨before, after, split⟩ := List.append_of_mem own_mem
  have all : ∃ behind, Metadata.candidates r.extensionsFor t isStatic =
      (nearer.flatMap (exposedMethods isStatic) ++ before) ++ own :: behind := by
    refine ⟨after ++ d.chain.tail.flatMap (exposedMethods isStatic) ++
      if isStatic then [] else exposedExtensions r.extensionsFor t, ?_⟩
    rw [Metadata.candidates, chain, List.flatMap_append, List.flatMap_cons, split]
    simp only [List.append_assoc, List.cons_append]
  obtain ⟨behind, all⟩ := all
  rw [Registry.metadata_eq, Metadata.overloads_members, all, List.filter_append,
    List.filter_cons_of_pos (by simp)]
  refine ⟨_, _, rfl, fun m mem owner => fresh ?_⟩
  have declared : m ∈ nearer.flatMap (exposedMethods isStatic) ∨ m ∈ exposedMethods isStatic d := by
    rcases List.mem_append.1 mem with early | here
    · refine (List.mem_append.1 (List.mem_filter.1 early).1).imp_right fun early => ?_
      rw [split]
      exact List.mem_append_left _ early
    · rw [List.mem_singleton.1 here]
      exact Or.inr own_mem
  rcases declared with early | here
  · obtain ⟨s, among, here⟩ := List.mem_flatMap.1 early
    rw [← owner, (mem_exposedMethods here).1]
    exact List.mem_append_left _ among
  · rw [← owner, (mem_exposedMethods here).1]
    exact List.mem_append_right _ (List.mem_singleton_self d)

lemma places_nodup {α : Type} (owner : HostType) (items : List α) :
    ((Declared.all owner items).map Declared.place).Nodup := by
  have positions : ((Declared.all owner items).map Declared.place).map Prod.snd
      = List.range' 0 items.length := by
    rw [← List.zipIdx_map_snd 0 items, Declared.all, List.map_map, List.map_map]
    rfl
  exact .of_map Prod.snd (positions ▸ List.nodup_range')

/-- The overloads of an operator are declared at different places. -/
lemma operator_places_nodup (r : Registry) (t : HostType) (op : Operator) :
    (((r.metadata t).operator op).map Declared.place).Nodup := by
  have kept : ((r.metadata t).operator op).map Declared.place =
      ((r.metadata t).operators.filter (·.item.1 == op)).map Declared.place := by
    unfold Metadata.operator
    rw [List.map_filterMap, ← List.filterMap_eq_filter, List.map_filterMap]
    refine List.filterMap_congr fun d _ => ?_
    by_cases same : (d.item.1 == op) = true
    · simp [same, Declared.place, Option.guard]
    · simp [same, Option.guard]
  rw [kept]
  refine (List.filter_sublist.map _).nodup ?_
  rw [r.metadata_eq]
  show ((t.chain.flatMap fun s => Declared.all s s.members.operators).map Declared.place).Nodup
  rw [List.map_flatMap, List.nodup_flatMap]
  refine ⟨fun s _ => places_nodup s _, t.chain_nodup.imp fun {s u} differ place here there => ?_⟩
  obtain ⟨d, mem, rfl⟩ := List.mem_map.1 here
  obtain ⟨d', mem', same⟩ := List.mem_map.1 there
  refine differ ?_
  rw [← (Declared.mem_all mem).1, ← (Declared.mem_all mem').1]
  exact (congrArg Prod.fst same).symm

end Places

namespace Bridge

section Points

variable {c : Coercer} {p q : Param} {args : List HostValue} {own base : Method}

lemma Row.alike {rest : List HostValue} {slot : HostValue} {points : Nat}
    (row : Row c q rest slot points) (alike : Param.Alike p q) :
    ∃ slot', Row c p rest slot' points := by
  cases row with
  | out mode => exact ⟨_, .out (alike.mode.trans mode)⟩
  | coerced takes given ok =>
    exact ⟨_, .coerced (alike.takesArgument.trans takes)
      (fun nil => alike.default_eq_none (given nil)) (alike.kind ▸ ok)⟩
  | default takes missing default =>
    have optional : p.isOptional = true := by rw [alike.optional, Param.isOptional, default]; rfl
    obtain ⟨d, default'⟩ := Option.isSome_iff_exists.1 optional
    exact ⟨d.value, .default (alike.takesArgument.trans takes) missing default'⟩
  | variadic mode all => exact ⟨_, .variadic (alike.mode.trans mode) (alike.kind ▸ all)⟩

lemma remaining_alike (alike : Param.Alike p q) : remaining [p] args = remaining [q] args := by
  simp [remaining, alike.mode, alike.takesArgument]

lemma bindParams_redeclared {params params' : List Param}
    (alike : List.Forall₂ Param.Alike params params') (args : List HostValue) :
    Matches (bindParams c params' args) (bindParams c params args) := by
  induction alike generalizing args with
  | nil => exact .refl _
  | cons first others ih =>
    intro b bound
    obtain ⟨slot, points, row, rest, left, rfl⟩ := bindParams_cons_iff.1 bound
    obtain ⟨slot', row'⟩ := row.alike first
    obtain ⟨rest', left', score⟩ := ih _ rest left
    rw [← remaining_alike first] at left'
    exact ⟨rest'.behind points slot', bindParams_cons_iff.2 ⟨_, _, row', _, left', rfl⟩,
      by simp [Binding.behind, score]⟩

/-- A method that redeclares another one binds whatever that binds, for as many points. -/
lemma bind_redeclared (redeclares : own.Redeclares base) (args : List HostValue)
    (receiver : Option HostObject) :
    Matches (bind c base args receiver) (bind c own args receiver) := by
  intro b bound
  rw [bind_eq] at bound ⊢
  obtain ⟨rest, left, rfl⟩ := Option.map_eq_some_iff.1 bound
  obtain ⟨rest', left', score⟩ := bindParams_redeclared (redeclares.left receiver) args rest left
  exact ⟨_, Option.map_eq_some_iff.2 ⟨rest', left', rfl⟩, score⟩

end Points

section Offered

variable {c : Coercer} {args : List HostValue} {receiver : Option HostObject}
  {own base : Declared Method} {r : Resolved}

lemma Offers.redeclared (offers : Offers c args receiver base r)
    (redeclares : own.item.Redeclares base.item) :
    ∃ s, Offers c args receiver own s ∧ s.score = r.score := by
  obtain ⟨b, bound, score⟩ := bind_redeclared redeclares args receiver _ offers.bound
  exact ⟨⟨own, [], b.slots, b.score⟩,
    ⟨redeclares.isGeneric.trans offers.plain, bound, rfl, rfl⟩, score⟩

lemma OffersClosed.redeclared (offers : OffersClosed c args receiver base r)
    (redeclares : own.item.Redeclares base.item) :
    ∃ s, OffersClosed c args receiver own s ∧ s.score = r.score := by
  obtain ⟨⟨generic, length, leading, closed⟩, won⟩ := offers
  have same := redeclares.typeParams
  have closings : (own.closedOver r.typeArgs).item.Redeclares (base.closedOver r.typeArgs).item :=
    redeclares.instantiate _
  obtain ⟨s, offers, score⟩ := (resolve_singleton.1 won).redeclared closings
  refine ⟨{ s with typeArgs := r.typeArgs }, ⟨⟨?_, ?_, ?_, closed⟩, ?_⟩, score⟩
  · exact redeclares.isGeneric.trans generic
  · exact length.trans same.symm
  · rw [same]
    exact leading
  · rw [same, resolve_singleton]
    exact ⟨offers.plain, offers.bound, offers.member, rfl⟩

end Offered

/-- No call returns the declaration, as it stands or closed over type arguments. -/
def NeverSelected (overloads : List (Declared Method)) (m : Declared Method) : Prop :=
  ∀ (c : Coercer) (args : List HostValue) (receiver : Option HostObject) (found : Resolved),
    resolve c overloads args receiver = some found ∨
      resolveGeneric c overloads args receiver = some found → found.member.place ≠ m.place

section Groups

variable {c : Coercer} {args : List HostValue} {receiver : Option HostObject}
  {overloads front mid back rest : List (Declared Method)} {own base : Declared Method}
  {found : Resolved}

/-- Without the overload a call comes to the same. -/
lemma resolve_redeclared (redeclares : own.item.Redeclares base.item) :
    resolve c (front ++ own :: mid ++ base :: back) args receiver =
      resolve c (front ++ own :: mid ++ back) args receiver := by
  refine resolve_insert fun b plain bound => ?_
  have offers : Offers c args receiver base ⟨base, [], b.slots, b.score⟩ := ⟨plain, bound, rfl, rfl⟩
  obtain ⟨s, offers', score⟩ := offers.redeclared redeclares
  exact Or.inl ⟨own, by simp, s, offers', Nat.le_of_eq score.symm⟩

lemma resolveGeneric_redeclared (redeclares : own.item.Redeclares base.item) :
    resolveGeneric c (front ++ own :: mid ++ base :: back) args receiver =
      resolveGeneric c (front ++ own :: mid ++ back) args receiver := by
  rw [resolveGeneric_eq, resolveGeneric_eq]
  refine best_offer_insert fun r offered => ?_
  obtain ⟨s, offers, score⟩ := ((offerClosed?_eq_some_iff base r).1 offered).redeclared redeclares
  exact Or.inl ⟨own, by simp, s, (offerClosed?_eq_some_iff own s).2 offers,
    Nat.le_of_eq score.symm⟩

/-- What stands behind an overload, and not before it too, does not win against it for the same
points. -/
lemma Wins.not_redeclared {Offers : Declared Method → Resolved → Prop}
    {before after : List (Declared Method)} {m : Declared Method}
    (wins : Wins Offers before m after found) (split : front ++ own :: rest = before ++ m :: after)
    (matched : ∀ r, Offers m r → ∃ s, Offers own s ∧ s.score = r.score) :
    m ∈ front ++ [own] := by
  rcases List.append_eq_append_iff.1 split with ⟨between, rfl, eq⟩ | ⟨between, rfl, eq⟩
  · cases between with
    | nil =>
      cases eq
      simp
    | cons n between =>
      cases eq
      obtain ⟨s, offers, score⟩ := matched found wins.offered
      have fewer := wins.before own (by simp) s offers
      omega
  · cases between <;> cases eq <;> simp

/-- So the overload that wins is another one, if the one in question stands at no other place. -/
lemma Wins.place_ne {Offers : Declared Method → Resolved → Prop}
    {before after : List (Declared Method)} {m : Declared Method}
    (wins : Wins Offers before m after found) (split : front ++ own :: rest = before ++ m :: after)
    (matched : ∀ r, Offers base r → ∃ s, Offers own s ∧ s.score = r.score)
    (alone : ∀ n ∈ front ++ own :: rest, n.place = base.place → n = base)
    (fresh : ∀ n ∈ front ++ [own], n.place ≠ base.place) : m.place ≠ base.place := by
  intro same
  have listed : m ∈ front ++ own :: rest := split ▸ by simp
  obtain rfl := alone m listed same
  exact fresh m (wins.not_redeclared split matched) rfl

/-- An overload is never selected behind one that redeclares it. -/
lemma never_selected (redeclares : own.item.Redeclares base.item)
    (alone : ∀ m ∈ front ++ own :: rest, m.place = base.place → m = base)
    (fresh : ∀ m ∈ front ++ [own], m.place ≠ base.place) :
    NeverSelected (front ++ own :: rest) base := by
  rintro c args receiver found (won | won)
  · obtain ⟨before, m, after, split, wins⟩ := resolve_iff.1 won
    rw [wins.offered.member]
    exact wins.place_ne split (fun r offers => offers.redeclared redeclares) alone fresh
  · obtain ⟨before, m, after, split, wins⟩ := resolveGeneric_iff.1 won
    rw [(resolve_singleton.1 wins.offered.2).member]
    exact wins.place_ne split (fun r offers => offers.redeclared redeclares) alone fresh

/-- So no call through the group runs it, with the receiver as an argument or without. -/
lemma NeverSelected.planCall {strip : Bool} {target : Target} {group : String} {inv : Invocation}
    (never : NeverSelected overloads base)
    (planned : planCall strip c target group overloads args = .ok inv) :
    inv.member.place ≠ base.place := by
  obtain ⟨found, selected, rfl⟩ := planCall_eq_ok.1 planned
  obtain ⟨taken, -, won⟩ := exists_select selected
  refine never c taken target.object? found ?_
  exact (Option.or_eq_some_iff.1 won).imp_right And.right

end Groups

/-- An overload that another one before it redeclares makes no difference to any call, and no call
returns it unless it stands before that one too. So what a class redeclares is never run as a class
declares it from which it derives, neither for the class nor for those derived from it. The
overloads of an operator override each other likewise. -/
theorem redeclared_never_selected {r : Registry} (made : r.Made) (t : HostType) :
    (∀ isStatic name front own mid base back,
      ((r.metadata t).members isStatic).overloads name = front ++ own :: mid ++ base :: back →
      own.item.Redeclares base.item →
      (∀ c args receiver,
        resolve c (front ++ own :: mid ++ base :: back) args receiver =
            resolve c (front ++ own :: mid ++ back) args receiver ∧
          resolveGeneric c (front ++ own :: mid ++ base :: back) args receiver =
            resolveGeneric c (front ++ own :: mid ++ back) args receiver) ∧
      ((∀ m ∈ front ++ [own], m.place ≠ base.place) →
        NeverSelected (front ++ own :: mid ++ base :: back) base)) ∧
    (∀ isStatic, ∀ d ∈ t.chain, ∀ b ∈ d.chain.tail, ∀ own ∈ exposedMethods isStatic d,
      ∀ base ∈ Declared.all b b.members.methods, own.item.Redeclares base.item →
      NeverSelected (((r.metadata t).members isStatic).overloads own.item.name) base ∧
      ∀ strip c target group args inv, planCall strip c target group
          (((r.metadata t).members isStatic).overloads own.item.name) args = .ok inv →
        inv.member.place ≠ base.place) ∧
    ∀ op front own mid base back, (r.metadata t).operator op = front ++ own :: mid ++ base :: back →
      own.item.Redeclares base.item → NeverSelected ((r.metadata t).operator op) base := by
  refine ⟨?_, ?_, ?_⟩
  · intro isStatic name front own mid base back split redeclares
    refine ⟨fun c args receiver =>
      ⟨resolve_redeclared redeclares, resolveGeneric_redeclared redeclares⟩, fun fresh => ?_⟩
    have declared {m : Declared Method} (mem : m ∈ front ++ own :: mid ++ base :: back) :
        m.owner.members.methods[m.index]? = some m.item := made.overload_declared (split ▸ mem)
    rw [List.append_assoc, List.cons_append] at declared ⊢
    have here := declared (m := base) (by simp)
    exact never_selected redeclares (fun m mem => eq_of_place (declared mem) here) fresh
  · intro isStatic d derived b inherited own mem base declared redeclares
    have never :
        NeverSelected (((r.metadata t).members isStatic).overloads own.item.name) base := by
      obtain ⟨owner, here⟩ := Declared.mem_all declared
      rw [← owner] at here
      obtain ⟨front, rest, split, fresh⟩ := exists_overloads_split (r := r) derived inherited mem
      rw [split]
      refine never_selected redeclares (fun m mem => ?_) fun m mem same => ?_
      · exact eq_of_place (made.overload_declared (split ▸ mem)) here
      · exact fresh m mem ((congrArg Prod.fst same).trans owner)
    exact ⟨never, fun strip c target group args inv planned => never.planCall planned⟩
  · intro op front own mid base back split redeclares
    have places := operator_places_nodup r t op
    rw [split, List.append_assoc, List.cons_append] at places ⊢
    have here : base ∈ front ++ own :: (mid ++ base :: back) := by simp
    refine never_selected redeclares (fun m mem => List.inj_on_of_nodup_map places mem here) ?_
    intro m mem
    rw [List.append_cons, List.map_append, List.nodup_append] at places
    exact places.2.2 _ (List.mem_map_of_mem mem) _ (List.mem_map_of_mem (by simp))

section Speaking

/-- Speaks any number of times. -/
def speaking (label : String) : Method where
  name := "speak"
  params := [⟨"times", .int .i64, .input, some (.int 1)⟩, ⟨"words", .string, .variadic, none⟩]
  returns := some .string
  isStatic := false
  hidden := false
  isExtension := false
  typeParams := 0
  label := label
  body := .idle

/-- An animal of some class, which has a voice and can be joined with another animal. -/
def species (identity : Nat) (name : String) (declared : Members) (base : Option HostType) :
    HostType where
  identity := identity
  name := name
  ns := some "zoo"
  primitive := none
  members := declared
  typeParams := none
  home := "zoo." ++ name
  base := base
  nested := []
  typeArgs := []

def joining (label : String) : Method where
  name := "+"
  params := [⟨"left", .object "zoo.Animal", .input, none⟩, ⟨"right", .any, .input, none⟩]
  returns := none
  isStatic := true
  hidden := false
  isExtension := false
  typeParams := 0
  label := label
  body := .idle

def animal : HostType :=
  species 50 "Animal"
    { methods := [speaking "noise"], operators := [(.add, joining "herd")] } none

/-- Dogs speak and join in their own way. -/
def dog : HostType :=
  species 51 "Dog"
    { methods := [speaking "bark"], operators := [(.add, joining "pack")] } (some animal)

def puppy : HostType :=
  species 52 "Puppy" {} (some dog)

def zoo : Registry :=
  .build [] 60

def bark : Declared Method :=
  ⟨dog, 0, speaking "bark"⟩

def noise : Declared Method :=
  ⟨animal, 0, speaking "noise"⟩

lemma overloads_puppy : ((zoo.metadata puppy).members false).overloads "speak" = [bark, noise] := by
  have none : zoo.extensionsFor = fun _ => [] := by
    funext name
    show extensionsAmong ((Registry.catalog []).types.flatMap Registry.extensionsOf) name = []
    rw [Registry.catalog, Registry.visit]
    rfl
  rw [Registry.metadata_eq, none]
  rfl

lemma speaking_redeclares (label label' : String) : (speaking label).Redeclares (speaking label') :=
  ⟨.cons ⟨rfl, rfl, rfl⟩ (.cons ⟨rfl, rfl, rfl⟩ .nil), rfl, rfl⟩

/-- A puppy told to speak barks as a dog does, and joined with anything it makes a pack. -/
theorem puppy_never_makes_noise :
    NeverSelected [bark, noise] noise ∧
    (∃ inv, planCall true (coerce 8 {}) (.object ⟨1, puppy⟩) "speak"
        (((zoo.metadata puppy).members false).overloads "speak") [.int 2] = .ok inv ∧
      inv.member.place ≠ noise.place) ∧
    NeverSelected ((zoo.metadata puppy).operator .add) ⟨animal, 0, joining "herd"⟩ := by
  obtain ⟨groups, chains, operators⟩ :=
    redeclared_never_selected (.build [] 60 .blank : zoo.Made) puppy
  have differ : bark.place ≠ noise.place := fun same =>
    absurd (congrArg (·.1.identity) same) (by decide)
  refine ⟨?_, ?_, ?_⟩
  · refine (groups false "speak" [] bark [] noise [] overloads_puppy (speaking_redeclares _ _)).2 ?_
    simpa using differ
  · have derived : dog ∈ puppy.chain := List.mem_cons_of_mem _ List.mem_cons_self
    have inherited : animal ∈ dog.chain.tail := List.mem_cons_self
    obtain ⟨-, runs⟩ := chains false dog derived animal inherited bark List.mem_cons_self noise
      List.mem_cons_self (speaking_redeclares _ _)
    have planned : planCall true (coerce 8 {}) (.object ⟨1, puppy⟩) "speak"
        (((zoo.metadata puppy).members false).overloads "speak") [.int 2] =
          .ok ⟨bark, "speak", puppy, some ⟨1, puppy⟩, [.int 2, .array []], []⟩ := by
      rw [overloads_puppy]
      rfl
    exact ⟨_, planned, runs _ _ _ _ _ _ planned⟩
  · exact operators .add [] ⟨dog, 0, joining "pack"⟩ [] _ [] rfl
      ⟨.cons ⟨rfl, rfl, rfl⟩ (.cons ⟨rfl, rfl, rfl⟩ .nil), rfl, rfl⟩

end Speaking

end Bridge

end ScriptBridge
