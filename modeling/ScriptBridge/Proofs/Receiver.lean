import ScriptBridge.Bridge.Dispatch
import ScriptBridge.Proofs.Coercion
import ScriptBridge.Proofs.Target
import ScriptBridge.Proofs.TypeArguments

/-!
# Receivers

A method is called with a colon, which passes the target in front of the arguments, or with a dot,
and an extension function on an instance or with the instance as its first argument. Either way the
call comes to the same overload and the same slots (`colon_call_agrees`, `extension_binds_alike`).
-/

namespace ScriptBridge.Bridge

open Script

section Choice

variable {c : Coercer} {overloads : List (Declared Method)} {args : List HostValue}
  {receiver : Option HostObject} {found : Resolved}

/-- No overload accepts the arguments, as it stands or closed over the types they start with. -/
structure Refuses (c : Coercer) (overloads : List (Declared Method)) (args : List HostValue)
    (receiver : Option HostObject) : Prop where
  plain : ∀ m ∈ overloads, m.item.isGeneric = false → bind c m.item args receiver = none
  generic : ∀ m ∈ overloads, ∀ types, ClosesOver m.item args types →
    bind c (m.closedOver types).item (args.drop m.item.typeParams) receiver = none

/-- What arguments are resolved to: the first best of the overloads without type parameters, and the
first best of the generic ones where all others reject the arguments. -/
inductive Chooses (c : Coercer) (overloads : List (Declared Method)) (args : List HostValue)
    (receiver : Option HostObject) (found : Resolved) : Prop
  | plain {before after : List (Declared Method)} {m : Declared Method}
      (split : overloads = before ++ m :: after)
      (wins : Wins (Offers c args receiver) before m after found)
  | generic {before after : List (Declared Method)} {m : Declared Method}
      (rejected : ∀ n ∈ overloads, n.item.isGeneric = false → bind c n.item args receiver = none)
      (split : overloads = before ++ m :: after)
      (wins : Wins (OffersClosed c args receiver) before m after found)

lemma select_iff : select c overloads args receiver = some found ↔
    Chooses c overloads args receiver found := by
  rw [select, Option.or_eq_some_iff, resolve_eq_none_iff, resolveGeneric_iff, resolve_iff]
  constructor
  · rintro (⟨before, m, after, split, wins⟩ | ⟨rejected, before, m, after, split, wins⟩)
    · exact .plain split wins
    · exact .generic rejected split wins
  · rintro (⟨split, wins⟩ | ⟨rejected, split, wins⟩)
    · exact Or.inl ⟨_, _, _, split, wins⟩
    · exact Or.inr ⟨rejected, _, _, _, split, wins⟩

/-- A closed candidate has no type parameters left, so it is resolved alone where it binds. -/
lemma resolve_closedOver {m : Declared Method} {types : List HostType} :
    resolve c [m.closedOver types] args receiver = none ↔
      bind c (m.closedOver types).item args receiver = none := by
  rw [resolve_eq_none_iff]
  simp [Declared.closedOver, Method.isGeneric, Method.instantiate]

lemma select_eq_none_iff : select c overloads args receiver = none ↔
    Refuses c overloads args receiver := by
  rw [select, Option.or_eq_none_iff, resolve_eq_none_iff, resolveGeneric_eq_none_iff]
  simp only [resolve_closedOver]
  exact ⟨fun ⟨plain, generic⟩ => ⟨plain, generic⟩, fun ⟨plain, generic⟩ => ⟨plain, generic⟩⟩

end Choice

section Calls

variable {c : Coercer} {target : Target} {group : String} {overloads : List (Declared Method)}
  {args : List HostValue} {self : HostValue}

lemma selectCall_self (same : target.isSame self = true) :
    selectCall true c target overloads (self :: args) =
      (select c overloads args target.object?).or
        (select c overloads (self :: args) target.object?) := by
  simp [selectCall, same]

lemma selectCall_plain :
    selectCall false c target overloads args = select c overloads args target.object? := by
  cases args <;> rfl

/-- Without the target in front nothing is dropped. -/
lemma planCall_other (other : ∀ self, args.head? = some self → target.isSame self = false) :
    planCall true c target group overloads args = planCall false c target group overloads args := by
  cases args with
  | nil => rfl
  | cons self args => simp [planCall, selectCall, listedArgs, other self rfl]

/-- What is accepted with the target kept is accepted where it may be dropped. -/
lemma isSome_selectCall (accepted : (select c overloads args target.object?).isSome = true) :
    (selectCall true c target overloads args).isSome = true := by
  cases args with
  | nil => exact accepted
  | cons self args =>
    by_cases same : target.isSame self = true
    · rw [selectCall_self same, Option.isSome_or, accepted, Bool.or_true]
    · simpa [selectCall, same] using accepted

end Calls

/-- A call that passes its target first comes to what the other arguments are resolved to, and
otherwise to what all of them are; it fails where both are refused. So it comes to what the call
without the target comes to. Dropping the target changes no other call, and every call that is
accepted without dropping it is accepted. -/
theorem colon_call_agrees (c : Coercer) (target : Target) (group : String)
    (overloads : List (Declared Method)) (args : List HostValue) :
    (∀ self, target.isSame self = true →
      (∀ inv, planCall true c target group overloads (self :: args) = .ok inv ↔
        ∃ found : Resolved, inv = found.through target group ∧
          (Chooses c overloads args target.object? found ∨
            Refuses c overloads args target.object? ∧
              Chooses c overloads (self :: args) target.object? found)) ∧
      (∀ e, planCall true c target group overloads (self :: args) = .error e ↔
        e = noMatchingOverload target.cls group args ∧
          Refuses c overloads args target.object? ∧
            Refuses c overloads (self :: args) target.object?) ∧
      ∀ inv, planCall false c target group overloads args = .ok inv →
        planCall true c target group overloads (self :: args) = .ok inv) ∧
    ((∀ self, args.head? = some self → target.isSame self = false) →
      planCall true c target group overloads args = planCall false c target group overloads args) ∧
    ∀ inv, planCall false c target group overloads args = .ok inv →
      ∃ inv', planCall true c target group overloads args = .ok inv' := by
  refine ⟨fun self same => ⟨fun inv => ?_, fun e => ?_, fun inv planned => ?_⟩, planCall_other,
    fun inv planned => ?_⟩
  · rw [planCall_eq_ok, selectCall_self same]
    refine exists_congr fun found => ?_
    rw [Option.or_eq_some_iff, select_iff, select_eq_none_iff, select_iff, and_comm]
  · rw [planCall_eq_error, selectCall_self same, Option.or_eq_none_iff, select_eq_none_iff,
      select_eq_none_iff, and_comm]
    simp [listedArgs, same]
  · obtain ⟨found, selected, rfl⟩ := planCall_eq_ok.1 planned
    rw [selectCall_plain] at selected
    refine planCall_eq_ok.2 ⟨found, ?_, rfl⟩
    rw [selectCall_self same, selected, Option.some_or]
  · obtain ⟨found, selected, rfl⟩ := planCall_eq_ok.1 planned
    rw [selectCall_plain] at selected
    obtain ⟨found', selected'⟩ := Option.isSome_iff_exists.1
      (isSome_selectCall (Option.isSome_iff_exists.2 ⟨found, selected⟩))
    exact ⟨_, planCall_eq_ok.2 ⟨found', selected', rfl⟩⟩

section Overlapping

def shape : HostType where
  identity := 40
  name := "Shape"
  ns := some "geometry"
  primitive := none
  members := {}
  typeParams := none
  home := "geometry.Shape"
  base := none
  nested := []
  typeArgs := []

/-- A disc, which is a shape. -/
def disc : HostObject where
  id := 1
  cls :=
    { shape with
      identity := 41
      name := "Disc"
      home := "geometry.Disc"
      base := some shape }

/-- Whether a shape overlaps another one. -/
def overlaps : Declared Method where
  owner := shape
  index := 0
  item :=
    { name := "overlaps"
      params := [⟨"other", .object "geometry.Shape", .input, none⟩]
      returns := some .bool
      isStatic := false
      hidden := false
      isExtension := false
      typeParams := 0
      label := "overlaps"
      body := .idle }

/-- The disc is asked whether it overlaps itself. -/
def withItself : Resolved :=
  ⟨overlaps, [], [.object disc], 2⟩

lemma refuses_overlaps {args : List HostValue}
    (rejected : bind (coerce 8 {}) overlaps.item args (some disc) = none) :
    Refuses (coerce 8 {}) [overlaps] args (some disc) := by
  refine ⟨fun m mem _ => ?_, fun m mem types closes => ?_⟩
  · rw [List.mem_singleton.1 mem, rejected]
  · rw [List.mem_singleton.1 mem] at closes
    cases closes.generic

/-- With the disc passed twice one is the receiver, and passed once it is the argument; passed three
times there is one too many. -/
theorem overlaps_with_itself :
    planCall true (coerce 8 {}) (.object disc) "overlaps" [overlaps] [.object disc, .object disc]
      = .ok (withItself.through (.object disc) "overlaps") ∧
    planCall true (coerce 8 {}) (.object disc) "overlaps" [overlaps] [.object disc]
      = .ok (withItself.through (.object disc) "overlaps") ∧
    planCall true (coerce 8 {}) (.object disc) "overlaps" [overlaps]
        [.object disc, .object disc, .object disc]
      = .error (noMatchingOverload disc.cls "overlaps" [.object disc, .object disc]) := by
  have same : (Target.object disc).isSame (.object disc) = true := rfl
  have calls (args : List HostValue) :=
    (colon_call_agrees (coerce 8 {}) (.object disc) "overlaps" [overlaps] args).1 _ same
  have chosen : Chooses (coerce 8 {}) [overlaps] [.object disc] (some disc) withItself :=
    select_iff.1 rfl
  refine ⟨?_, ?_, ?_⟩
  · exact ((calls [.object disc]).1 _).2 ⟨withItself, rfl, Or.inl chosen⟩
  · exact ((calls []).1 _).2 ⟨withItself, rfl, Or.inr ⟨refuses_overlaps rfl, chosen⟩⟩
  · exact ((calls [.object disc, .object disc]).2.1 _).2
      ⟨rfl, refuses_overlaps rfl, refuses_overlaps rfl⟩

end Overlapping

section Extensions

variable {c : Coercer} {m : Method} {className : String} {o : HostObject} {limit : Nat} {h : Heap}
  {args : List HostValue} {overloads : List (Declared Method)}

/-- An extension function for the class of an instance, which it takes by value or by reference. -/
structure Extends (m : Method) (className : String) (o : HostObject) : Prop where
  extended : Registry.extended? m = some className
  takes : ∀ p ∈ m.params.head?, p.takesArgument = true
  subtype : o.cls.isSubtypeOf className = true

/-- The same binding for more points. -/
def Binding.raise (points : Nat) (b : Binding) : Binding :=
  ⟨b.score + points, b.slots⟩

def Resolved.raise (points : Nat) (found : Resolved) : Resolved :=
  { found with score := found.score + points }

lemma best_raise (points : Nat) (offers : List Resolved) :
    best (offers.map (·.raise points)) = (best offers).map (·.raise points) := by
  induction offers with
  | nil => rfl
  | cons r rest ih =>
    rw [List.map_cons, best_cons, best_cons, ih]
    cases best rest with
    | none => rfl
    | some s =>
      simp only [Option.map_some, better, Resolved.raise, Nat.add_lt_add_iff_right]
      split <;> rfl

/-- As an argument the instance earns the two points of what is coerced, and is coerced to
itself. -/
lemma bind_extension (extends_ : Extends m className o) (args : List HostValue) :
    bind (coerce limit h) m (.object o :: args) none =
      (bind (coerce limit h) m args (some o)).map (·.raise 2) := by
  obtain ⟨extension, p, params, eq, kind⟩ := Registry.extended_eq_some extends_.extended
  have takes : p.takesArgument = true := extends_.takes p (by simp [eq])
  have coerced : coerce limit h (.object o) p.kind = .ok (.object o) := by
    rw [kind]
    simp [coerce, coerceAt, extends_.subtype]
  have called : bind (coerce limit h) m args (some o) =
      (bindParams (coerce limit h) params args).map (.behind 0 (.object o)) := by
    simp [bind, extension, eq]
  have static : bind (coerce limit h) m (.object o :: args) none =
      bindParams (coerce limit h) (p :: params) (.object o :: args) := by
    simp [bind, eq]
  have raised : Binding.raise 2 ∘ Binding.behind 0 (.object o) = .behind 2 (.object o) := by
    funext b
    simp [Binding.raise, Binding.behind, Nat.add_comm]
  rw [static, called, bindParams_given takes (by simp), coerced, Option.map_map, raised]
  rfl

lemma offer?_extension {n : Declared Method} (extends_ : Extends n.item className o)
    (args : List HostValue) :
    offer? (coerce limit h) (.object o :: args) none n =
      (offer? (coerce limit h) args (some o) n).map (·.raise 2) := by
  unfold offer?
  split
  · rw [bind_extension extends_, Option.map_map, Option.map_map]
    rfl
  · rfl

end Extensions

/-- An extension function binds arguments behind an instance of the class it extends as it binds
them when it is called on the instance, to the same slots and for two points more. So extension
functions are selected alike. -/
theorem extension_binds_alike {o : HostObject} (limit : Nat) (h : Heap) (args : List HostValue) :
    (∀ m className, Extends m className o →
      (∀ score slots, bind (coerce limit h) m args (some o) = some ⟨score, slots⟩ ↔
        bind (coerce limit h) m (.object o :: args) none = some ⟨score + 2, slots⟩) ∧
      ∀ b, bind (coerce limit h) m (.object o :: args) none = some b → 2 ≤ b.score) ∧
    ∀ overloads : List (Declared Method),
      (∀ n ∈ overloads, ∃ className, Extends n.item className o) →
      resolve (coerce limit h) overloads (.object o :: args) none =
        (resolve (coerce limit h) overloads args (some o)).map (·.raise 2) := by
  refine ⟨fun m className extends_ => ⟨fun score slots => ?_, fun b bound => ?_⟩,
    fun overloads all => ?_⟩
  · rw [bind_extension extends_, Option.map_eq_some_iff]
    constructor
    · intro bound
      exact ⟨_, bound, rfl⟩
    · rintro ⟨⟨score', slots'⟩, bound, raised⟩
      cases raised
      exact bound
  · rw [bind_extension extends_] at bound
    obtain ⟨b', -, rfl⟩ := Option.map_eq_some_iff.1 bound
    exact Nat.le_add_left 2 b'.score
  · have alike : ∀ n ∈ overloads, offer? (coerce limit h) (.object o :: args) none n =
        (offer? (coerce limit h) args (some o) n).map (·.raise 2) := by
      intro n mem
      obtain ⟨className, extends_⟩ := all n mem
      exact offer?_extension extends_ args
    rw [resolve_eq, resolve_eq, List.filterMap_congr alike, ← best_raise, List.map_filterMap]

section Drawing

/-- Draws a shape at a scale, through any number of points, and hands back a label. -/
def drawing : Method where
  name := "draw"
  params :=
    [⟨"shape", .object "geometry.Shape", .ref, none⟩, ⟨"scale", .f64, .input, some (.int 1)⟩,
      ⟨"label", .string, .out, none⟩, ⟨"points", .int .i64, .variadic, none⟩]
  returns := none
  isStatic := true
  hidden := false
  isExtension := true
  typeParams := 0
  label := "draw"
  body := .idle

/-- The disc takes the place of the shape, and no argument after it moves. -/
theorem drawing_either_way : Extends drawing "geometry.Shape" disc ∧
    bind (coerce 8 {}) drawing [.nil, .int 3, .int 4] (some disc)
      = some ⟨3, [.object disc, .int 1, .nil, .array [.int 3, .int 4]]⟩ ∧
    bind (coerce 8 {}) drawing [.object disc, .nil, .int 3, .int 4] none
      = some ⟨5, [.object disc, .int 1, .nil, .array [.int 3, .int 4]]⟩ ∧
    resolve (coerce 8 {}) [⟨shape, 0, drawing⟩] [.object disc, .nil, .int 3, .int 4] none =
      (resolve (coerce 8 {}) [⟨shape, 0, drawing⟩] [.nil, .int 3, .int 4] (some disc)).map
        (·.raise 2) := by
  have extends_ : Extends drawing "geometry.Shape" disc := ⟨rfl, by decide, rfl⟩
  have called : bind (coerce 8 {}) drawing [.nil, .int 3, .int 4] (some disc)
      = some ⟨3, [.object disc, .int 1, .nil, .array [.int 3, .int 4]]⟩ := rfl
  obtain ⟨binds, selects⟩ := extension_binds_alike (o := disc) 8 {} [.nil, .int 3, .int 4]
  refine ⟨extends_, called, ((binds _ _ extends_).1 3 _).1 called, selects _ fun n mem => ?_⟩
  rw [List.mem_singleton.1 mem]
  exact ⟨_, extends_⟩

end Drawing

end ScriptBridge.Bridge
