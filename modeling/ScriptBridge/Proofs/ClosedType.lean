import Mathlib.Tactic.Lemma
import ScriptBridge.Proofs.Closing

/-!
# What closed types stand for

Where the registered names are plain, two closed types are equal when they close the same open type
over arguments of the same short names, and closing gives the type that was made for the first
arguments of the same full names. Where short names tell the registered types apart, the arguments
are the very ones.
-/

namespace ScriptBridge.Registry

open ClosedName

/-- What one function tells apart no better than another is the same wherever the other is. -/
lemma map_eq_of_map_eq {α β γ : Type} {f : α → β} {g : α → γ} {xs ys : List α}
    (tells : ∀ x ∈ xs, ∀ y ∈ ys, f x = f y → g x = g y) (same : xs.map f = ys.map f) :
    xs.map g = ys.map g := by
  induction xs generalizing ys with
  | nil => rw [List.map_eq_nil_iff.1 same.symm]
  | cons x rest ih =>
    cases ys with
    | nil => cases same
    | cons y rest' =>
      obtain ⟨first, others⟩ := List.cons.inj same
      rw [List.map_cons, List.map_cons, tells x List.mem_cons_self y List.mem_cons_self first]
      congr 1
      exact ih (fun a mem b mem' => tells a (List.mem_cons_of_mem x mem) b
        (List.mem_cons_of_mem y mem')) others

lemma eq_of_map_eq {α β : Type} {f : α → β} {xs ys : List α}
    (tells : ∀ x ∈ xs, ∀ y ∈ ys, f x = f y → x = y) (same : xs.map f = ys.map f) : xs = ys := by
  simpa using map_eq_of_map_eq (g := id) tells same

/-- The types are pairwise the same definitions. -/
def SameDefinitions (args args' : List HostType) : Prop :=
  List.Forall₂ (fun a b => a.isSame b = true) args args'

lemma sameDefinitions_iff {args args' : List HostType} :
    SameDefinitions args args' ↔ args = args' := by
  simp only [SameDefinitions, HostType.isSame, beq_iff_eq, List.forall₂_eq_eq_eq]

variable {r r' : Registry} {calls : List Closing} {s t : HostType}

/-- As many known types whose names print alike, under a separator that starts with a comma, have
the same names. -/
lemma map_eq_of_applied {args args' : List HostType} {f : HostType → String}
    (wholes : ∀ t, Known r calls t → Whole (f t).toList) (known : ∀ a ∈ args, Known r calls a)
    (known' : ∀ a ∈ args', Known r calls a) (length : args.length = args'.length)
    {head separator : List Char}
    (same : applied head (',' :: separator) (args.map fun t => (f t).toList)
      = applied head (',' :: separator) (args'.map fun t => (f t).toList)) :
    args.map f = args'.map f := by
  have texts {args : List HostType} (known : ∀ a ∈ args, Known r calls a) :
      ∀ text ∈ args.map (fun t => (f t).toList), Whole text := by
    intro text printed
    obtain ⟨a, mem, rfl⟩ := List.mem_map.1 printed
    exact wholes a (known a mem)
  apply toList_map_inj
  apply args_eq_of_applied (texts known) (texts known') _ same
  rw [List.length_map, List.length_map, length]

namespace Tracked

/-- Calls for one open type have as many arguments. -/
lemma length_eq (tracked : Tracked r calls r') {call call' : Closing} (mem : call ∈ calls)
    (mem' : call' ∈ calls) (opened : call.opened = call'.opened) :
    call.args.length = call'.args.length := by
  rw [(closeProblem?_eq_none (tracked.valid call mem)).2, opened,
    (closeProblem?_eq_none (tracked.valid call' mem')).2]

/-- What made the result of a call is itself one of the calls, and of the same key. -/
lemma maker (tracked : Tracked r calls r') {call : Closing} (mem : call ∈ calls) :
    ∃ first ∈ calls, first.key = call.key ∧ first.closed = call.closed ∧
      call.closed = closedForm r.closer call.closed.identity first.opened first.args := by
  obtain ⟨first, found, made⟩ := tracked.made_of_mem mem
  exact ⟨first, List.mem_of_find?_eq_some found, eq_of_beq (List.find?_some found :), made⟩

/-- A known type is registered, or has the form that one of the calls made. -/
lemma known_cases (tracked : Tracked r calls r') (known : Known r calls t) :
    t ∈ r.types ∨ ∃ call ∈ calls, call.closed = t ∧
      t = closedForm r.closer t.identity call.opened call.args := by
  rcases known with registered | ⟨call, mem, rfl⟩
  · exact Or.inl registered
  · obtain ⟨first, mem', -, eq, form⟩ := tracked.maker mem
    exact Or.inr ⟨first, mem', eq, form⟩

variable (plain : ∀ t ∈ r.types, t.HasPlainName) (fills : r.closer.FillsIn)

include plain

include fills in
/-- A registered type has none of the names that closing makes. -/
lemma ne_closedForm (registered : t ∈ r.types) (identity : Nat) (u : HostType)
    (args : List HostType) :
    t.fullName ≠ (closedForm r.closer identity u args).fullName := by
  intro same
  apply not_plain_closedForm fills identity args (t := u)
  unfold HostType.HasPlainName
  rw [← same]
  exact plain t registered

/-- A name that was made by closing tells the open type, and what it has of the arguments. -/
lemma opened_eq (distinct : r.Distinct) (tracked : Tracked r calls r') {call call' : Closing}
    (mem : call ∈ calls) (mem' : call' ∈ calls) {separator : List Char}
    {texts texts' : List (List Char)}
    (same : applied call.opened.fullName.toList separator texts
      = applied call'.opened.fullName.toList separator texts') : call.opened = call'.opened := by
  have heads := head_eq_of_applied (plain _ (tracked.opened call mem))
    (plain _ (tracked.opened call' mem')) same
  exact distinct.names _ (tracked.opened call mem) _ (tracked.opened call' mem')
    (String.toList_inj.1 heads)

lemma eq_of_applied (distinct : r.Distinct) (tracked : Tracked r calls r') {call call' : Closing}
    (mem : call ∈ calls) (mem' : call' ∈ calls) {f : HostType → String}
    (wholes : ∀ t, Known r calls t → Whole (f t).toList) {separator : List Char}
    (same : applied call.opened.fullName.toList (',' :: separator)
        (call.args.map fun t => (f t).toList)
      = applied call'.opened.fullName.toList (',' :: separator)
        (call'.args.map fun t => (f t).toList)) :
    call.opened = call'.opened ∧ call.args.map f = call'.args.map f := by
  have opened := tracked.opened_eq plain distinct mem mem' same
  rw [opened] at same
  exact ⟨opened, map_eq_of_applied wholes (tracked.args call mem) (tracked.args call' mem')
    (tracked.length_eq mem mem' opened) same⟩

include fills in
/-- Among known types the full name gives away the short name. -/
lemma name_of_fullName (distinct : r.Distinct) (tracked : Tracked r calls r')
    (hs : Known r calls s) (ht : Known r calls t) (same : s.fullName = t.fullName) :
    s.name = t.name := by
  rcases tracked.known_cases hs with hs | ⟨call, mem, -, form⟩ <;>
    rcases tracked.known_cases ht with ht | ⟨call', mem', -, form'⟩
  · rw [distinct.names s hs t ht same]
  · rw [form'] at same
    exact absurd same (ne_closedForm plain fills hs _ _ _)
  · rw [form] at same
    exact absurd same.symm (ne_closedForm plain fills ht _ _ _)
  · have texts := congrArg String.toList same
    rw [form, form', closedForm_fullName fills, closedForm_fullName fills] at texts
    have opened := tracked.opened_eq plain distinct mem mem' texts
    rw [opened] at texts
    apply String.toList_inj.1
    rw [form, form', closedForm_name fills, closedForm_name fills, opened]
    exact congrArg (call'.opened.name.toList ++ ·) (List.append_cancel_left texts)

end Tracked

namespace History

variable (distinct : r.Distinct) (plain : ∀ t ∈ r.types, t.HasPlainName)
  (fills : r.closer.FillsIn)

include distinct plain fills

/-- The names of known types are whole, so they can go into further names. -/
lemma whole (h : History r calls r') (known : Known r calls t) :
    Whole t.name.toList ∧ Whole t.fullName.toList := by
  induction h generalizing t with
  | start =>
    rcases known with registered | ⟨call, mem, -⟩
    · exact ⟨(plain_name (plain t registered)).whole, (plain t registered).whole⟩
    · cases mem
  | @call calls r' r'' u closed args h opened args_known ok ih =>
    have tracked := h.tracked distinct fills
    rcases known.before_or_made with known | rfl
    · exact ih known
    · obtain ⟨valid, ⟨found, -⟩ | ⟨-, rfl, -⟩⟩ := close_cases ok
      · obtain ⟨first, found, eq, -⟩ := tracked.made _ _ (mem_of_find? found)
        exact ih (Or.inr ⟨first, List.mem_of_find?_eq_some found, eq⟩)
      · have registered := tracked.opened_mem fills opened (closeProblem?_eq_none valid).1
        have names : ∀ text ∈ args.map (·.name.toList), Whole text := by
          intro text printed
          obtain ⟨a, mem, rfl⟩ := List.mem_map.1 printed
          exact (ih (args_known a mem)).1
        have separator : Plain [' '] := by
          intro c mem
          rw [List.mem_singleton.1 mem]
          decide
        rw [tracked.closer, closedForm_name fills, closedForm_fullName fills]
        exact ⟨whole_applied (plain_name (plain u registered)) separator names,
          whole_applied (plain u registered) separator names⟩

/-- The key of a call tells its open type and the full names of its arguments. -/
lemma of_closedKey_eq (h : History r calls r') {call call' : Closing} (mem : call ∈ calls)
    (mem' : call' ∈ calls) (same : call.key = call'.key) :
    call.opened = call'.opened ∧ call.args.map (·.fullName) = call'.args.map (·.fullName) := by
  have texts := congrArg String.toList same
  unfold Closing.key at texts
  rw [closedKey_toList, closedKey_toList] at texts
  exact (h.tracked distinct fills).eq_of_applied plain distinct mem mem'
    (fun t known => (h.whole distinct plain fills known).2) texts

/-- The first call of a key has the open type of every other one, and arguments of the same
names. -/
lemma maker_args (h : History r calls r') {call first : Closing} (mem : call ∈ calls)
    (mem' : first ∈ calls) (key : first.key = call.key) :
    first.opened = call.opened ∧ first.args.map (·.fullName) = call.args.map (·.fullName) ∧
      first.args.map (·.name) = call.args.map (·.name) := by
  have tracked := h.tracked distinct fills
  obtain ⟨opened, fullNames⟩ := of_closedKey_eq distinct plain fills h mem' mem key
  exact ⟨opened, fullNames, map_eq_of_map_eq (fun a mem₁ a' mem₂ =>
    tracked.name_of_fullName plain fills distinct (tracked.args first mem' a mem₁)
      (tracked.args call mem a' mem₂)) fullNames⟩

/-- The name of the result of a call is made of the open type and the short names of the
arguments. -/
lemma closed_fullName (h : History r calls r') {call : Closing} (mem : call ∈ calls) :
    call.closed.fullName.toList
      = applied call.opened.fullName.toList [',', ' '] (call.args.map (·.name.toList)) := by
  obtain ⟨first, mem', key, -, form⟩ := (h.tracked distinct fills).maker mem
  obtain ⟨opened, -, names⟩ := h.maker_args distinct plain fills mem mem' key
  have texts : first.args.map (·.name.toList) = call.args.map (·.name.toList) := by
    simpa [Function.comp_def] using congrArg (List.map String.toList) names
  rw [form, closedForm_fullName fills, opened, texts]

lemma closed_fullName_eq_iff (h : History r calls r') {call call' : Closing} (mem : call ∈ calls)
    (mem' : call' ∈ calls) : call.closed.fullName = call'.closed.fullName ↔
      call.opened = call'.opened ∧ call.args.map (·.name) = call'.args.map (·.name) := by
  constructor
  · intro same
    have texts := congrArg String.toList same
    rw [h.closed_fullName distinct plain fills mem, h.closed_fullName distinct plain fills mem']
      at texts
    exact (h.tracked distinct fills).eq_of_applied plain distinct mem mem'
      (fun t known => (h.whole distinct plain fills known).1) texts
  · rintro ⟨opened, names⟩
    have texts : call.args.map (·.name.toList) = call'.args.map (·.name.toList) := by
      simpa [Function.comp_def] using congrArg (List.map String.toList) names
    apply String.toList_inj.1
    rw [h.closed_fullName distinct plain fills mem, h.closed_fullName distinct plain fills mem',
      opened, texts]

/-- A type that is made now has none of the short names known before, where those tell the types
known before apart. -/
lemma name_ne_of_made (short : r.HasDistinctShortNames) (h : History r calls r')
    (tell : ∀ {s t : HostType}, Known r calls s → Known r calls t → s.name = t.name → s = t)
    {u : HostType} {args : List HostType} (valid : closeProblem? u args = none)
    (registered : u ∈ r.types) (args_known : ∀ a ∈ args, Known r calls a)
    (missing : r'.closed.find? (closedKey u args) = none) (identity : Nat)
    (known : Known r calls t) : t.name ≠ (closedForm r.closer identity u args).name := by
  have tracked := h.tracked distinct fills
  intro same
  have texts := congrArg String.toList same
  rw [closedForm_name fills] at texts
  rcases tracked.known_cases known with old | ⟨call, mem, -, form⟩
  · have plain' := plain_name (plain t old)
    rw [texts] at plain'
    exact not_plain_applied plain'
  · rw [form, closedForm_name fills] at texts
    have heads := head_eq_of_applied (plain_name (plain _ (tracked.opened call mem)))
      (plain_name (plain u registered)) texts
    obtain rfl := short _ (tracked.opened call mem) u registered (String.toList_inj.1 heads)
    have length : call.args.length = args.length :=
      (closeProblem?_eq_none (tracked.valid call mem)).2.trans (closeProblem?_eq_none valid).2.symm
    have names : call.args.map (·.name) = args.map (·.name) :=
      map_eq_of_applied (fun t known => (h.whole distinct plain fills known).1)
        (tracked.args call mem) args_known length texts
    have same_args : call.args = args := eq_of_map_eq
      (fun a mem₁ b mem₂ => tell (tracked.args call mem a mem₁) (args_known b mem₂)) names
    have found := tracked.found call mem
    rw [Closing.key, same_args, missing] at found
    cases found

/-- Where short names tell the registered types apart, they tell all known types apart. -/
lemma eq_of_name (short : r.HasDistinctShortNames) (h : History r calls r')
    (hs : Known r calls s) (ht : Known r calls t) (same : s.name = t.name) : s = t := by
  induction h generalizing s t with
  | start =>
    rcases hs with hs | ⟨call, mem, -⟩
    · rcases ht with ht | ⟨call, mem, -⟩
      · exact short s hs t ht same
      · cases mem
    · cases mem
  | @call calls r' r'' u closed args h opened args_known ok ih =>
    have tracked := h.tracked distinct fills
    obtain ⟨valid, ⟨found, -⟩ | ⟨missing, rfl, -⟩⟩ := close_cases ok
    · -- nothing new is known
      obtain ⟨first, made, eq, -⟩ := tracked.made _ _ (mem_of_find? found)
      have before {t : HostType} (known : Known r (calls ++ [⟨u, args, closed⟩]) t) :
          Known r calls t := by
        rcases known.before_or_made with known | rfl
        · exact known
        · exact Or.inr ⟨first, List.mem_of_find?_eq_some made, eq⟩
      exact ih (before hs) (before ht) same
    · have fresh {t : HostType} (known : Known r calls t) :=
        h.name_ne_of_made distinct plain fills short ih valid
          (tracked.opened_mem fills opened (closeProblem?_eq_none valid).1) args_known missing
          r'.nextIdentity known
      rw [tracked.closer] at *
      rcases hs.before_or_made with hs | rfl <;> rcases ht.before_or_made with ht | rfl
      · exact ih hs ht same
      · exact absurd same (fresh hs)
      · exact absurd same.symm (fresh ht)
      · rfl

/-- Where short names tell the registered types apart, they tell argument lists apart. -/
lemma args_eq_of_name (short : r.HasDistinctShortNames) (h : History r calls r')
    {args args' : List HostType} (known : ∀ a ∈ args, Known r calls a)
    (known' : ∀ a ∈ args', Known r calls a) (same : args.map (·.name) = args'.map (·.name)) :
    args = args' :=
  eq_of_map_eq
    (fun a mem b mem' => h.eq_of_name distinct plain fills short (known a mem) (known' b mem'))
    same

/-- Two closed types are equal exactly when they close the same open type over arguments of the
same short names. That is when they close it over the same arguments, if short names tell the
registered types apart. -/
theorem equal_iff (h : History r calls r') {call call' : Closing} (mem : call ∈ calls)
    (mem' : call' ∈ calls) :
    (call.closed.equal call'.closed = true ↔ call.opened.isSame call'.opened = true ∧
      call.args.map (·.name) = call'.args.map (·.name)) ∧
    (r.HasDistinctShortNames →
      (call.closed.equal call'.closed = true ↔ call.opened.isSame call'.opened = true ∧
        SameDefinitions call.args call'.args)) := by
  have tracked := h.tracked distinct fills
  have equal : call.closed.equal call'.closed = true ↔
      call.closed.fullName = call'.closed.fullName := by
    constructor
    · intro equal
      rcases Bool.or_eq_true_iff.1 equal with same | same
      · rw [eq_of_beq same]
      · exact eq_of_beq same
    · intro same
      exact Bool.or_eq_true_iff.2 (Or.inr (beq_iff_eq.2 same))
  have opened : call.opened.isSame call'.opened = true ↔ call.opened = call'.opened :=
    beq_iff_eq
  rw [equal, opened, h.closed_fullName_eq_iff distinct plain fills mem mem']
  refine ⟨Iff.rfl, fun short => and_congr_right fun _ => ?_⟩
  rw [sameDefinitions_iff]
  constructor
  · exact h.args_eq_of_name distinct plain fills short (tracked.args call mem)
      (tracked.args call' mem')
  · rintro same
    rw [same]

/-- A call gives the same type at any later time: the one made by the first call of the same key,
which was for the same open type. It is what the open type makes of the arguments of that first
call, and these have the full names of the arguments of every other one. They are the arguments of
every other one, if short names tell the registered types apart. -/
theorem close_again (h : History r calls r') {call : Closing} (mem : call ∈ calls) :
    r'.close call.opened call.args = .ok (call.closed, r') ∧
    ∃ first, calls.find? (·.key == call.key) = some first ∧ first.opened = call.opened ∧
      call.closed = closedForm r.closer call.closed.identity call.opened first.args ∧
      call.closed.typeArgs = first.args ∧
      first.args.map (·.fullName) = call.args.map (·.fullName) ∧
      (r.HasDistinctShortNames → first.args = call.args) := by
  have tracked := h.tracked distinct fills
  obtain ⟨first, found, -, form⟩ := tracked.made_of_mem mem
  have mem' := List.mem_of_find?_eq_some found
  obtain ⟨opened, fullNames, names⟩ :=
    h.maker_args distinct plain fills mem mem' (eq_of_beq (List.find?_some found :))
  rw [opened] at form
  refine ⟨close_of_find? (tracked.valid call mem) (tracked.found call mem), first, found, opened,
    form, ?_, fullNames, fun short => ?_⟩
  · rw [form, closedForm_typeArgs fills]
  · exact h.args_eq_of_name distinct plain fills short (tracked.args first mem')
      (tracked.args call mem) names

end History

section Boxes

/-- A type without base class, nested types and methods. -/
def declare (identity : Nat) (ns : Option String) (name : String) (fields : List Field)
    (typeParams : Option (List String)) : HostType where
  identity := identity
  name := name
  ns := ns
  primitive := none
  members := { fields }
  typeParams := typeParams
  home := name
  base := none
  nested := []
  typeArgs := []

def content : Field where
  name := "content"
  kind := .placeholder 0
  isStatic := false
  isConstant := false
  hidden := false
  source := .accessor .plain
  set := some .plain

def box : HostType :=
  declare 20 none "Box" [] (some ["T"])

/-- Whatever is closed gets the content of a box. -/
def boxed : Closer :=
  .ofPatterns fun _ => declare 20 none "Box" [content] (some ["T"])

lemma known_all {r : Registry} {calls : List Closing} {t : HostType} (known : Known r calls t) :
    ∀ a ∈ [t], Known r calls a :=
  fun _ mem => List.mem_singleton.1 mem ▸ known

/-- Only boxes are registered. -/
def stock : Registry :=
  build [box] 21 boxed

lemma stock_types : stock.types = primitiveTypes ++ [box] := by
  unfold stock
  rw [build_types, visit_eq_self (by simp [box, declare])]
  rfl

lemma stock_distinct : stock.Distinct :=
  build_distinct _ _ _

lemma stock_plain : ∀ t ∈ stock.types, t.HasPlainName := by
  rw [stock_types]
  decide

lemma stock_fillsIn : stock.closer.FillsIn :=
  Closer.ofPatterns_fillsIn _

lemma stock_short : stock.HasDistinctShortNames := by
  unfold HasDistinctShortNames
  rw [stock_types]
  exact fun s hs t ht => List.inj_on_of_nodup_map (by decide) hs ht

def word : HostType :=
  .ofKind 4 "i32" (.int .i32) (some primitiveNamespace)

def wordBox : HostType :=
  closedForm boxed 21 box [word]

/-- A box of words, and a box of these. -/
def nestedBoxes : List Closing :=
  [⟨box, [word], wordBox⟩, ⟨box, [wordBox], closedForm boxed 22 box [wordBox]⟩]

lemma history_nestedBoxes : ∃ r', History stock nestedBoxes r' := by
  have known {calls : List Closing} {t : HostType} (mem : t ∈ primitiveTypes ++ [box]) :
      Known stock calls t :=
    Or.inl (stock_types ▸ mem)
  refine ⟨_, .call (.call .start (known ?_) (known_all (known ?_)) rfl) (known ?_)
    (known_all (Or.inr ⟨_, List.mem_cons_self, rfl⟩)) rfl⟩
  · exact List.mem_append_right _ List.mem_cons_self
  · exact List.mem_append_left _ (List.mem_of_getElem? (rfl : primitiveTypes[4]? = some word))
  · exact List.mem_append_right _ List.mem_cons_self

/-- A box of words is not equal to a box of boxes of words. -/
theorem wordBox_ne : ¬ wordBox.equal (closedForm boxed 22 box [wordBox]) = true := by
  obtain ⟨r', h⟩ := history_nestedBoxes
  intro equal
  obtain ⟨-, same⟩ := ((h.equal_iff stock_distinct stock_plain stock_fillsIn List.mem_cons_self
    (List.mem_cons_of_mem _ List.mem_cons_self)).2 stock_short).1 equal
  cases same with
  | cons same _ => cases same

/-- The box of words is given again, and it is one for words, with a content of their kind. -/
theorem wordBox_again : ∃ r', History stock nestedBoxes r' ∧
    r'.close box [word] = .ok (wordBox, r') ∧ wordBox.typeArgs = [word] ∧
    wordBox.members.fields.map (·.kind) = [.int .i32] := by
  obtain ⟨r', h⟩ := history_nestedBoxes
  obtain ⟨again, first, -, -, form, typeArgs, -, args⟩ :=
    h.close_again stock_distinct stock_plain stock_fillsIn List.mem_cons_self
  rw [args stock_short] at form typeArgs
  refine ⟨r', h, again, typeArgs, ?_⟩
  rw [show wordBox = _ from form]
  rfl

def item (identity : Nat) (ns : String) : HostType :=
  declare identity (some ns) "Item" [] none

/-- Types of one short name are registered for two namespaces. -/
def items : Registry :=
  build [box, item 21 "a", item 22 "b"] 23 boxed

lemma items_types : items.types = primitiveTypes ++ [box, item 21 "a", item 22 "b"] := by
  unfold items
  rw [build_types, visit_eq_self (by simp [box, item, declare])]
  rfl

lemma items_distinct : items.Distinct :=
  build_distinct _ _ _

def firstBox : HostType :=
  closedForm boxed 23 box [item 21 "a"]

def secondBox : HostType :=
  closedForm boxed 24 box [item 22 "b"]

/-- A box for each of the two, and a box for each of these: it was made for the first. -/
def itemBoxes : List Closing :=
  [⟨box, [item 21 "a"], firstBox⟩, ⟨box, [item 22 "b"], secondBox⟩,
    ⟨box, [firstBox], closedForm boxed 25 box [firstBox]⟩,
    ⟨box, [secondBox], closedForm boxed 25 box [firstBox]⟩]

lemma history_itemBoxes : ∃ r', History items itemBoxes r' := by
  have known {calls : List Closing} {t : HostType}
      (mem : t ∈ [box, item 21 "a", item 22 "b"]) : Known items calls t :=
    Or.inl (items_types ▸ List.mem_append_right primitiveTypes mem)
  refine ⟨_, .call (.call (.call (.call .start (known ?_) (known_all (known ?_)) rfl) (known ?_)
    (known_all (known ?_)) rfl) (known ?_) (known_all (Or.inr ⟨_, List.mem_cons_self, rfl⟩)) rfl)
    (known ?_) (known_all (Or.inr ⟨_, List.mem_cons_of_mem _ List.mem_cons_self, rfl⟩)) rfl⟩
  all_goals simp

/-- With one short name in two namespaces, equal types can be closed over different arguments. -/
theorem not_equal_iff_sameDefinitions : ¬ ∀ (r r' : Registry) (calls : List Closing),
    r.Distinct → History r calls r' → ∀ call ∈ calls, ∀ call' ∈ calls,
      (call.closed.equal call'.closed = true ↔ call.opened.isSame call'.opened = true ∧
        SameDefinitions call.args call'.args) := by
  intro equal_iff_same
  obtain ⟨r', h⟩ := history_itemBoxes
  have both := equal_iff_same items r' itemBoxes items_distinct h _ List.mem_cons_self _
    (List.mem_cons_of_mem _ List.mem_cons_self)
  have equal : firstBox.equal secondBox = true := by decide
  cases (both.1 equal).2 with
  | cons same _ => cases same

/-- With one short name in two namespaces, a call can give a type that was made for other
arguments. -/
theorem not_sameDefinitions_typeArgs : ¬ ∀ (r r' : Registry) (calls : List Closing),
    r.Distinct → History r calls r' → ∀ call ∈ calls,
      SameDefinitions call.closed.typeArgs call.args := by
  intro typeArgs_same
  obtain ⟨r', h⟩ := history_itemBoxes
  have same := typeArgs_same items r' itemBoxes items_distinct h
    ⟨box, [secondBox], closedForm boxed 25 box [firstBox]⟩ (by simp [itemBoxes])
  cases same with
  | cons same _ => cases same

end Boxes

end ScriptBridge.Registry
