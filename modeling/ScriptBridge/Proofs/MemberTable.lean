import Mathlib.Tactic.Lemma
import ScriptBridge.Host.Registry

/-!
# What member tables contain

The tables of a type are filled class by class along its chain. What they answer is told here in
terms of the declarations of the chain alone: overloads under a name are all exposed ones in order,
other members are the first exposed one.
-/

namespace ScriptBridge

namespace Named

variable {α : Type}

lemma find?_cons (key : String) (item : α) (entries : Named α) (name : String) :
    find? ((key, item) :: entries) name = if name = key then some item else find? entries name := by
  unfold find?
  rw [List.lookup_cons]
  by_cases same : name = key
  · simp [same]
  · rw [if_neg same, beq_eq_false_iff_ne.2 same]

/-- An entry that comes last is found where no other one is. -/
lemma find?_append_singleton (entries : Named α) (key : String) (item : α) (name : String) :
    find? (entries ++ [(key, item)]) name =
      (entries.find? name).or (if name = key then some item else none) := by
  show (entries ++ [(key, item)]).lookup name = _
  rw [List.lookup_append]
  congr 1
  exact find?_cons key item [] name

lemma find?_insertNew (entries : Named α) (key : String) (item : α) (name : String) :
    (entries.insertNew key item).find? name =
      (entries.find? name).or (if name = key then some item else none) := by
  unfold insertNew
  split
  · rename_i taken
    by_cases same : name = key
    · rw [same, Option.or_of_isSome taken]
    · rw [if_neg same, Option.or_none]
  · exact find?_append_singleton entries key item name

lemma find?_adjoin (groups : Named (List α)) (key : String) (item : α) (name : String) :
    (groups.adjoin key item).find? name =
      if name = key then some ((groups.find? name).getD [] ++ [item]) else groups.find? name := by
  induction groups with
  | nil => exact find?_cons key [item] [] name
  | cons entry rest ih =>
    obtain ⟨other, items⟩ := entry
    rw [adjoin]
    by_cases here : other = key
    · rw [if_pos (by simp [here]), find?_cons, find?_cons, here]
      by_cases same : name = key <;> simp [same]
    · rw [if_neg (by simp [here]), find?_cons, find?_cons]
      by_cases same : name = other
      · have : name ≠ key := by
          rw [same]
          exact here
        simp [same, here]
      · rw [if_neg same, if_neg same, ih]

/-- No group is empty. -/
def NoneEmpty (groups : Named (List α)) : Prop :=
  ∀ name, groups.find? name ≠ some []

lemma NoneEmpty.adjoin {groups : Named (List α)} (noneEmpty : groups.NoneEmpty) (key : String)
    (item : α) : (groups.adjoin key item).NoneEmpty := by
  intro name
  rw [find?_adjoin]
  split
  · simp
  · exact noneEmpty name

lemma NoneEmpty.foldl_adjoin {key : α → String} {groups : Named (List α)}
    (noneEmpty : groups.NoneEmpty) (items : List α) :
    (items.foldl (fun groups a => groups.adjoin (key a) a) groups).NoneEmpty :=
  List.foldlRecOn items _ noneEmpty fun _ kept a _ => kept.adjoin (key a) a

/-- Of items inserted in order, the first one under a name is found. -/
lemma find?_foldl_insertNew {key : α → String} (items : List α) (entries : Named α)
    (name : String) :
    (items.foldl (fun entries a => entries.insertNew (key a) a) entries).find? name =
      (entries.find? name).or (items.find? (key · == name)) := by
  induction items generalizing entries with
  | nil => simp
  | cons a rest ih =>
    rw [List.foldl_cons, ih, find?_insertNew, List.find?_cons]
    cases entries.find? name with
    | some found => rfl
    | none =>
      by_cases same : name = key a
      · simp [same]
      · rw [if_neg same, beq_eq_false_iff_ne.2 (Ne.symm same)]
        rfl

/-- Of items joined to groups in order, all under a name are found. -/
lemma find?_foldl_adjoin {key : α → String} (items : List α) (groups : Named (List α))
    (name : String) :
    ((items.foldl (fun groups a => groups.adjoin (key a) a) groups).find? name).getD [] =
      (groups.find? name).getD [] ++ items.filter (key · == name) := by
  induction items generalizing groups with
  | nil => simp
  | cons a rest ih =>
    rw [List.foldl_cons, ih, find?_adjoin]
    by_cases same : name = key a
    · simp [same]
    · simp [same, Ne.symm same]

end Named

/-- The methods of a class that a table of its members takes. -/
def exposedMethods (isStatic : Bool) (t : HostType) : List (Declared Method) :=
  (Declared.all t t.members.methods).filter fun m =>
    m.item.isStatic == isStatic && isExposed m.item.name m.item.hidden

def exposedFields (isStatic : Bool) (t : HostType) : List (Declared Field) :=
  (Declared.all t t.members.fields).filter fun f =>
    f.item.isStatic == isStatic && isExposed f.item.name f.item.hidden

def exposedProperties (isStatic : Bool) (t : HostType) : List (Declared Property) :=
  (Declared.all t t.members.properties).filter fun p =>
    p.item.isStatic == isStatic && isExposed p.item.name p.item.hidden

def exposedEvents (isStatic : Bool) (t : HostType) : List (Declared Event) :=
  (Declared.all t t.members.events).filter fun e =>
    e.item.isStatic == isStatic && isExposed e.item.name e.item.hidden

/-- The exposed extension functions of every class of a chain. -/
def exposedExtensions (extensions : String → List (Declared Method)) (t : HostType) :
    List (Declared Method) :=
  t.chain.flatMap fun s => (extensions s.fullName).filter fun m =>
    isExposed m.item.name m.item.hidden

namespace MemberTable

variable (isStatic : Bool) (table : MemberTable) (t : HostType)

lemma foldl_addMethod (ms : List (Declared Method)) :
    ms.foldl addMethod table = { table with
      methods := ms.foldl (fun groups m => groups.adjoin m.item.name m) table.methods } := by
  induction ms generalizing table with
  | nil => rfl
  | cons m rest ih => rw [List.foldl_cons, ih, List.foldl_cons, addMethod]

lemma foldl_addField (fs : List (Declared Field)) :
    fs.foldl addField table = { table with
      fields := fs.foldl (fun entries f => entries.insertNew f.item.name f) table.fields } := by
  induction fs generalizing table with
  | nil => rfl
  | cons f rest ih => rw [List.foldl_cons, ih, List.foldl_cons, addField]

lemma foldl_addProperty (ps : List (Declared Property)) :
    ps.foldl addProperty table = { table with
      properties := ps.foldl (fun entries p => entries.insertNew p.item.name p)
        table.properties } := by
  induction ps generalizing table with
  | nil => rfl
  | cons p rest ih => rw [List.foldl_cons, ih, List.foldl_cons, addProperty]

lemma foldl_addEvent (es : List (Declared Event)) :
    es.foldl addEvent table = { table with
      events := es.foldl (fun entries e => entries.insertNew e.item.name e) table.events } := by
  induction es generalizing table with
  | nil => rfl
  | cons e rest ih => rw [List.foldl_cons, ih, List.foldl_cons, addEvent]

lemma foldl_addNested (ts : List HostType) :
    ts.foldl addNested table = { table with
      nested := ts.foldl (fun entries t => entries.insertNew t.name t) table.nested } := by
  induction ts generalizing table with
  | nil => rfl
  | cons t rest ih => rw [List.foldl_cons, ih, List.foldl_cons, addNested]

/-- What a class adds to a table, part by part. -/
lemma addClass_eq :
    table.addClass isStatic t =
      { methods := (exposedMethods isStatic t).foldl
          (fun groups m => groups.adjoin m.item.name m) table.methods
        fields := (exposedFields isStatic t).foldl
          (fun entries f => entries.insertNew f.item.name f) table.fields
        properties := (exposedProperties isStatic t).foldl
          (fun entries p => entries.insertNew p.item.name p) table.properties
        events := (exposedEvents isStatic t).foldl
          (fun entries e => entries.insertNew e.item.name e) table.events
        nested := if isStatic then
            t.nested.foldl (fun entries t => entries.insertNew t.name t) table.nested
          else table.nested } := by
  unfold addClass
  simp only [foldl_addMethod, foldl_addField, foldl_addProperty, foldl_addEvent, foldl_addNested]
  cases isStatic <;> rfl

/-- The overloads under a name, none where the name is no method. -/
def overloads (name : String) : List (Declared Method) :=
  (table.methodGroup? name).getD []

lemma overloads_foldl_addMethod (ms : List (Declared Method)) (name : String) :
    (ms.foldl addMethod table).overloads name =
      table.overloads name ++ ms.filter (·.item.name == name) := by
  rw [foldl_addMethod]
  exact Named.find?_foldl_adjoin ms table.methods name

variable (chain : List HostType) (name : String)

lemma overloads_foldl_addClass :
    (chain.foldl (addClass isStatic) table).overloads name =
      table.overloads name
        ++ (chain.flatMap (exposedMethods isStatic)).filter (·.item.name == name) := by
  induction chain generalizing table with
  | nil => simp
  | cons t rest ih =>
    have one : (table.addClass isStatic t).overloads name =
        table.overloads name ++ (exposedMethods isStatic t).filter (·.item.name == name) := by
      rw [addClass_eq]
      exact Named.find?_foldl_adjoin _ table.methods name
    rw [List.foldl_cons, ih, one, List.flatMap_cons, List.filter_append, List.append_assoc]

lemma field_foldl_addClass :
    (chain.foldl (addClass isStatic) table).fields.find? name =
      (table.fields.find? name).or
        ((chain.flatMap (exposedFields isStatic)).find? (·.item.name == name)) := by
  induction chain generalizing table with
  | nil => simp
  | cons t rest ih =>
    rw [List.foldl_cons, ih, addClass_eq, Named.find?_foldl_insertNew, List.flatMap_cons,
      List.find?_append, Option.or_assoc]

lemma property_foldl_addClass :
    (chain.foldl (addClass isStatic) table).properties.find? name =
      (table.properties.find? name).or
        ((chain.flatMap (exposedProperties isStatic)).find? (·.item.name == name)) := by
  induction chain generalizing table with
  | nil => simp
  | cons t rest ih =>
    rw [List.foldl_cons, ih, addClass_eq, Named.find?_foldl_insertNew, List.flatMap_cons,
      List.find?_append, Option.or_assoc]

lemma event_foldl_addClass :
    (chain.foldl (addClass isStatic) table).events.find? name =
      (table.events.find? name).or
        ((chain.flatMap (exposedEvents isStatic)).find? (·.item.name == name)) := by
  induction chain generalizing table with
  | nil => simp
  | cons t rest ih =>
    rw [List.foldl_cons, ih, addClass_eq, Named.find?_foldl_insertNew, List.flatMap_cons,
      List.find?_append, Option.or_assoc]

end MemberTable

namespace Metadata

variable (extensions : String → List (Declared Method)) (t : HostType) (isStatic : Bool)
  (name : String)

/-- Everything that a method name may resolve to, in order. -/
def candidates : List (Declared Method) :=
  t.chain.flatMap (exposedMethods isStatic) ++
    if isStatic then [] else exposedExtensions extensions t

theorem overloads_members :
    ((build extensions t).members isStatic).overloads name =
      (candidates extensions t isStatic).filter (·.item.name == name) := by
  unfold candidates
  cases isStatic with
  | true =>
    show (t.chain.foldl (MemberTable.addClass true) {}).overloads name = _
    rw [MemberTable.overloads_foldl_addClass, if_pos rfl, List.append_nil]
    rfl
  | false =>
    show ((exposedExtensions extensions t).foldl MemberTable.addMethod
      (t.chain.foldl (MemberTable.addClass false) {})).overloads name = _
    rw [MemberTable.overloads_foldl_addMethod, MemberTable.overloads_foldl_addClass,
      if_neg Bool.false_ne_true, List.filter_append]
    rfl

theorem field_members :
    ((build extensions t).members isStatic).fields.find? name =
      (t.chain.flatMap (exposedFields isStatic)).find? (·.item.name == name) := by
  cases isStatic with
  | true => exact MemberTable.field_foldl_addClass true {} t.chain name
  | false =>
    show ((exposedExtensions extensions t).foldl MemberTable.addMethod
      (t.chain.foldl (MemberTable.addClass false) {})).fields.find? name = _
    rw [MemberTable.foldl_addMethod]
    exact MemberTable.field_foldl_addClass false {} t.chain name

theorem property_members :
    ((build extensions t).members isStatic).properties.find? name =
      (t.chain.flatMap (exposedProperties isStatic)).find? (·.item.name == name) := by
  cases isStatic with
  | true => exact MemberTable.property_foldl_addClass true {} t.chain name
  | false =>
    show ((exposedExtensions extensions t).foldl MemberTable.addMethod
      (t.chain.foldl (MemberTable.addClass false) {})).properties.find? name = _
    rw [MemberTable.foldl_addMethod]
    exact MemberTable.property_foldl_addClass false {} t.chain name

theorem event_members :
    ((build extensions t).members isStatic).events.find? name =
      (t.chain.flatMap (exposedEvents isStatic)).find? (·.item.name == name) := by
  cases isStatic with
  | true => exact MemberTable.event_foldl_addClass true {} t.chain name
  | false =>
    show ((exposedExtensions extensions t).foldl MemberTable.addMethod
      (t.chain.foldl (MemberTable.addClass false) {})).events.find? name = _
    rw [MemberTable.foldl_addMethod]
    exact MemberTable.event_foldl_addClass false {} t.chain name

end Metadata

end ScriptBridge
