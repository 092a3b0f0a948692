import ScriptBridge.Proofs.Building
import ScriptBridge.Proofs.Redeclaration

/-!
# Declarations and member tables

A member table is filled declaration by declaration. What it comes to is told here without the
order of filling: by the declarations that are not hidden, class by class along the chain, for one
name and for instances or the static side.
-/

namespace ScriptBridge

/-- A kind of member: where classes list those that they declare, and what each one says of
itself. -/
structure MemberKind (α : Type) where
  listed : Members → List α
  name : α → String
  isStatic : α → Bool
  hidden : α → Bool

/-- Declarations of a name that are exposed: none where the name is denied, and else those that are
not hidden. -/
lemma filter_named {β : Type} (key : β → String) (hidden kept : β → Bool) (items : List β)
    (name : String) :
    (items.filter fun d => kept d && isExposed (key d) (hidden d)).filter (key · == name) =
      if name ∈ denyList then []
      else items.filter fun d => key d == name && kept d && !hidden d := by
  rw [List.filter_filter]
  split
  · rename_i denied
    refine List.filter_eq_nil_iff.2 fun d _ both => ?_
    simp only [isExposed, Bool.and_eq_true, beq_iff_eq, Bool.not_eq_true',
      List.contains_eq_mem, decide_eq_false_iff_not] at both
    exact both.2.2.2 (both.1 ▸ denied)
  · rename_i allowed
    refine List.filter_congr fun d _ => ?_
    by_cases same : key d = name
    · simp [isExposed, same, allowed]
    · simp [beq_eq_false_iff_ne.2 same]

namespace MemberKind

def methods : MemberKind Method :=
  ⟨Members.methods, Method.name, Method.isStatic, Method.hidden⟩

def fields : MemberKind Field :=
  ⟨Members.fields, Field.name, Field.isStatic, Field.hidden⟩

def properties : MemberKind Property :=
  ⟨Members.properties, Property.name, Property.isStatic, Property.hidden⟩

def events : MemberKind Event :=
  ⟨Members.events, Event.name, Event.isStatic, Event.hidden⟩

variable {α : Type} (kind : MemberKind α) (isStatic : Bool) (name : String)

/-- What a class declares under a name, for instances or as static members, in order and without
what is hidden. -/
def declared (t : HostType) : List (Declared α) :=
  (Declared.all t (kind.listed t.members)).filter fun d =>
    kind.name d.item == name && kind.isStatic d.item == isStatic && !kind.hidden d.item

/-- The same along a chain of classes. -/
def along (chain : List HostType) : List (Declared α) :=
  chain.flatMap (kind.declared isStatic name)

/-- What a member table takes of a class, whatever the names. -/
def exposed (t : HostType) : List (Declared α) :=
  (Declared.all t (kind.listed t.members)).filter fun d =>
    kind.isStatic d.item == isStatic && isExposed (kind.name d.item) (kind.hidden d.item)

/-- Of what a member table takes of a chain, that under a name. -/
lemma filter_exposed (chain : List HostType) :
    (chain.flatMap (kind.exposed isStatic)).filter (fun d => kind.name d.item == name) =
      if name ∈ denyList then [] else kind.along isStatic name chain := by
  have each (t : HostType) : (kind.exposed isStatic t).filter (fun d => kind.name d.item == name) =
      if name ∈ denyList then [] else kind.declared isStatic name t :=
    filter_named _ _ _ _ name
  rw [List.filter_flatMap, List.flatMap_congr fun t _ => each t]
  split
  · exact List.flatMap_eq_nil_iff.2 fun _ _ => rfl
  · rfl

/-- So the first one under a name is found. -/
lemma find?_exposed (chain : List HostType) :
    (chain.flatMap (kind.exposed isStatic)).find? (fun d => kind.name d.item == name) =
      if name ∈ denyList then none else (kind.along isStatic name chain).head? := by
  rw [← List.head?_filter, filter_exposed]
  split <;> rfl

end MemberKind

/-- Items as a group. There is no group of no items. -/
def group? {α : Type} (items : List α) : Option (List α) :=
  if items.isEmpty then none else some items

lemma Named.NoneEmpty.find?_eq {α : Type} {groups : Named (List α)} (noneEmpty : groups.NoneEmpty)
    (name : String) : groups.find? name = group? ((groups.find? name).getD []) := by
  cases found : groups.find? name with
  | none => rfl
  | some items =>
    have filled : items ≠ [] := fun empty => noneEmpty name (found.trans (congrArg some empty))
    rw [Option.getD_some, group?, if_neg (by simpa using filled)]

namespace MemberTable

variable (table : MemberTable) {name other : String} {names : List String}

section Names

lemma mem_insertName : other ∈ insertName name names ↔ other = name ∨ other ∈ names := by
  induction names with
  | nil => exact List.mem_cons
  | cons first rest ih =>
    unfold insertName
    split
    · rename_i same
      rw [eq_of_beq same, List.mem_cons, ← or_assoc, or_self]
    · split
      · exact List.mem_cons
      · rw [List.mem_cons, ih, List.mem_cons, or_left_comm]

/-- Inserting a name keeps names sorted, without repetitions. -/
lemma sorted_insertName (sorted : names.Pairwise (· < ·)) :
    (insertName name names).Pairwise (· < ·) := by
  induction names with
  | nil => exact List.pairwise_singleton _ _
  | cons first rest ih =>
    obtain ⟨least, others⟩ := List.pairwise_cons.1 sorted
    unfold insertName
    split
    · exact sorted
    · rename_i unequal
      split
      · rename_i before
        refine List.pairwise_cons.2 ⟨fun other mem => ?_, sorted⟩
        rcases List.mem_cons.1 mem with rfl | mem
        · exact before
        · exact String.lt_trans before (least other mem)
      · rename_i behind
        refine List.pairwise_cons.2 ⟨fun other mem => ?_, ih others⟩
        rcases mem_insertName.1 mem with rfl | mem
        · have differs : first ≠ other := fun same => unequal (beq_iff_eq.2 same.symm)
          exact Std.lt_of_le_of_ne (String.not_lt.1 behind) differs
        · exact least other mem

lemma sorted_memberNames : table.memberNames.Pairwise (· < ·) :=
  List.foldrRecOn _ _ List.Pairwise.nil fun _ sorted _ _ => sorted_insertName sorted

lemma mem_foldr_insertName : name ∈ names.foldr insertName [] ↔ name ∈ names := by
  induction names with
  | nil => rfl
  | cons first rest ih => rw [List.foldr_cons, mem_insertName, ih, List.mem_cons]

lemma mem_names {α : Type} {entries : Named α} :
    name ∈ entries.names ↔ ∃ item, entries.find? name = some item := by
  rw [Named.names, ← Option.isSome_iff_exists, Named.find?, List.lookup_isSome_iff]
  simp

/-- The names listed are those under which something is found. -/
lemma mem_memberNames : name ∈ table.memberNames ↔ ∃ member, table.lookup name = some member := by
  rw [memberNames, mem_foldr_insertName]
  simp only [List.mem_append, mem_names, lookup]
  cases table.events.find? name with
  | some e => simp
  | none => cases table.fields.find? name with
    | some f => simp
    | none => cases table.methods.find? name with
      | some overloads => simp
      | none => cases table.properties.find? name with
        | some p => simp
        | none => simp

end Names

/-- Groups are made of the methods put into them, so none is empty. -/
lemma noneEmpty_foldl_addMethod {table : MemberTable} (noneEmpty : table.methods.NoneEmpty)
    (ms : List (Declared Method)) : (ms.foldl addMethod table).methods.NoneEmpty := by
  rw [foldl_addMethod]
  exact noneEmpty.foldl_adjoin ms

lemma noneEmpty_foldl_addClass (isStatic : Bool) (chain : List HostType) :
    (chain.foldl (addClass isStatic) {}).methods.NoneEmpty := by
  refine List.foldlRecOn (motive := fun table : MemberTable => table.methods.NoneEmpty) chain _
    (fun name found => ?_) fun table noneEmpty t _ => ?_
  · cases found
  · rw [addClass_eq]
    exact noneEmpty.foldl_adjoin _

end MemberTable

namespace Metadata

variable (extensions : String → List (Declared Method)) (t : HostType) (isStatic : Bool)
  (name : String)

lemma noneEmpty_members : ((build extensions t).members isStatic).methods.NoneEmpty := by
  cases isStatic with
  | true => exact MemberTable.noneEmpty_foldl_addClass true t.chain
  | false =>
    have own := MemberTable.noneEmpty_foldl_addClass false t.chain
    exact MemberTable.noneEmpty_foldl_addMethod own _

/-- Of the extension functions that a member table takes for a chain, those under a name. -/
lemma filter_exposedExtensions :
    (exposedExtensions extensions t).filter (·.item.name == name) =
      if name ∈ denyList then []
      else t.chain.flatMap fun s => (extensions s.fullName).filter fun m =>
        m.item.name == name && !m.item.hidden := by
  have each (s : HostType) : ((extensions s.fullName).filter fun m =>
      isExposed m.item.name m.item.hidden).filter (·.item.name == name) =
      if name ∈ denyList then []
      else (extensions s.fullName).filter fun m => m.item.name == name && !m.item.hidden := by
    have taken := filter_named (fun m => m.item.name) (fun m => m.item.hidden) (fun _ => true)
      (extensions s.fullName) name
    simpa only [Bool.true_and, Bool.and_true] using taken
  rw [exposedExtensions, List.filter_flatMap, List.flatMap_congr fun s _ => each s]
  split
  · exact List.flatMap_eq_nil_iff.2 fun _ _ => rfl
  · rfl

/-- The group of a method name, out of the declarations. -/
lemma methodGroup?_members :
    ((build extensions t).members isStatic).methodGroup? name =
      if name ∈ denyList then none
      else group? (MemberKind.methods.along isStatic name t.chain ++
        if isStatic then [] else t.chain.flatMap fun s => (extensions s.fullName).filter fun m =>
          m.item.name == name && !m.item.hidden) := by
  have own : (t.chain.flatMap (exposedMethods isStatic)).filter (·.item.name == name) =
      if name ∈ denyList then [] else MemberKind.methods.along isStatic name t.chain :=
    MemberKind.methods.filter_exposed isStatic name t.chain
  have all := overloads_members extensions t isStatic name
  rw [MemberTable.overloads, MemberTable.methodGroup?, candidates, List.filter_append, own] at all
  rw [MemberTable.methodGroup?, (noneEmpty_members extensions t isStatic).find?_eq, all]
  cases isStatic with
  | true =>
    split <;> rfl
  | false =>
    rw [if_neg Bool.false_ne_true, if_neg Bool.false_ne_true, filter_exposedExtensions]
    split <;> rfl

end Metadata

namespace Registry

variable {r : Registry} {name : String}

/-- The extension functions of a registry under a name that are not hidden: those for the first
class of a chain, then those for the second one, and so on. -/
def extensionsAlong (r : Registry) (name : String) (chain : List HostType) :
    List (Declared Method) :=
  chain.flatMap fun s =>
    (r.extending s.fullName).filter fun m => m.item.name == name && !m.item.hidden

/-- Neither asking for members nor closing a type changes the registered types and their extension
functions. -/
lemma Made.collected (made : r.Made) : r.extensions = r.types.flatMap extensionsOf := by
  induction made with
  | build registered nextIdentity closer => rfl
  | remember _ t ih => simpa using ih
  | close _ ok ih =>
    obtain ⟨-, ⟨-, rfl⟩ | ⟨-, -, rfl⟩⟩ := close_cases ok
    · exact ih
    · exact ih

lemma Made.methodGroup? (made : r.Made) (t : HostType) (isStatic : Bool) (name : String) :
    ((r.metadata t).members isStatic).methodGroup? name =
      if name ∈ denyList then none
      else group? (MemberKind.methods.along isStatic name t.chain ++
        if isStatic then [] else r.extensionsAlong name t.chain) := by
  rw [r.metadata_eq, Metadata.methodGroup?_members]
  simp only [extensionsFor_eq made.collected, extensionsAlong]

section Found

variable (r : Registry) (t : HostType) (isStatic : Bool) (name : String)

lemma find?_fields : ((r.metadata t).members isStatic).fields.find? name =
    if name ∈ denyList then none else (MemberKind.fields.along isStatic name t.chain).head? := by
  rw [r.metadata_eq, Metadata.field_members]
  exact MemberKind.fields.find?_exposed isStatic name t.chain

lemma find?_properties : ((r.metadata t).members isStatic).properties.find? name =
    if name ∈ denyList then none
    else (MemberKind.properties.along isStatic name t.chain).head? := by
  rw [r.metadata_eq, Metadata.property_members]
  exact MemberKind.properties.find?_exposed isStatic name t.chain

lemma find?_events : ((r.metadata t).members isStatic).events.find? name =
    if name ∈ denyList then none else (MemberKind.events.along isStatic name t.chain).head? := by
  rw [r.metadata_eq, Metadata.event_members]
  exact MemberKind.events.find?_exposed isStatic name t.chain

end Found

/-- Member tables by the declarations alone. Under a name that is not denied, the group of methods
is made of those that the classes of the chain declare, class by class and in order, and for
instances of the extension functions for these classes behind them; there is a group where there is
anything in it. The field, property and event are the first ones declared. A denied name has none of
these. The names of the members are sorted, each is listed once, and they are those under which
something is found. -/
theorem members_declared (made : r.Made) (t : HostType) (isStatic : Bool) :
    let table := (r.metadata t).members isStatic
    (∀ name, name ∉ denyList →
      table.methodGroup? name = group? (MemberKind.methods.along isStatic name t.chain ++
          if isStatic then [] else r.extensionsAlong name t.chain) ∧
        table.fields.find? name = (MemberKind.fields.along isStatic name t.chain).head? ∧
        table.properties.find? name = (MemberKind.properties.along isStatic name t.chain).head? ∧
        table.events.find? name = (MemberKind.events.along isStatic name t.chain).head?) ∧
    (∀ name, name ∈ denyList →
      table.methodGroup? name = none ∧ table.fields.find? name = none ∧
        table.properties.find? name = none ∧ table.events.find? name = none) ∧
    table.memberNames.Pairwise (· < ·) ∧
    ∀ name, name ∈ table.memberNames ↔ ∃ member, table.lookup name = some member := by
  intro table
  refine ⟨fun name allowed => ?_, fun name denied => ?_, table.sorted_memberNames,
    fun name => table.mem_memberNames⟩
  · rw [made.methodGroup?, find?_fields, find?_properties, find?_events]
    simp only [if_neg allowed, and_self]
  · rw [made.methodGroup?, find?_fields, find?_properties, find?_events]
    simp only [if_pos denied, and_self]

section Desk

def reading (name : String) (hidden : Bool) : Method :=
  { handling name with params := [], isStatic := false, isExtension := false, hidden := hidden }

def title (kind : Kind) : Field where
  name := "title"
  kind := kind
  isStatic := false
  isConstant := false
  hidden := false
  source := .accessor .plain
  set := none

def tome : HostType :=
  { volume 30 "lib" "Book" [] [] with
    members :=
      { methods := [reading "tear" false, reading "clone" false], fields := [title .any] } }

/-- A book with a title of its own, which is torn in its own way and in a hidden one. -/
def atlas : HostType :=
  { volume 31 "lib" "Atlas" [] [] with
    members :=
      { methods := [reading "tear" true, reading "tear" false], fields := [title .string] }
    base := some tome }

/-- Books and atlases, and sheets, which extend books. -/
def desk : Registry :=
  build [tome, atlas, sheet] 32

lemma desk_types : desk.types = primitiveTypes ++ [tome, atlas, sheet] := by
  unfold desk
  rw [build_types, visit_eq_self (by simp [tome, atlas, sheet, volume])]
  rfl

/-- The ways to tear an atlas: its own, that of books and that of sheets. -/
def tears : List (Declared Method) :=
  [⟨atlas, 1, reading "tear" false⟩, ⟨tome, 0, reading "tear" false⟩, ⟨sheet, 0, handling "tear"⟩]

/-- An atlas is torn in these ways, in this order. It has its own title, and no clone. -/
theorem atlas_declared :
    let table := (desk.metadata atlas).members false
    table.methodGroup? "tear" = some tears ∧
      table.fields.find? "title" = some ⟨atlas, 0, title .string⟩ ∧
      table.methodGroup? "clone" = none ∧
      "tear" ∈ table.memberNames := by
  intro table
  obtain ⟨allowed, denied, -, listed⟩ :=
    members_declared (.build [tome, atlas, sheet] 32 .blank) atlas false
  obtain ⟨tear, noField, -, noEvent⟩ := allowed "tear" (by decide)
  obtain ⟨-, title, -⟩ := allowed "title" (by decide)
  obtain ⟨clone, -⟩ := denied "clone" (by decide)
  have extensions : (build [tome, atlas, sheet] 32).extensionsAlong "tear" atlas.chain =
      [⟨sheet, 0, handling "tear"⟩] := by
    unfold extensionsAlong Registry.extending
    rw [show (build [tome, atlas, sheet] 32).types = _ from desk_types]
    rfl
  rw [extensions] at tear
  refine ⟨tear, title, clone, (listed "tear").2 ⟨.methods "tear" tears, ?_⟩⟩
  rw [MemberTable.lookup, noEvent, noField, ← MemberTable.methodGroup?, tear]
  rfl

end Desk

end Registry

end ScriptBridge
