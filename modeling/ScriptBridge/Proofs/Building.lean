import Mathlib.Logic.Function.Iterate
import ScriptBridge.Proofs.Closing

/-!
# Building a registry

A registry is built of registered types and of all that is nested in them. A worklist goes through
them, and what it comes to is the preorder of the trees that they are. Of several types with one
full name the last one visited is kept, where the first one stood. Extension functions are looked
for in the types that are kept.
-/

namespace ScriptBridge

/-- A type, followed by the types nested in it, each with those nested in it. -/
def HostType.preorder (t : HostType) : List HostType :=
  t :: t.nested.attach.flatMap fun s => s.1.preorder
termination_by sizeOf t
decreasing_by
  exact Nat.lt_trans (List.sizeOf_lt_of_mem s.2) (Registry.sizeOf_nested_lt t)

lemma HostType.preorder_eq (t : HostType) : t.preorder = t :: t.nested.flatMap preorder := by
  conv_rhs => rw [← List.attach_map_subtype_val t.nested, List.flatMap_map]
  rw [preorder]

/-- An extension function for instances of the named class: its first parameter is one. -/
def Method.extends (m : Method) (fullName : String) : Bool :=
  m.isExtension && m.params.head?.map (·.kind) == some (.object fullName)

namespace Registry

/-- One round of the worklist: the type on top of the pending ones is visited, and the types nested
in it take its place. -/
def round : List HostType × List HostType → List HostType × List HostType
  | (visited, []) => (visited, [])
  | (visited, t :: pending) => (visited ++ [t], t.nested ++ pending)

/-- The extension functions that the types of a registry declare for the named class. -/
def extending (r : Registry) (fullName : String) : List (Declared Method) :=
  r.types.flatMap fun t =>
    (Declared.all t t.members.methods).filter fun m => m.item.extends fullName

section Worklist

/-- Visiting the types on top before the others is going through trees in preorder. -/
theorem visit_eq_preorder (pending : List HostType) :
    visit pending = pending.flatMap HostType.preorder := by
  induction pending using visit.induct with
  | case1 => rw [visit, List.flatMap_nil]
  | case2 t pending ih =>
    rw [visit, ih, List.flatMap_append, List.flatMap_cons, t.preorder_eq, List.cons_append]

/-- As many rounds as there are types to visit empty the worklist, and no fewer. -/
lemma round_iterate (visited pending : List HostType) :
    (∀ n < (visit pending).length, (round^[n] (visited, pending)).2 ≠ []) ∧
      round^[(visit pending).length] (visited, pending) = (visited ++ visit pending, []) := by
  induction pending using visit.induct generalizing visited with
  | case1 =>
    rw [visit]
    exact ⟨fun n lt => absurd lt (Nat.not_lt_zero n), by simp⟩
  | case2 t pending ih =>
    obtain ⟨before, after⟩ := ih (visited ++ [t])
    rw [visit, List.length_cons]
    constructor
    · intro n lt
      cases n with
      | zero => exact List.cons_ne_nil t pending
      | succ n =>
        rw [Function.iterate_succ_apply]
        exact before n (Nat.lt_of_succ_lt_succ lt)
    · rw [Function.iterate_succ_apply, List.append_cons]
      exact after

/-- So the worklist ends, and it went through the pending types in preorder. -/
theorem worklist_ends (visited pending : List HostType) :
    ∃ rounds, (∀ n < rounds, (round^[n] (visited, pending)).2 ≠ []) ∧
      round^[rounds] (visited, pending) = (visited ++ pending.flatMap HostType.preorder, []) :=
  ⟨_, visit_eq_preorder pending ▸ round_iterate visited pending⟩

end Worklist

section Found

variable {r : Registry} {t : HostType} {name : String}

/-- Where full names tell types apart, a type is found under its full name and nothing else is. -/
lemma descriptor?_eq_some_iff (nodup : (r.types.map (·.fullName)).Nodup) :
    r.descriptor? name = some t ↔ t ∈ r.types ∧ t.fullName = name := by
  have named {s : HostType} {name : String} (found : r.descriptor? name = some s) :
      s ∈ r.types ∧ s.fullName = name := by
    have same := List.find?_some found
    exact ⟨List.mem_of_find?_eq_some found, eq_of_beq same⟩
  refine ⟨named, ?_⟩
  rintro ⟨listed, rfl⟩
  obtain ⟨s, found⟩ : ∃ s, r.descriptor? t.fullName = some s :=
    Option.isSome_iff_exists.1 (List.find?_isSome.2 ⟨t, listed, beq_self_eq_true t.fullName⟩)
  obtain ⟨among, same⟩ := named found
  rwa [List.inj_on_of_nodup_map nodup among listed same] at found

lemma extended?_eq_some {m : Method} : extended? m = some name ↔ m.extends name = true := by
  unfold extended? Method.extends
  cases m.isExtension with
  | false => simp
  | true =>
    cases m.params with
    | nil => simp
    | cons p rest =>
      obtain ⟨_, kind, _, _⟩ := p
      cases kind <;> simp

/-- The extension functions that were collected for a class are those declared for it. -/
lemma extensionsFor_eq (collected : r.extensions = r.types.flatMap extensionsOf) (name : String) :
    r.extensionsFor name = r.extending name := by
  rw [extensionsFor, extensionsAmong, collected, List.filterMap_flatMap]
  refine List.flatMap_congr fun t _ => ?_
  rw [extensionsOf, List.filterMap_filterMap, ← List.filterMap_eq_filter]
  refine List.filterMap_congr fun m _ => ?_
  by_cases own : m.item.extends name = true
  · simp [extended?_eq_some.2 own, own, Option.guard]
  · have other : extended? m.item ≠ some name := fun eq => own (extended?_eq_some.1 eq)
    cases target : extended? m.item with
    | none => simp [own, Option.guard]
    | some found =>
      have differs : found ≠ name := fun same => other (same ▸ target)
      simp [own, differs, Option.guard]

end Found

/-- Building a registry. The worklist of registered and nested types ends, and it visits them in
preorder, behind the primitive ones. Every full name that came up is listed once, in the order of
the first types of these names, with the last type of that name. The positions that the catalog
kept of the names lead to that type, and so does a search for the name; for other names there is
none. The types of a namespace and the extension functions for a class are those of the listed
types, in order. -/
theorem build_spec (registered : List HostType) (nextIdentity : Nat) :
    let visited := primitiveTypes ++ registered.flatMap HostType.preorder
    let r := build registered nextIdentity
    visited = primitiveTypes ++ visit registered ∧
    (∃ rounds, (∀ n < rounds, (round^[n] (primitiveTypes, registered)).2 ≠ []) ∧
      round^[rounds] (primitiveTypes, registered) = (visited, [])) ∧
    r.types.map (·.fullName) = (visited.map (·.fullName)).eraseDups ∧
    (r.types.map (·.fullName)).Nodup ∧
    (∀ t ∈ r.types, (visited.filter (·.fullName == t.fullName)).getLast? = some t) ∧
    (∀ name t, r.descriptor? name = some t ↔ t ∈ r.types ∧ t.fullName = name) ∧
    (∀ name, (∃ t, r.descriptor? name = some t) ↔ ∃ t ∈ visited, t.fullName = name) ∧
    (∀ name, ((catalog registered).positions.find? name).bind (fun i => r.types[i]?) =
      r.descriptor? name) ∧
    (∀ ns, (r.inNamespace ns).Sublist r.types ∧
      ∀ t, t ∈ r.inNamespace ns ↔ t ∈ r.types ∧ t.ns = some ns) ∧
    ∀ name, r.extensionsFor name = r.extending name := by
  intro visited r
  have order : visited = primitiveTypes ++ visit registered := by
    rw [visit_eq_preorder]
  have lists : (catalog registered).Lists visited := order ▸ catalog_lists registered
  have found (name : String) (t : HostType) : r.descriptor? name = some t ↔
      t ∈ r.types ∧ t.fullName = name :=
    descriptor?_eq_some_iff lists.indexed.nodup
  refine ⟨order, worklist_ends primitiveTypes registered, lists.names, lists.indexed.nodup,
    lists.last, found, fun name => ?_, fun name => ?_, fun ns => ?_, extensionsFor_eq rfl⟩
  · rw [← lists.mem_names, Catalog.names, List.mem_map]
    exact exists_congr fun t => found name t
  · ext t
    rw [found]
    exact lists.indexed.find?_bind_eq_some
  · refine ⟨List.filter_sublist, fun t => ?_⟩
    rw [inNamespace, List.mem_filter, beq_iff_eq]

section Library

/-- A class of a library, with its methods and what is nested in it. -/
def volume (identity : Nat) (ns name : String) (methods : List Method)
    (nested : List HostType) : HostType where
  identity := identity
  name := name
  ns := some ns
  primitive := none
  members := { methods := methods }
  typeParams := none
  home := ns ++ "." ++ name
  base := none
  nested := nested
  typeArgs := []

/-- An extension function for books. -/
def handling (name : String) : Method where
  name := name
  params := [⟨"book", .object "lib.Book", .input, none⟩]
  returns := none
  isStatic := true
  hidden := false
  isExtension := true
  typeParams := 0
  label := name
  body := .idle

def page : HostType :=
  volume 20 "lib" "Page" [handling "turn"] []

def book : HostType :=
  volume 21 "lib" "Book" [] [page]

/-- A class under the name of a primitive type. -/
def count : HostType :=
  volume 22 "prim" "i32" [] []

def shelf : HostType :=
  volume 23 "lib" "Shelf" [] [book, count]

/-- Another class of pages. -/
def sheet : HostType :=
  volume 24 "lib" "Page" [handling "tear"] []

lemma visited_library :
    [shelf, sheet].flatMap HostType.preorder = [shelf, book, page, count, sheet] := by
  simp [HostType.preorder_eq, shelf, book, page, count, sheet, volume]

lemma library_types :
    (build [shelf, sheet] 25).types =
      primitiveTypes.set 4 count ++ [shelf, book, sheet] := by
  rw [build_types, visit_eq_preorder, visited_library]
  rfl

/-- In a library of shelves and sheets, pages are sheets, but listed where the pages of books came
up first, and an i32 is the class nested in shelves, but listed where the primitive one is. Books
can be torn, and not turned. -/
theorem library_built :
    let library := build [shelf, sheet] 25
    library.types.map (·.fullName) = primitiveTypes.map (·.fullName) ++
        ["lib.Shelf", "lib.Book", "lib.Page"] ∧
      library.descriptor? "lib.Page" = some sheet ∧
      library.descriptor? "prim.i32" = some count ∧
      library.extensionsFor "lib.Book" = [⟨sheet, 0, handling "tear"⟩] := by
  intro library
  obtain ⟨-, -, names, -, last, found, known, -, -, extensions⟩ := build_spec [shelf, sheet] 25
  rw [visited_library] at names last known
  -- The last type visited under a name is the one that is found.
  have kept {name : String} {t : HostType}
      (eq : ((primitiveTypes ++ [shelf, book, page, count, sheet]).filter
        (·.fullName == name)).getLast? = some t) : library.descriptor? name = some t := by
    obtain ⟨visited, same⟩ := List.mem_filter.1 (List.mem_of_getLast? eq)
    obtain ⟨s, here⟩ := (known name).2 ⟨t, visited, eq_of_beq same⟩
    obtain ⟨listed, rfl⟩ := (found name s).1 here
    rwa [← Option.some.inj ((last s listed).symm.trans eq)]
  refine ⟨names.trans ?_, kept rfl, kept rfl, ?_⟩
  · decide
  · rw [extensions, extending, library_types]
    rfl

end Library

end Registry

end ScriptBridge
