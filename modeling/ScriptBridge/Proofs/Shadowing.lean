import ScriptBridge.Proofs.Declaration

/-!
# Shadowing of data members

Fields shadow the fields of base classes, and properties the properties. But a member table keeps
the two apart, and fields are looked up first. So a data member is found at the nearest class that
declares one, unless that class declares a property alone and a class that it derives from a field.
-/

namespace ScriptBridge

/-- The class declares a field or a property of that name. -/
def HostType.DeclaresData (isStatic : Bool) (name : String) (t : HostType) : Prop :=
  MemberKind.fields.declared isStatic name t ≠ [] ∨
    MemberKind.properties.declared isStatic name t ≠ []

/-- The member is a field or a property of that name which the class declares. -/
def Member.IsDataOf (isStatic : Bool) (name : String) (t : HostType) (m : Member) : Prop :=
  (∃ f ∈ MemberKind.fields.declared isStatic name t, m = .field f) ∨
    ∃ p ∈ MemberKind.properties.declared isStatic name t, m = .property p

/-- Under a name that may be exposed there is neither an event nor a method for a class. -/
structure Registry.OnlyData (r : Registry) (t : HostType) (isStatic : Bool) (name : String) :
    Prop where
  allowed : name ∉ denyList
  noEvent : MemberKind.events.along isStatic name t.chain = []
  noMethod : MemberKind.methods.along isStatic name t.chain = []
  noExtension : isStatic = false → r.extensionsAlong name t.chain = []

/-- Classes without a declaration in front make no difference. -/
lemma MemberKind.along_append {α : Type} (kind : MemberKind α) {isStatic : Bool} {name : String}
    {near : List HostType} (s : HostType) (far : List HostType)
    (nothing : ∀ u ∈ near, kind.declared isStatic name u = []) :
    kind.along isStatic name (near ++ s :: far) =
      kind.declared isStatic name s ++ kind.along isStatic name far := by
  rw [along, List.flatMap_append, List.flatMap_eq_nil_iff.2 nothing, List.nil_append,
    List.flatMap_cons]
  rfl

namespace Registry

variable {r : Registry} {t s : HostType} {isStatic : Bool} {name : String}
  {near far : List HostType}

/-- Where there is only data under a name, the first field is found, and without fields the first
property. -/
lemma OnlyData.lookup_eq (only : r.OnlyData t isStatic name) (made : r.Made) :
    (∀ f rest, MemberKind.fields.along isStatic name t.chain = f :: rest →
      ((r.metadata t).members isStatic).lookup name = some (.field f)) ∧
    ∀ p rest, MemberKind.fields.along isStatic name t.chain = [] →
      MemberKind.properties.along isStatic name t.chain = p :: rest →
      ((r.metadata t).members isStatic).lookup name = some (.property p) := by
  have noEvent := r.find?_events t isStatic name
  rw [if_neg only.allowed, only.noEvent, List.head?_nil] at noEvent
  have field := r.find?_fields t isStatic name
  rw [if_neg only.allowed] at field
  have property := r.find?_properties t isStatic name
  rw [if_neg only.allowed] at property
  have noMethod := made.methodGroup? t isStatic name
  rw [if_neg only.allowed, only.noMethod] at noMethod
  have none : (if isStatic then [] else r.extensionsAlong name t.chain) = [] := by
    split
    · rfl
    · rename_i instances
      exact only.noExtension (by simpa using instances)
  rw [none, MemberTable.methodGroup?] at noMethod
  constructor
  · intro f rest fields
    rw [fields] at field
    rw [MemberTable.lookup, noEvent, field]
    rfl
  · intro p rest fields properties
    rw [fields] at field
    rw [properties] at property
    rw [MemberTable.lookup, noEvent, field, noMethod, property]
    rfl

/-- Which data member is found. Let a class be the nearest one of the chain to declare a field or
property of a name under which there is only data. What is found is declared by that class just if
it declares a field or no class behind it does, and else it is the first field declared behind it,
though there is a property nearer. -/
theorem nearest_data_iff (made : r.Made) (only : r.OnlyData t isStatic name)
    (chain : t.chain = near ++ s :: far) (nothing : ∀ u ∈ near, ¬ u.DeclaresData isStatic name)
    (here : s.DeclaresData isStatic name) :
    ∃ m, ((r.metadata t).members isStatic).lookup name = some m ∧
      (m.IsDataOf isStatic name s ↔ MemberKind.fields.declared isStatic name s ≠ [] ∨
        ∀ u ∈ far, MemberKind.fields.declared isStatic name u = []) ∧
      (¬ m.IsDataOf isStatic name s →
        ∃ f, (MemberKind.fields.along isStatic name far).head? = some f ∧ m = .field f) := by
  obtain ⟨lookup_field, lookup_property⟩ := only.lookup_eq made
  have fields := MemberKind.fields.along_append s far
    fun u mem => not_ne_iff.1 (not_or.1 (nothing u mem)).1
  have properties := MemberKind.properties.along_append s far
    fun u mem => not_ne_iff.1 (not_or.1 (nothing u mem)).2
  rw [← chain] at fields properties
  cases own : MemberKind.fields.declared isStatic name s with
  | cons f rest =>
    rw [own, List.cons_append] at fields
    have data : (Member.field f).IsDataOf isStatic name s :=
      Or.inl ⟨f, own ▸ List.mem_cons_self, rfl⟩
    exact ⟨.field f, lookup_field f _ fields, iff_of_true data (Or.inl (List.cons_ne_nil f rest)),
      fun other => absurd data other⟩
  | nil =>
    rw [own, List.nil_append] at fields
    cases behind : MemberKind.fields.along isStatic name far with
    | nil =>
      have declared := here.resolve_left fun fields => fields own
      obtain ⟨p, rest, eq⟩ := List.exists_cons_of_ne_nil declared
      rw [eq, List.cons_append] at properties
      have data : (Member.property p).IsDataOf isStatic name s :=
        Or.inr ⟨p, eq ▸ List.mem_cons_self, rfl⟩
      exact ⟨.property p, lookup_property p _ (fields.trans behind) properties,
        iff_of_true data (Or.inr (List.flatMap_eq_nil_iff.1 behind)),
        fun other => absurd data other⟩
    | cons f rest =>
      have other : ¬ (Member.field f).IsDataOf isStatic name s := by
        rintro (⟨g, mem, -⟩ | ⟨p, -, same⟩)
        · rw [own] at mem
          cases mem
        · cases same
      refine ⟨.field f, lookup_field f rest (fields.trans behind), iff_of_false other ?_,
        fun _ => ⟨f, rfl, rfl⟩⟩
      rintro (own | nothing)
      · exact own rfl
      · cases behind.symm.trans (List.flatMap_eq_nil_iff.2 nothing)

section Bindery

def entitled : Property where
  name := "title"
  kind := .string
  isStatic := false
  hidden := false
  indexParams := []
  get := some .plain
  set := none

/-- A book whose title is computed, though books have one in a field. -/
def edition : HostType :=
  { volume 32 "lib" "Edition" [] [] with
    members := { properties := [entitled] }, base := some tome }

/-- An edition with nothing of its own. -/
def reprint : HostType :=
  { volume 33 "lib" "Reprint" [] [] with base := some edition }

def bindery : Registry :=
  build [tome, edition, reprint] 34

lemma bindery_types : bindery.types = primitiveTypes ++ [tome, edition, reprint] := by
  unfold bindery
  rw [build_types, visit_eq_self (by simp [tome, edition, reprint, volume])]
  rfl

lemma reprint_onlyData : bindery.OnlyData reprint false "title" where
  allowed := by decide
  noEvent := rfl
  noMethod := rfl
  noExtension _ := by
    unfold extensionsAlong extending
    rw [bindery_types]
    rfl

lemma edition_declaresData : edition.DeclaresData false "title" :=
  Or.inr (List.cons_ne_nil _ _)

lemma reprint_chain : reprint.chain = [reprint] ++ edition :: [tome] := rfl

lemma reprint_declaresNoData : ∀ u ∈ [reprint], ¬ u.DeclaresData false "title" := by
  rintro u (_ | ⟨_, ⟨⟩⟩) (declares | declares)
  · exact declares rfl
  · exact declares rfl

/-- Editions are the nearest class of reprints to declare a title. But what is found is the field of
books. -/
theorem reprint_title :
    ∃ m, ((bindery.metadata reprint).members false).lookup "title" = some m ∧
      ¬ m.IsDataOf false "title" edition ∧ m = .field ⟨tome, 0, title .any⟩ := by
  obtain ⟨m, found, near, farther⟩ := nearest_data_iff (.build [tome, edition, reprint] 34 .blank)
    reprint_onlyData reprint_chain reprint_declaresNoData edition_declaresData
  have behind : ¬ m.IsDataOf false "title" edition := by
    rw [near]
    rintro (own | nothing)
    · exact own rfl
    · cases nothing tome List.mem_cons_self
  obtain ⟨f, first, eq⟩ := farther behind
  cases first
  exact ⟨m, found, behind, eq⟩

/-- So the nearest declaration does not always shadow the others. -/
theorem not_always_nearest : ¬ ∀ (r : Registry) (t s : HostType) (isStatic : Bool) (name : String)
    (near far : List HostType), r.Made → r.OnlyData t isStatic name →
      t.chain = near ++ s :: far → (∀ u ∈ near, ¬ u.DeclaresData isStatic name) →
      s.DeclaresData isStatic name →
      ∃ m, ((r.metadata t).members isStatic).lookup name = some m ∧
        m.IsDataOf isStatic name s := by
  intro nearest
  have made : bindery.Made := .build [tome, edition, reprint] 34 .blank
  obtain ⟨m, found, data⟩ := nearest bindery reprint edition false "title" [reprint] [tome] made
    reprint_onlyData reprint_chain reprint_declaresNoData edition_declaresData
  cases found.symm.trans ((reprint_onlyData.lookup_eq made).1 ⟨tome, 0, title .any⟩ [] rfl)
  obtain ⟨f, mem, -⟩ | ⟨p, -, same⟩ := data
  · cases mem
  · cases same

end Bindery

end Registry

end ScriptBridge
