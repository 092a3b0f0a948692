import Mathlib.Data.List.Nodup
import Mathlib.Tactic.Lemma
import ScriptBridge.Proofs.Catalog
import ScriptBridge.Proofs.ClosedName

/-!
# Closing generic types

A registry keeps the closed types under keys made of full names, and a closed type is named by the
short names of its arguments. Over any sequence of calls it is told here which call made the type
that a later one is given: the first one of the same key.
-/

namespace ScriptBridge

open ClosedName

/-- There are no brackets and no commas in the full name. -/
def HostType.HasPlainName (t : HostType) : Prop :=
  Plain t.fullName.toList

instance : DecidablePred HostType.HasPlainName :=
  fun t => inferInstanceAs (Decidable (Plain t.fullName.toList))

namespace Closer

/-- Open types settle no more of their closed forms than members and nested types. -/
def FillsIn (closer : Closer) : Prop :=
  ∀ t draft args, ∃ members nested, closer t draft args = { draft with members, nested }

lemma ofPatterns_fillsIn (pattern : HostType → HostType) : FillsIn (ofPatterns pattern) :=
  fun _ _ _ => ⟨_, _, rfl⟩

end Closer

namespace Registry

/-- Nothing was closed yet, and full names tell the types apart. -/
structure Distinct (r : Registry) : Prop where
  unused : r.closed = []
  names : ∀ s ∈ r.types, ∀ t ∈ r.types, s.fullName = t.fullName → s = t

/-- Types of different namespaces have different short names too. -/
def HasDistinctShortNames (r : Registry) : Prop :=
  ∀ s ∈ r.types, ∀ t ∈ r.types, s.name = t.name → s = t

/-- A call that gave a closed type. -/
structure Closing where
  opened : HostType
  args : List HostType
  closed : HostType

/-- The key under which the closed type is kept. -/
def Closing.key (call : Closing) : String :=
  closedKey call.opened call.args

/-- A registered type, or the result of a call. -/
def Known (r : Registry) (calls : List Closing) (t : HostType) : Prop :=
  t ∈ r.types ∨ ∃ call ∈ calls, call.closed = t

/-- The calls that were made on a registry, in order, and the registry after them. A call that
fails changes nothing and is left out. -/
inductive History (r : Registry) : List Closing → Registry → Prop
  | start : History r [] r
  | call {calls : List Closing} {r' r'' : Registry} {t closed : HostType} {args : List HostType}
      (h : History r calls r') (opened : Known r calls t) (args_known : ∀ a ∈ args, Known r calls a)
      (ok : r'.close t args = .ok (closed, r'')) : History r (calls ++ [⟨t, args, closed⟩]) r''

section Build

variable (registered : List HostType) (nextIdentity : Nat) (closer : Closer)

lemma build_types : (build registered nextIdentity closer).types
    = ((primitiveTypes ++ visit registered).foldl Catalog.place {}).types := by
  dsimp only [build, catalog]

lemma catalog_lists : (catalog registered).Lists (primitiveTypes ++ visit registered) :=
  Catalog.Lists.start.foldl_place (primitiveTypes ++ visit registered)

/-- Types of one full name replace each other when a registry is built. -/
theorem build_nodup : ((build registered nextIdentity closer).types.map (·.fullName)).Nodup :=
  (catalog_lists registered).indexed.nodup

/-- So full names tell the types of a registry apart. -/
theorem build_distinct : (build registered nextIdentity closer).Distinct where
  unused := rfl
  names _ hs _ ht := List.inj_on_of_nodup_map (build_nodup registered nextIdentity closer) hs ht

/-- Without nested types there is nothing to visit besides the types. -/
lemma visit_eq_self {types : List HostType} (flat : ∀ t ∈ types, t.nested = []) :
    visit types = types := by
  induction types with
  | nil => rw [visit]
  | cons t rest ih =>
    rw [visit, flat t List.mem_cons_self, List.nil_append,
      ih fun s mem => flat s (List.mem_cons_of_mem t mem)]

end Build

section Close

variable {r r' : Registry} {t closed : HostType} {args : List HostType}

/-- Closing gives the type kept under the key, or makes one and keeps it. -/
lemma close_cases (ok : r.close t args = .ok (closed, r')) :
    closeProblem? t args = none ∧
      (r.closed.find? (closedKey t args) = some closed ∧ r' = r ∨
        r.closed.find? (closedKey t args) = none ∧
          closed = closedForm r.closer r.nextIdentity t args ∧
          r' = { r with
            closed := r.closed ++ [(closedKey t args, closed)]
            nextIdentity := r.nextIdentity + 1 }) := by
  unfold close at ok
  split at ok
  · cases ok
  · rename_i valid
    dsimp only at ok
    split at ok
    · rename_i found
      cases ok
      exact ⟨valid, Or.inl ⟨found, rfl⟩⟩
    · rename_i missing
      cases ok
      exact ⟨valid, Or.inr ⟨missing, rfl, rfl⟩⟩

lemma close_of_find? (valid : closeProblem? t args = none)
    (found : r.closed.find? (closedKey t args) = some closed) :
    r.close t args = .ok (closed, r) := by
  unfold close
  rw [valid]
  dsimp only
  rw [found]

lemma closeProblem?_eq_none (valid : closeProblem? t args = none) :
    t.isOpen = true ∧ args.length = t.arity := by
  unfold closeProblem? at valid
  split at valid
  · cases valid
  · rename_i isOpen
    split at valid
    · cases valid
    · rename_i length
      exact ⟨by simpa using isOpen, by simpa using length⟩

lemma mem_of_find? {α : Type} {entries : Named α} {key : String} {item : α}
    (found : entries.find? key = some item) : (key, item) ∈ entries := by
  obtain ⟨before, after, eq, -⟩ := List.lookup_eq_some_iff.1 found
  rw [eq]
  exact List.mem_append_right before List.mem_cons_self

end Close

section Names

variable {closer : Closer} (fills : closer.FillsIn) (identity : Nat) (t : HostType)
  (args : List HostType)

include fills in
/-- A closed form is its draft but for members and nested types. -/
lemma closedForm_eq : ∃ members nested,
    closedForm closer identity t args = { draft identity t args with members, nested } := by
  obtain ⟨members, nested, eq⟩ := fills t (draft identity t args) args
  exact ⟨members, nested, by rw [closedForm, eq]; rfl⟩

include fills in
lemma closedForm_name : (closedForm closer identity t args).name.toList
    = applied t.name.toList [',', ' '] (args.map (·.name.toList)) := by
  obtain ⟨members, nested, eq⟩ := closedForm_eq fills identity t args
  simp [eq, draft, applied, String.toList_intercalate, Function.comp_def]

include fills in
lemma closedForm_fullName : (closedForm closer identity t args).fullName.toList
    = applied t.fullName.toList [',', ' '] (args.map (·.name.toList)) := by
  have name := closedForm_name fills identity t args
  obtain ⟨members, nested, eq⟩ := closedForm_eq fills identity t args
  unfold HostType.fullName
  have ns : (closedForm closer identity t args).ns = t.ns := by rw [eq]; rfl
  rw [ns]
  cases t.ns with
  | none => exact name
  | some ns =>
    simp only [String.toList_append]
    rw [name]
    simp [applied]

include fills in
lemma closedForm_typeArgs : (closedForm closer identity t args).typeArgs = args := by
  obtain ⟨members, nested, eq⟩ := closedForm_eq fills identity t args
  rw [eq]
  rfl

include fills in
lemma closedForm_isOpen : (closedForm closer identity t args).isOpen = false := by
  obtain ⟨members, nested, eq⟩ := closedForm_eq fills identity t args
  rw [eq]
  rfl

lemma closedKey_toList : (closedKey t args).toList
    = applied t.fullName.toList [','] (args.map (·.fullName.toList)) := by
  simp [closedKey, applied, String.toList_intercalate, Function.comp_def]

variable {t}

lemma plain_name (plain : t.HasPlainName) : Plain t.name.toList := by
  intro c mem
  apply plain c
  unfold HostType.fullName
  cases t.ns with
  | none => exact mem
  | some ns => simp [mem]

include fills in
/-- A type made by closing does not have a plain name. -/
lemma not_plain_closedForm : ¬ (closedForm closer identity t args).HasPlainName := by
  unfold HostType.HasPlainName
  rw [closedForm_fullName fills]
  exact not_plain_applied

lemma toList_map_inj {s t : List HostType} {f : HostType → String}
    (same : s.map (fun t => (f t).toList) = t.map fun t => (f t).toList) : s.map f = t.map f := by
  have lists : (s.map f).map String.toList = (t.map f).map String.toList := by
    simpa [Function.comp_def] using same
  exact List.map_injective_iff.2 (fun _ _ eq => String.toList_inj.1 eq) lists

end Names

/-- What holds of a registry after some calls. -/
structure Tracked (r : Registry) (calls : List Closing) (r' : Registry) : Prop where
  closer : r'.closer = r.closer
  found : ∀ call ∈ calls, r'.closed.find? call.key = some call.closed
  /-- Whatever is kept was made by the first call of its key. -/
  made : ∀ key t, (key, t) ∈ r'.closed → ∃ first, calls.find? (·.key == key) = some first ∧
    first.closed = t ∧ t = closedForm r.closer t.identity first.opened first.args
  valid : ∀ call ∈ calls, closeProblem? call.opened call.args = none
  opened : ∀ call ∈ calls, call.opened ∈ r.types
  args : ∀ call ∈ calls, ∀ a ∈ call.args, Known r calls a

lemma Known.mono {r : Registry} {calls more : List Closing} {t : HostType}
    (known : Known r calls t) : Known r (calls ++ more) t := by
  rcases known with registered | ⟨call, mem, eq⟩
  · exact Or.inl registered
  · exact Or.inr ⟨call, List.mem_append_left more mem, eq⟩

/-- A call adds its result to what is known. -/
lemma Known.before_or_made {r : Registry} {calls : List Closing} {call : Closing} {t : HostType}
    (known : Known r (calls ++ [call]) t) : Known r calls t ∨ t = call.closed := by
  rcases known with registered | ⟨other, mem, rfl⟩
  · exact Or.inl (Or.inl registered)
  · rcases List.mem_append.1 mem with mem | mem
    · exact Or.inl (Or.inr ⟨other, mem, rfl⟩)
    · rw [List.mem_singleton.1 mem]
      exact Or.inr rfl

namespace Tracked

variable {r r' : Registry} {calls : List Closing} {s t closed : HostType} {args : List HostType}

/-- The result of a call was made by the first call of the same key. -/
lemma made_of_mem (tracked : Tracked r calls r') {call : Closing} (mem : call ∈ calls) :
    ∃ first, calls.find? (·.key == call.key) = some first ∧ first.closed = call.closed ∧
      call.closed = closedForm r.closer call.closed.identity first.opened first.args :=
  tracked.made _ _ (mem_of_find? (tracked.found call mem))

/-- Types made by closing are not open. -/
lemma opened_mem (tracked : Tracked r calls r') (fills : r.closer.FillsIn)
    (known : Known r calls t) (isOpen : t.isOpen = true) : t ∈ r.types := by
  rcases known with registered | ⟨call, mem, rfl⟩
  · exact registered
  · obtain ⟨first, -, -, form⟩ := tracked.made_of_mem mem
    rw [form, closedForm_isOpen fills] at isOpen
    cases isOpen

lemma start (distinct : r.Distinct) : Tracked r [] r :=
  { closer := rfl
    found := fun call mem => by cases mem
    made := fun key t mem => by
      rw [distinct.unused] at mem
      cases mem
    valid := fun call mem => by cases mem
    opened := fun call mem => by cases mem
    args := fun call mem => by cases mem }

/-- Keeping one more type leaves what is found alone. -/
lemma find?_append {α : Type} {entries : Named α} {key : String} {item : α}
    (found : entries.find? key = some item) (more : Named α) :
    Named.find? (entries ++ more) key = some item := by
  unfold Named.find? at *
  rw [List.lookup_append, found]
  rfl

lemma find?_append_self {α : Type} {entries : Named α} {key : String} {item : α}
    (missing : entries.find? key = none) :
    Named.find? (entries ++ [(key, item)]) key = some item := by
  unfold Named.find? at *
  rw [List.lookup_append, missing]
  simp

/-- One more call leaves the first one of a key alone. -/
lemma first_append {key : String} {first : Closing}
    (found : calls.find? (·.key == key) = some first) (more : List Closing) :
    (calls ++ more).find? (·.key == key) = some first := by
  rw [List.find?_append, found]
  rfl

lemma call {r'' : Registry} (fills : r.closer.FillsIn) (tracked : Tracked r calls r')
    (opened : Known r calls t) (args_known : ∀ a ∈ args, Known r calls a)
    (ok : r'.close t args = .ok (closed, r'')) :
    Tracked r (calls ++ [⟨t, args, closed⟩]) r'' := by
  obtain ⟨valid, cases⟩ := close_cases ok
  have registered := tracked.opened_mem fills opened (closeProblem?_eq_none valid).1
  have each {p : Closing → Prop} (old : ∀ call ∈ calls, p call) (new : p ⟨t, args, closed⟩) :
      ∀ call ∈ calls ++ [⟨t, args, closed⟩], p call := by
    intro call mem
    rcases List.mem_append.1 mem with mem | mem
    · exact old call mem
    · rw [List.mem_singleton.1 mem]
      exact new
  have valid' := each tracked.valid valid
  have opened' := each (p := fun call => call.opened ∈ r.types) tracked.opened registered
  have args' : ∀ call ∈ calls ++ [⟨t, args, closed⟩], ∀ a ∈ call.args,
      Known r (calls ++ [⟨t, args, closed⟩]) a :=
    each (fun call mem a mem' => (tracked.args call mem a mem').mono)
      fun a mem => (args_known a mem).mono
  have old (key : String) (t' : HostType) (mem : (key, t') ∈ r'.closed) :
      ∃ first, List.find? (·.key == key) (calls ++ [⟨t, args, closed⟩]) = some first ∧
        first.closed = t' ∧ t' = closedForm r.closer t'.identity first.opened first.args := by
    obtain ⟨first, found, made⟩ := tracked.made key t' mem
    exact ⟨first, first_append found _, made⟩
  rcases cases with ⟨found, rfl⟩ | ⟨missing, made, rfl⟩
  · -- the type was kept before
    exact
      { closer := tracked.closer
        found := each tracked.found found
        made := old
        valid := valid'
        opened := opened'
        args := args' }
  · -- the type is made now: no call before had the key
    have new : calls.find? (·.key == closedKey t args) = none := by
      rw [List.find?_eq_none]
      intro call mem same
      have found := tracked.found call mem
      rw [eq_of_beq same, missing] at found
      cases found
    exact
      { closer := tracked.closer
        found := each (fun call mem => find?_append (tracked.found call mem) _)
          (find?_append_self missing)
        made := fun key t' mem => by
          rcases List.mem_append.1 mem with mem | mem
          · exact old key t' mem
          · obtain ⟨rfl, rfl⟩ := Prod.mk.inj (List.mem_singleton.1 mem)
            refine ⟨(⟨t, args, t'⟩ : Closing), ?_, rfl, ?_⟩
            · rw [List.find?_append, new]
              simp [Closing.key]
            · rw [made, ← tracked.closer]
              rfl
        valid := valid'
        opened := opened'
        args := args' }

end Tracked

theorem History.tracked {r r' : Registry} {calls : List Closing} (distinct : r.Distinct)
    (fills : r.closer.FillsIn) (h : History r calls r') : Tracked r calls r' := by
  induction h with
  | start => exact .start distinct
  | call _ opened args_known ok ih => exact ih.call fills opened args_known ok

end Registry

end ScriptBridge
