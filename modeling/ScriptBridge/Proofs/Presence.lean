import ScriptBridge.Proofs.ViewMap

/-!
# What a table view says is there

A view lists all entries of its table, but tells whether a key is there by what its value is pulled
as. So it hides entries whose value is pulled as nil, and those whose key the host has no name for:
they are counted and listed, and yet the table is said not to contain them.
-/

namespace ScriptBridge.Session.TableView

open Script Bridge Machine HostValue

/-- A key that scripts write out: a boolean, an integer, or a string of whatever bytes. -/
def isPlain : Value → Bool
  | .bool _ | .int _ | .str _ => true
  | _ => false

/-- A string that is not the bytes of any text. -/
def isGarbled : Value → Bool
  | .str bytes => Value.ofString (Text.decode bytes) != .str bytes
  | _ => false

/-- A userdata that stands for no object or type: a bound method, an event, an indexed property, an
error, something foreign, or a proxy that was released. -/
def isBlank (w : World) : Value → Bool
  | .userdata id => (w.heap.target? (w.heap.userdatum id)).isNone
  | _ => false

/-- A view tells nothing under the key of the entry. -/
def hides (w : World) (e : Value × Value) : Bool :=
  isGarbled e.1 || isBlank w e.2

/-- The keys that the table contains, each once up to equality. -/
structure Enumerates (w : World) (table : Nat) (ks : List HostValue) : Prop where
  once : ks.Pairwise fun k k' => k.same k' = false
  sound : ∀ k ∈ ks, k.IsKey ∧ (contains w table k).1 = .ok true
  all : ∀ k, k.IsKey → (contains w table k).1 = .ok true → ∃ k' ∈ ks, k'.same k = true

/-- The view of the table lists the key. -/
def Lists (w : World) (table : Nat) (k : HostValue) : Prop :=
  ∃ p ∈ pairs w table, p.1.same k = true

/-- The form in which a key is stored. -/
def storedKey (k : HostValue) : Value :=
  match (Bridge.push {} k).1 with
  | .ok x => x
  | .error _ => .nil

section Entries

variable {w : World} {table : Nat} {k : HostValue} {x y : Value} {e : Value × Value}

lemma storedKey_eq (names : Names k x) : storedKey k = x := by
  unfold storedKey
  rw [names.push]

lemma names_iff (names : Names k x) : Names k y ↔ y = x := by
  constructor
  · intro other
    exact (storedKey_eq other).symm.trans (storedKey_eq names)
  · rintro rfl
    exact names

lemma not_garbled (names : Names k x) : isGarbled x = false := by
  cases names with
  | str s =>
    show (Value.ofString (Text.decode s.toUTF8) != .ofString s) = false
    rw [Text.decode_toUTF8]
    exact bne_self_eq_false _
  | _ => rfl

/-- A key that is not garbled is pulled as a name of itself. -/
lemma names_of_plain (plain : isPlain x = true) (text : isGarbled x = false) :
    Names (w.pull x) x := by
  cases x with
  | bool b => exact .bool b
  | int i => exact .int i
  | str bytes =>
    have same : Value.ofString (Text.decode bytes) = .str bytes := by
      simpa [isGarbled] using text
    have named : Names (.str (Text.decode bytes)) (.ofString (Text.decode bytes)) := .str _
    rw [same] at named
    exact named
  | _ => cases plain

lemma isBlank_iff (filled : y ≠ .nil) : isBlank w y = true ↔ w.pull y = .nil := by
  cases y with
  | nil => exact absurd rfl filled
  | userdata id =>
    unfold isBlank World.pull Bridge.pull
    dsimp only
    cases w.heap.target? (w.heap.userdatum id) with
    | none => simp
    | some target => cases target <;> simp
  | _ => simp [isBlank, World.pull, Bridge.pull]

lemma contains_eq (names : Names k x) :
    contains w table k = (.ok !(w.pull (w.heap.rawGet table x)).isNil, w) := by
  unfold contains
  rw [get_eq names]

/-- A table contains a key exactly if an entry is under the key and is not hidden. -/
lemma contains_iff (listed : (w.heap.table table).Listed) (names : Names k x) :
    (contains w table k).1 = .ok true ↔
      ∃ e ∈ (w.heap.table table).entries, e.1 = x ∧ hides w e = false := by
  have answer : (contains w table k).1 = .ok true ↔ w.pull (w.heap.rawGet table x) ≠ .nil := by
    rw [contains_eq names]
    cases w.pull (w.heap.rawGet table x) <;> simp [HostValue.isNil]
  rw [answer]
  constructor
  · intro some
    have filled : w.heap.rawGet table x ≠ .nil := fun empty => some (congrArg w.pull empty)
    have mem := (listed.mem_iff names.key).2 ⟨rfl, filled⟩
    refine ⟨_, mem, rfl, ?_⟩
    have shown : isBlank w (w.heap.rawGet table x) = false :=
      Bool.eq_false_iff.2 fun blank => some ((isBlank_iff filled).1 blank)
    exact Bool.or_eq_false_iff.2 ⟨not_garbled names, shown⟩
  · rintro ⟨e, mem, rfl, shown⟩
    obtain ⟨read, filled⟩ := (listed.mem_iff names.key).1 mem
    rw [show w.heap.rawGet table e.1 = e.2 from read]
    intro empty
    rw [← isBlank_iff filled] at empty
    rw [(Bool.or_eq_false_iff.1 shown).2] at empty
    cases empty

/-- An entry that is not hidden is contained under what its key is pulled as. -/
lemma contains_of_shown (listed : (w.heap.table table).Listed)
    (mem : e ∈ (w.heap.table table).entries) (plain : isPlain e.1 = true)
    (shown : hides w e = false) :
    Names (w.pull e.1) e.1 ∧ (contains w table (w.pull e.1)).1 = .ok true := by
  have names : Names (w.pull e.1) e.1 := names_of_plain plain (Bool.or_eq_false_iff.1 shown).1
  exact ⟨names, (contains_iff listed names).2 ⟨e, mem, rfl, shown⟩⟩

lemma lists_of_contains (listed : (w.heap.table table).Listed) (key : k.IsKey)
    (contained : (contains w table k).1 = .ok true)
    (plain : ∀ e ∈ (w.heap.table table).entries, isPlain e.1 = true) : Lists w table k := by
  obtain ⟨x, names⟩ := key
  obtain ⟨e, mem, rfl, shown⟩ := (contains_iff listed names).1 contained
  obtain ⟨pulled, -⟩ := contains_of_shown listed mem (plain e mem) shown
  exact ⟨_, List.mem_map_of_mem mem, (pulled.same_iff names).2 rfl⟩

/-- Where nothing is hidden, whatever is listed is contained. -/
lemma contains_of_lists (listed : (w.heap.table table).Listed) (key : k.IsKey)
    (plain : ∀ e ∈ (w.heap.table table).entries, isPlain e.1 = true)
    (shown : ∀ e ∈ (w.heap.table table).entries, hides w e = false) (lists : Lists w table k) :
    (contains w table k).1 = .ok true := by
  obtain ⟨x, names⟩ := key
  obtain ⟨p, there, same⟩ := lists
  obtain ⟨e, mem, rfl⟩ := List.mem_map.1 there
  obtain ⟨pulled, -⟩ := contains_of_shown listed mem (plain e mem) (shown e mem)
  exact (contains_iff listed names).2 ⟨e, mem, (pulled.same_iff names).1 same, shown e mem⟩

variable {ks : List HostValue}

/-- The entries that are not hidden give the keys that the table contains. -/
lemma enumerates_shown (listed : (w.heap.table table).Listed)
    (plain : ∀ e ∈ (w.heap.table table).entries, isPlain e.1 = true) :
    Enumerates w table
      (((w.heap.table table).entries.filter (!hides w ·)).map fun e => w.pull e.1) where
  once := by
    have once := (listed.once.sublist (List.filter_sublist.map _) :
      (((w.heap.table table).entries.filter (!hides w ·)).map (·.1)).Nodup)
    rw [List.Nodup, List.pairwise_map] at once
    refine List.pairwise_map.2 (once.imp_of_mem fun mem mem' differs => ?_)
    have names {e : Value × Value}
        (kept : e ∈ (w.heap.table table).entries.filter (!hides w ·)) : Names (w.pull e.1) e.1 := by
      obtain ⟨mem, shown⟩ := List.mem_filter.1 kept
      exact (contains_of_shown listed mem (plain _ mem) (by simpa using shown)).1
    rw [← Bool.not_eq_true]
    exact fun same => differs (((names mem).same_iff (names mem')).1 same)
  sound k mem := by
    obtain ⟨e, kept, rfl⟩ := List.mem_map.1 mem
    obtain ⟨mem, shown⟩ := List.mem_filter.1 kept
    obtain ⟨names, contained⟩ := contains_of_shown listed mem (plain e mem) (by simpa using shown)
    exact ⟨⟨_, names⟩, contained⟩
  all k key contained := by
    obtain ⟨x, names⟩ := key
    obtain ⟨e, mem, rfl, shown⟩ := (contains_iff listed names).1 contained
    obtain ⟨pulled, -⟩ := contains_of_shown listed mem (plain e mem) shown
    have kept : e ∈ (w.heap.table table).entries.filter (!hides w ·) :=
      List.mem_filter.2 ⟨mem, by simpa using shown⟩
    exact ⟨_, List.mem_map_of_mem kept, (pulled.same_iff names).2 rfl⟩

/-- As stored, the keys that a table contains are those of the entries that are not hidden. -/
lemma Enumerates.perm (enumerates : Enumerates w table ks) (listed : (w.heap.table table).Listed)
    (plain : ∀ e ∈ (w.heap.table table).entries, isPlain e.1 = true) :
    (ks.map storedKey).Perm
      (((w.heap.table table).entries.filter (!hides w ·)).map (·.1)) := by
  have nodup : (ks.map storedKey).Nodup := by
    rw [List.Nodup, List.pairwise_map]
    refine enumerates.once.imp_of_mem fun mem mem' differs same => ?_
    obtain ⟨⟨x, names⟩, -⟩ := enumerates.sound _ mem
    obtain ⟨⟨x', names'⟩, -⟩ := enumerates.sound _ mem'
    rw [storedKey_eq names, storedKey_eq names'] at same
    rw [(names.same_iff names').2 same] at differs
    cases differs
  refine (List.perm_ext_iff_of_nodup nodup (listed.once.sublist (List.filter_sublist.map _))).2 ?_
  intro x
  constructor
  · intro mem
    obtain ⟨k, listed', rfl⟩ := List.mem_map.1 mem
    obtain ⟨⟨x, names⟩, contained⟩ := enumerates.sound k listed'
    obtain ⟨e, mem, rfl, shown⟩ := (contains_iff listed names).1 contained
    rw [storedKey_eq names]
    exact List.mem_map_of_mem (List.mem_filter.2 ⟨mem, by simpa using shown⟩)
  · intro mem
    obtain ⟨e, kept, rfl⟩ := List.mem_map.1 mem
    obtain ⟨mem, shown⟩ := List.mem_filter.1 kept
    obtain ⟨names, contained⟩ := contains_of_shown listed mem (plain e mem) (by simpa using shown)
    obtain ⟨k, mem, same⟩ := enumerates.all _ ⟨_, names⟩ contained
    obtain ⟨⟨x, names'⟩, -⟩ := enumerates.sound k mem
    obtain rfl := (names'.same_iff names).1 same
    exact List.mem_map.2 ⟨k, mem, storedKey_eq names'⟩

/-- The size counts the keys that the table contains and the entries that are hidden. -/
lemma Enumerates.size_eq (enumerates : Enumerates w table ks)
    (listed : (w.heap.table table).Listed)
    (plain : ∀ e ∈ (w.heap.table table).entries, isPlain e.1 = true) :
    size w table = ks.length + (w.heap.table table).entries.countP (hides w) := by
  have shown := (enumerates.perm listed plain).length_eq
  rw [List.length_map, List.length_map, ← List.countP_eq_length_filter] at shown
  rw [shown, Nat.add_comm]
  unfold size
  rw [List.length_eq_countP_add_countP (hides w)]
  simp only [Bool.not_eq_true, Bool.decide_eq_false]

end Entries

/-- What a view says of a table under plain keys: it contains the keys of the entries that are not
hidden, all of which it lists; its size is the number of these keys and of the hidden entries; and
it contains all that it lists if nothing is hidden. -/
theorem contains_exactly_shown {w : World} {table : Nat} (listed : (w.heap.table table).Listed)
    (plain : ∀ e ∈ (w.heap.table table).entries, isPlain e.1 = true) :
    (∀ k, k.IsKey → ∃ b, contains w table k = (.ok b, w) ∧
      (b = true ↔ ∃ e ∈ (w.heap.table table).entries, Names k e.1 ∧ hides w e = false)) ∧
    (∀ k, k.IsKey → (contains w table k).1 = .ok true → Lists w table k) ∧
    (∃ ks, Enumerates w table ks) ∧
    (∀ ks, Enumerates w table ks →
      size w table = ks.length + (w.heap.table table).entries.countP (hides w)) ∧
    ((∀ e ∈ (w.heap.table table).entries, hides w e = false) →
      ∀ k, k.IsKey → (Lists w table k ↔ (contains w table k).1 = .ok true)) := by
  refine ⟨fun k key => ?_, fun k key contained => lists_of_contains listed key contained plain,
    ⟨_, enumerates_shown listed plain⟩, fun ks enumerates => enumerates.size_eq listed plain,
    fun shown k key => ⟨contains_of_lists listed key plain shown, fun contained =>
      lists_of_contains listed key contained plain⟩⟩
  obtain ⟨x, names⟩ := key
  refine ⟨_, contains_eq names, ?_⟩
  have answer := contains_iff listed names
  rw [contains_eq names, Except.ok.injEq] at answer
  simp only [names_iff names]
  exact answer

/-- A new table on the bench, of a bound method and a number. -/
def callbacks : World :=
  let (tick, heap) := bench.heap.newUserdata (.methods (.object device) "tick" [])
  let table := (({} : Table).set (.ofString "tick") tick).set (.ofString "count") (.int 2)
  { bench with heap := (heap.newTable table).2 }

lemma pairs_callbacks :
    pairs callbacks bench.heap.tables.size = [(.str "tick", .nil), (.str "count", .int 2)] :=
  rfl

/-- The bound method is listed and counted, but the table is said not to contain its key. -/
theorem tick_hidden :
    size callbacks bench.heap.tables.size = 2 ∧
      ¬ (Lists callbacks bench.heap.tables.size (.str "tick") ↔
        (contains callbacks bench.heap.tables.size (.str "tick")).1 = .ok true) := by
  have lists : Lists callbacks bench.heap.tables.size (.str "tick") := by
    refine ⟨(.str "tick", .nil), ?_, by decide⟩
    rw [pairs_callbacks]
    exact List.mem_cons_self
  have absent : (contains callbacks bench.heap.tables.size (.str "tick")).1 = .ok false := rfl
  refine ⟨rfl, fun same => ?_⟩
  rw [absent] at same
  cases same.1 lists

lemma listed_callbacks : (callbacks.heap.table bench.heap.tables.size).Listed :=
  ((Table.Listed.empty none).set (.ofString "tick") _).set (.ofString "count") (.int 2)

/-- Of its two entries, the table contains the number alone. -/
theorem count_shown :
    (callbacks.heap.table bench.heap.tables.size).Listed ∧
      (∀ e ∈ (callbacks.heap.table bench.heap.tables.size).entries, isPlain e.1 = true) ∧
      (∀ ks, Enumerates callbacks bench.heap.tables.size ks → ks.length = 1) ∧
      (contains callbacks bench.heap.tables.size (.str "count")).1 = .ok true ∧
      (contains callbacks bench.heap.tables.size (.str "tick")).1 = .ok false := by
  have plain : ∀ e ∈ (callbacks.heap.table bench.heap.tables.size).entries, isPlain e.1 = true := by
    decide +kernel
  obtain ⟨-, -, -, counted, -⟩ := contains_exactly_shown listed_callbacks plain
  refine ⟨listed_callbacks, plain, fun ks enumerates => ?_, rfl, rfl⟩
  have two : 2 = ks.length + 1 := counted ks enumerates
  omega

end ScriptBridge.Session.TableView
