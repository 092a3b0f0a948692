import ScriptBridge.Proofs.Reach
import ScriptBridge.Proofs.RoundTrip
import ScriptBridge.Proofs.Slot

/-!
# A table view is a map

Whatever the host does through a view of a table that was empty at first, the view answers as a map
from keys to values: a key has the value that was stored last under an equal one, as it is pulled,
unless it was removed since. What a value or a key is refused for leaves the map alone.
-/

namespace ScriptBridge.HostValue

open Script Bridge

/-- A value is the key of a script table: booleans, integers that scripts have, strings and
references are one. -/
inductive Names : HostValue → Value → Prop
  | bool (b : Bool) : Names (.bool b) (.bool b)
  | int (i : Int64) : Names (.int i) (.int i)
  | unsigned {u : UInt64} (fits : u.toNat < Number.twoTo 63) :
      Names (.unsigned u) (.int (Int64.ofInt u.toNat))
  | str (s : String) : Names (.str s) (.ofString s)
  | table (id : Nat) : Names (.table id) (.table id)
  | function (r : Routine) : Names (.function r) (.function r)
  | thread (id : Nat) : Names (.thread id) (.thread id)

/-- Whether a value is a key that tables can have. -/
def IsKey (k : HostValue) : Prop :=
  ∃ x, Names k x

namespace Names

variable {k k' : HostValue} {x x' : Value}

lemma push (names : Names k x) (h : Heap) : Bridge.push h k = (.ok x, h) := by
  cases names with
  | unsigned fits => exact if_pos fits
  | _ => rfl

lemma key (names : Names k x) : x.key = x := by
  cases names <;> rfl

/-- A key is pulled as a value that is the same key. -/
lemma pull (names : Names k x) (h : Heap) : Names (Bridge.pull h x) x := by
  cases names with
  | unsigned fits => exact .int _
  | str s =>
    have text : Bridge.pull h (.ofString s) = .str s :=
      congrArg HostValue.str (Text.decode_toUTF8 s)
    rw [text]
    exact .str s
  | bool b => exact .bool b
  | int i => exact .int i
  | table id => exact .table id
  | function r => exact .function r
  | thread id => exact .thread id

lemma integer? {i : Int64} (names : Names k (.int i)) : k.integer? = some i.toInt := by
  cases names with
  | int i => rfl
  | unsigned fits =>
    have bound : (Number.twoTo 63 : Int) = 2 ^ 63 := rfl
    refine congrArg some (Int64.toInt_ofInt_of_le ?_ ?_).symm <;> omega

lemma same_int {i : Int64} (names : Names k (.int i)) (names' : Names k' x') :
    k.same k' = true ↔ .int i = x' := by
  constructor
  · intro equal
    have number : k'.integer? = some i.toInt := integer?_of_same equal names.integer?
    cases x' with
    | int j =>
      have same : j.toInt = i.toInt := Option.some.inj (names'.integer?.symm.trans number)
      rw [Int64.toInt_inj.1 same]
    | _ => cases names' <;> cases number
  · rintro rfl
    exact same_of_integer? names.integer? names'.integer?

/-- Values are equal as keys exactly if they are the same key of a script table. -/
theorem same_iff (names : Names k x) (names' : Names k' x') : k.same k' = true ↔ x = x' := by
  cases names with
  | int i => exact same_int (.int i) names'
  | unsigned fits => exact same_int (.unsigned fits) names'
  | str s =>
    cases names' with
    | str t => exact beq_iff_eq.trans Value.ofString_inj.symm
    | _ => simp [same, Value.ofString]
  | _ => cases names' <;> simp [same, Value.ofString]

end Names

end ScriptBridge.HostValue

namespace ScriptBridge.Session.TableView

open Script Bridge Machine HostValue

/-- What is under each key; nil where there is nothing. -/
abbrev Contents := HostValue → HostValue

/-- Puts a value under a key and all that are equal to it. -/
def Contents.put (m : Contents) (k u : HostValue) : Contents :=
  fun k' => if k.same k' then u else m k'

/-- What is pulled of a value that was just pushed. -/
def pulledForm (w : World) (v : HostValue) : HostValue :=
  match w.push v with
  | (.ok x, w) => w.pull x
  | (.error _, _) => .nil

/-- One use of a table view. -/
inductive Use
  | get (k : HostValue)
  | set (k v : HostValue)
  | remove (k : HostValue)
  | contains (k : HostValue)
  | size
  | pairs
  | clear

/-- The key of a use is one that tables can have, or it is refused. -/
def Use.IsKeyed : Use → Prop
  | get k | set k _ | remove k | contains k => k.IsKey ∨ ∃ p ∈ k.parts, p.isUnscriptable = true
  | size | pairs | clear => True

/-- The world after a use of the view of a table, and what a map contains after it. -/
def step (table : Nat) : World × Contents → Use → World × Contents
  | (w, m), .get k => ((get w table k).2, m)
  | (w, m), .contains k => ((contains w table k).2, m)
  | (w, m), .size | (w, m), .pairs => (w, m)
  | (w, m), .set k v =>
    match set w table k v with
    | (.ok _, w') => (w', m.put k (pulledForm w v))
    | (.error _, w') => (w', m)
  | (w, m), .remove k =>
    match remove w table k with
    | (.ok _, w') => (w', m.put k .nil)
    | (.error _, w') => (w', m)
  | (w, _), .clear => (clear w table, fun _ => .nil)

/-- What a new table comes to by some uses, and what a map that was empty contains after them. -/
def after (w : World) (uses : List Use) : World × Contents :=
  uses.foldl (step (create w).1) ((create w).2, fun _ => .nil)

/-- The table answers as the map. -/
structure IsMap (w : World) (table : Nat) (m : Contents) : Prop where
  get : ∀ k, k.IsKey → get w table k = (.ok (m k), w)
  remove : ∀ k, k.IsKey → ∃ w', remove w table k = (.ok (m k), w') ∧
    TableView.get w' table k = (.ok .nil, w')
  setNil : ∀ k, k.IsKey → ∃ w', set w table k .nil = (.ok (), w') ∧
    TableView.get w' table k = (.ok .nil, w')
  contains : ∀ k, k.IsKey → ∃ b, contains w table k = (.ok b, w) ∧ (b = true ↔ m k ≠ .nil)
  listed : ∀ k, k.IsKey → ((∃ p ∈ pairs w table, p.1.same k = true) ↔ m k ≠ .nil)
  entry : ∀ p ∈ pairs w table, p.1.IsKey ∧ p.2 = m p.1
  once : (pairs w table).Pairwise fun p q => p.1.same q.1 = false
  size : size w table = (pairs w table).length
  clear : pairs (clear w table) table = []
  refused : ∀ k v e, (w.push k).1 = .error e ∨ k.IsKey ∧ (w.push v).1 = .error e →
    ∃ w', set w table k v = (.error e, w') ∧ w'.heap.table table = w.heap.table table

section Equations

variable {w w' : World} {table : Nat} {k v : HostValue} {x : Value} {e : BridgeError}

lemma push_key (names : Names k x) (w : World) : w.push k = (.ok x, w) := by
  unfold World.push
  rw [names.push]

/-- The engine stores under such keys. -/
lemma checkKey_eq (names : Names k x) : checkKey x = .ok () := by
  cases names <;> rfl

lemma get_eq (names : Names k x) : get w table k = (.ok (w.pull (w.heap.rawGet table x)), w) := by
  unfold get
  rw [push_key names]

lemma remove_eq (names : Names k x) :
    remove w table k = (.ok (w.pull (w.heap.rawGet table x)), rawStore w table x .nil) := by
  unfold remove
  rw [push_key names]
  dsimp only
  rw [checkKey_eq names]

lemma set_eq (names : Names k x) :
    set w table k v = match w.push v with
      | (.ok y, w') => (.ok (), rawStore w' table x y)
      | (.error e, w') => (.error e, w') := by
  unfold set
  rw [push_key names]
  dsimp only
  rw [checkKey_eq names]
  rcases w.push v with ⟨answer, w'⟩
  cases answer <;> rfl

lemma get_world (w : World) (table : Nat) (k : HostValue) : (get w table k).2 = (w.push k).2 := by
  unfold get
  split <;> rename_i eq <;> rw [eq]

lemma contains_world (w : World) (table : Nat) (k : HostValue) :
    (contains w table k).2 = (w.push k).2 := by
  rw [← get_world w table k]
  unfold contains
  split <;> rename_i eq <;> rw [eq]

lemma remove_refused (refused : (w.push k).1 = .error e) :
    remove w table k = (.error e, (w.push k).2) := by
  unfold remove
  rw [show w.push k = (.error e, (w.push k).2) from Prod.ext refused rfl]

lemma set_refused (refused : (w.push k).1 = .error e) :
    set w table k v = (.error e, (w.push k).2) := by
  unfold set
  rw [show w.push k = (.error e, (w.push k).2) from Prod.ext refused rfl]

end Equations

/-- A new proxy is known, and not pulled as nil. -/
lemma known_of_makes {h h₁ : Heap} {proxies : List Proxy} {id : Nat} {pinned : Pinned}
    (tallies : h.Tallies proxies) (makes : h.Makes [(id, pinned)] h₁)
    (room : h₁.handles.slots.size ≤ UInt32.size) :
    id < h₁.userdata.size ∧ Bridge.pull h₁ (.userdata id) ≠ .nil := by
  constructor
  · obtain ⟨more, eq, tallies'⟩ := tallies.makes makes room
    obtain ⟨p, rfl, same⟩ := List.map_eq_singleton_iff.1 eq
    cases same
    exact tallies'.lt_size (List.mem_append_right proxies List.mem_cons_self)
  · rw [pull_of_makes tallies makes room (.refl h₁)]
    cases pinned <;> exact HostValue.noConfusion

/-- What was pushed is known, and pulled as nil only if it is nil. -/
lemma known_of_push {w w' : World} {v : HostValue} {y : Value}
    (tallies : ∃ proxies, w.heap.Tallies proxies) (pushes : w.push v = (.ok y, w'))
    (room : w'.heap.handles.slots.size ≤ UInt32.size) :
    (∀ id, y = .userdata id → id < w'.heap.userdata.size) ∧ (y ≠ .nil → w'.pull y ≠ .nil) := by
  obtain ⟨proxies, tallies⟩ := tallies
  have result : (Bridge.push w.heap v).1 = .ok y := congrArg Prod.fst pushes
  obtain rfl : (w.push v).2 = w' := congrArg Prod.snd pushes
  have proxy {pinned : Pinned}
      (makes : w.heap.Makes [(w.heap.userdata.size, pinned)] (w.push v).2.heap)
      (new : y = .userdata w.heap.userdata.size) :
      (∀ id, y = .userdata id → id < (w.push v).2.heap.userdata.size) ∧
        (y ≠ .nil → (w.push v).2.pull y ≠ .nil) := by
    obtain ⟨known, filled⟩ := known_of_makes tallies makes room
    subst new
    exact ⟨fun id same => Value.userdata.inj same ▸ known, fun _ => filled⟩
  cases v with
  | object o =>
    cases result
    exact proxy (.object w.heap o) rfl
  | type t =>
    cases result
    exact proxy (.type w.heap t) rfl
  | unsigned u =>
    unfold Bridge.push at result
    split at result <;> cases result
    exact ⟨fun _ => Value.noConfusion, fun _ => HostValue.noConfusion⟩
  | array items =>
    unfold Bridge.push at result
    split at result <;> cases result
    exact ⟨fun _ => Value.noConfusion, fun _ => HostValue.noConfusion⟩
  | big n => cases result
  | nil =>
    cases result
    exact ⟨fun _ => Value.noConfusion, fun some => absurd rfl some⟩
  | _ =>
    cases result
    exact ⟨fun _ => Value.noConfusion, fun _ => HostValue.noConfusion⟩

/-- The heap holds the map under a number, and its values are there to stay. -/
structure Models (w : World) (table : Nat) (m : Contents) : Prop where
  tallies : ∃ proxies, w.heap.Tallies proxies
  there : table < w.heap.tables.size
  listed : (w.heap.table table).Listed
  named : ∀ e ∈ (w.heap.table table).entries, ∃ k, Names k e.1
  known : ∀ x id, w.heap.rawGet table x = .userdata id → id < w.heap.userdata.size
  filled : ∀ x, w.heap.rawGet table x ≠ .nil → w.pull (w.heap.rawGet table x) ≠ .nil
  reads : ∀ k x, Names k x → m k = w.pull (w.heap.rawGet table x)

namespace Models

variable {w w' : World} {table : Nat} {m : Contents} {k v : HostValue} {x y : Value}

lemma later (models : Models w table m) (later : w.heap.Later w'.heap)
    (tallies : ∃ proxies, w'.heap.Tallies proxies) : Models w' table m := by
  have same : w'.heap.table table = w.heap.table table := later.table models.there
  have reads (x : Value) : w'.heap.rawGet table x = w.heap.rawGet table x :=
    congrArg (·.get x) same
  have pulls (x : Value) :
      w'.pull (w.heap.rawGet table x) = w.pull (w.heap.rawGet table x) := by
    cases found : w.heap.rawGet table x with
    | userdata id => exact later.pulls id (models.known x id found)
    | _ => rfl
  refine ⟨tallies, ?_, ?_, ?_, fun x id found => ?_, fun x some => ?_, fun k x names => ?_⟩
  · exact Nat.lt_of_lt_of_le models.there (size_le_of_grows later.grows.tables)
  · rw [same]
    exact models.listed
  · rw [same]
    exact models.named
  · rw [reads] at found
    exact Nat.lt_of_lt_of_le (models.known x id found) (size_le_of_grows later.grows.userdata)
  · rw [reads] at some ⊢
    rw [pulls]
    exact models.filled x some
  · rw [reads, pulls]
    exact models.reads k x names

/-- Pushing a value, or failing to, leaves the map alone. -/
lemma push (models : Models w table m) (v : HostValue)
    (room : (w.push v).2.heap.handles.slots.size ≤ UInt32.size) : Models (w.push v).2 table m := by
  obtain ⟨proxies, tallies⟩ := models.tallies
  obtain ⟨later, more, tallies'⟩ := push_later (v := v) tallies (Prod.ext rfl rfl) room
  exact models.later later ⟨_, tallies'⟩

/-- Storing a value under a key puts it there in the map. -/
lemma store (models : Models w table m) (names : Names k x)
    (known : ∀ id, y = .userdata id → id < w.heap.userdata.size)
    (filled : y ≠ .nil → w.pull y ≠ .nil) :
    Models (rawStore w table x y) table (m.put k (w.pull y)) := by
  have reads (x' : Value) : (rawStore w table x y).heap.rawGet table x'
      = if x'.key = x.key then y else w.heap.rawGet table x' := by
    show (w.heap.rawSet table x y).rawGet table x' = _
    rw [Heap.rawGet_rawSet w.heap x x' y models.there]
    simp only [true_and]
  have set : (rawStore w table x y).heap.table table = (w.heap.table table).set x y := by
    unfold rawStore Heap.rawSet
    rw [Heap.table_setTable w.heap _ models.there, if_pos rfl]
  obtain ⟨proxies, tallies⟩ := models.tallies
  refine ⟨⟨proxies, tallies.quiet rfl rfl⟩, ?_, ?_, fun e mem => ?_, fun x' id found => ?_,
    fun x' some => ?_, fun k' x' names' => ?_⟩
  · exact Nat.lt_of_lt_of_eq models.there (Heap.rawSet_size _ _ _).symm
  · rw [set]
    exact models.listed.set x y
  · rw [set] at mem
    rcases Table.mem_set _ _ _ mem with ⟨rfl, -⟩ | old
    · exact ⟨k, names.key.symm ▸ names⟩
    · exact models.named e old
  · rw [reads] at found
    split at found
    · exact known id found
    · exact models.known x' id found
  · rw [reads] at some ⊢
    split at some
    · rename_i same
      rw [if_pos same]
      exact filled some
    · rename_i differs
      rw [if_neg differs]
      exact models.filled x' some
  · rw [reads, names'.key, names.key]
    unfold Contents.put
    by_cases same : x = x'
    · rw [if_pos ((names.same_iff names').2 same), if_pos same.symm]
      rfl
    · rw [if_neg fun equal => same ((names.same_iff names').1 equal),
        if_neg fun equal => same equal.symm]
      exact models.reads k' x' names'

/-- Setting a value under a key puts it there in the map as it is pulled, if it is not refused. -/
lemma set (models : Models w table m) (names : Names k x)
    (room : (TableView.step table (w, m) (.set k v)).1.heap.handles.slots.size ≤ UInt32.size) :
    Models (TableView.step table (w, m) (.set k v)).1 table
      (TableView.step table (w, m) (.set k v)).2 := by
  have pushed := models.push v
  unfold TableView.step at room ⊢
  dsimp only at room ⊢
  rw [set_eq names] at room ⊢
  rcases pushes : w.push v with ⟨answer, w'⟩
  rw [pushes] at pushed room
  cases answer with
  | error e => exact pushed room
  | ok y =>
    have form : pulledForm w v = w'.pull y := by
      unfold pulledForm
      rw [pushes]
    obtain ⟨known, filled⟩ := known_of_push models.tallies pushes room
    dsimp only
    rw [form]
    exact (pushed room).store names known filled

/-- A table without entries holds the empty map. -/
lemma of_empty {metatable : Option Nat} (tallies : ∃ proxies, w.heap.Tallies proxies)
    (there : table < w.heap.tables.size)
    (empty : w.heap.table table = { entries := [], metatable }) :
    Models w table fun _ => .nil := by
  have reads (x : Value) : w.heap.rawGet table x = .nil := by
    unfold Heap.rawGet
    rw [empty]
    rfl
  refine ⟨tallies, there, ?_, fun e mem => ?_, fun x id found => ?_,
    fun x some => absurd (reads x) some, fun k x names => ?_⟩
  · rw [empty]
    exact .empty _
  · rw [empty] at mem
    cases mem
  · cases (reads x).symm.trans found
  · exact (congrArg w.pull (reads x)).symm

/-- A new table holds the empty map. -/
lemma create (tallies : ∃ proxies, w.heap.Tallies proxies) :
    Models (TableView.create w).2 (TableView.create w).1 fun _ => .nil := by
  obtain ⟨proxies, tallies⟩ := tallies
  have empty : (TableView.create w).2.heap.table (TableView.create w).1 = {} := by
    show (w.heap.newTable {}).2.table w.heap.tables.size = {}
    rw [Heap.table_newTable, if_pos rfl]
  exact of_empty ⟨proxies, tallies.quiet rfl rfl⟩
    (Nat.lt_of_lt_of_eq (Nat.lt_succ_self _) (Array.size_push _).symm) empty

/-- A table that was cleared holds the empty map. -/
lemma clear (models : Models w table m) : Models (TableView.clear w table) table fun _ => .nil := by
  obtain ⟨proxies, tallies⟩ := models.tallies
  have empty : (TableView.clear w table).heap.table table
      = { w.heap.table table with entries := [] } := by
    unfold TableView.clear
    rw [Heap.table_setTable w.heap _ models.there, if_pos rfl]
  exact of_empty ⟨proxies, tallies.quiet rfl rfl⟩
    (Nat.lt_of_lt_of_eq models.there Array.size_setIfInBounds.symm) empty

/-- What a use does to the table, it does to the map. -/
lemma step (models : Models w table m) {u : Use} (keyed : u.IsKeyed)
    (room : (TableView.step table (w, m) u).1.heap.handles.slots.size ≤ UInt32.size) :
    Models (TableView.step table (w, m) u).1 table (TableView.step table (w, m) u).2 := by
  cases u with
  | get k =>
    unfold TableView.step at room ⊢
    dsimp only at room ⊢
    rw [get_world] at room ⊢
    exact models.push k room
  | contains k =>
    unfold TableView.step at room ⊢
    dsimp only at room ⊢
    rw [contains_world] at room ⊢
    exact models.push k room
  | size => exact models
  | pairs => exact models
  | set k v =>
    rcases keyed with ⟨x, names⟩ | refused
    · exact models.set names room
    · obtain ⟨e, refused⟩ := (push_error_iff w.heap k).2 refused
      unfold TableView.step at room ⊢
      dsimp only at room ⊢
      rw [set_refused (w := w) refused] at room ⊢
      exact models.push k room
  | remove k =>
    unfold TableView.step at room ⊢
    dsimp only at room ⊢
    rcases keyed with ⟨x, names⟩ | refused
    · rw [remove_eq names]
      exact models.store names (fun _ => Value.noConfusion) fun some => absurd rfl some
    · obtain ⟨e, refused⟩ := (push_error_iff w.heap k).2 refused
      rw [remove_refused (w := w) refused] at room ⊢
      exact models.push k room
  | clear => exact models.clear

/-- An entry is pulled as a key and what the map has under it. -/
lemma entry (models : Models w table m) {e : Value × Value}
    (mem : e ∈ (w.heap.table table).entries) :
    Names (w.pull e.1) e.1 ∧ w.pull e.2 = m (w.pull e.1) ∧ w.pull e.2 ≠ .nil := by
  obtain ⟨k, names⟩ := models.named e mem
  have pulled : Names (w.pull e.1) e.1 := names.pull w.heap
  obtain ⟨read, some⟩ := (models.listed.mem_iff names.key).1 mem
  have found : w.heap.rawGet table e.1 = e.2 := read
  have filled := models.filled e.1
  rw [found] at filled
  refine ⟨pulled, ?_, filled some⟩
  rw [models.reads _ _ pulled, found]

end Models

section Runs

variable {w : World} {table : Nat} {m : Contents}

lemma slots_le_set (w : World) (table : Nat) (k v : HostValue) :
    w.heap.handles.slots.size ≤ (set w table k v).2.heap.handles.slots.size := by
  have first := slots_le_push w.heap k
  unfold set
  rcases pushes : w.push k with ⟨answer, w'⟩
  obtain rfl : (w.push k).2 = w' := congrArg Prod.snd pushes
  cases answer with
  | error e => exact first
  | ok x =>
    have second := Nat.le_trans first (slots_le_push (w.push k).2.heap v)
    dsimp only
    split
    · rename_i eq
      rw [show (w.push k).2.heap = (Bridge.push w.heap k).2 from rfl] at second
      rw [← show ((w.push k).2.push v).2 = _ from congrArg Prod.snd eq]
      exact second
    · rename_i y w'' eq
      obtain rfl : ((w.push k).2.push v).2 = w'' := congrArg Prod.snd eq
      split <;> exact second

lemma slots_le_remove (w : World) (table : Nat) (k : HostValue) :
    w.heap.handles.slots.size ≤ (remove w table k).2.heap.handles.slots.size := by
  have first := slots_le_push w.heap k
  unfold remove
  rcases pushes : w.push k with ⟨answer, w'⟩
  obtain rfl : (w.push k).2 = w' := congrArg Prod.snd pushes
  cases answer with
  | error e => exact first
  | ok x =>
    dsimp only
    split <;> exact first

lemma slots_le_step (w : World) (m : Contents) (u : Use) :
    w.heap.handles.slots.size ≤ (step table (w, m) u).1.heap.handles.slots.size := by
  cases u with
  | get k =>
    show _ ≤ (get w table k).2.heap.handles.slots.size
    rw [get_world]
    exact slots_le_push w.heap k
  | contains k =>
    show _ ≤ (contains w table k).2.heap.handles.slots.size
    rw [contains_world]
    exact slots_le_push w.heap k
  | set k v =>
    have more := slots_le_set w table k v
    unfold step
    dsimp only
    split <;> rename_i eq <;> rw [eq] at more <;> exact more
  | remove k =>
    have more := slots_le_remove w table k
    unfold step
    dsimp only
    split <;> rename_i eq <;> rw [eq] at more <;> exact more
  | _ => exact Nat.le_refl _

lemma slots_le_foldl (uses : List Use) (s : World × Contents) :
    s.1.heap.handles.slots.size
      ≤ (uses.foldl (step table) s).1.heap.handles.slots.size := by
  induction uses generalizing s with
  | nil => exact Nat.le_refl _
  | cons u rest ih => exact Nat.le_trans (slots_le_step s.1 s.2 u) (ih _)

/-- So do uses in a row. -/
lemma Models.foldl (models : Models w table m) {uses : List Use}
    (keyed : ∀ u ∈ uses, u.IsKeyed)
    (room : (uses.foldl (TableView.step table) (w, m)).1.heap.handles.slots.size ≤ UInt32.size) :
    Models (uses.foldl (TableView.step table) (w, m)).1 table
      (uses.foldl (TableView.step table) (w, m)).2 := by
  induction uses generalizing w m with
  | nil => exact models
  | cons u rest ih =>
    have room' := Nat.le_trans (slots_le_foldl rest _) room
    exact ih (models.step (keyed u List.mem_cons_self) room')
      (fun u mem => keyed u (List.mem_cons_of_mem _ mem)) room

end Runs

end ScriptBridge.Session.TableView
