import Mathlib.Tactic.Lemma
import ScriptBridge.Proofs.Deed
import ScriptBridge.Proofs.MemberTable

/-!
# What leaves the handlers of events alone

The data behind objects and classes is touched by host code alone. Of what else a step does, a hook
adds to the log and a body changes fields and who has borrowed what. Only the accessors of an event
change what handlers are subscribed.
-/

namespace ScriptBridge.Bridge

open Script

/-- Where the data of an object or a class is kept: objects by number, classes by name. -/
def Holder.source : Holder → Nat ⊕ String
  | .object o => .inl (o.id - 1)
  | .cls name => .inr name

/-- The object that holds data is there. -/
def Store.Has (s : Store) : Holder → Prop
  | .object o => o.id - 1 < s.instances.size
  | .cls _ => True

/-- Nobody who has borrowed the data keeps it from being borrowed so. -/
def Store.admits (s : Store) : BorrowMode → Holder → Bool
  | .shared, .object o => !s.isWriting o
  | .exclusive, .object o => !s.isBorrowed o
  | _, .cls _ => true

/-- The handlers of an event. -/
def Store.handlers (s : Store) (holder : Holder) (event : String) : List Routine :=
  ((s.record holder).source event).snapshot

/-- Every event has the handlers that it had, and no object is gone. -/
structure Store.KeepsHandlers (s s' : Store) : Prop where
  handlers : ∀ holder event, s'.handlers holder event = s.handlers holder event
  instances : s.instances.size ≤ s'.instances.size

namespace Record

lemma find?_setNamed {α : Type} (entries : Named α) (name other : String) (item : α) :
    (setNamed entries name item).find? other
      = if other = name then some item else entries.find? other := by
  induction entries with
  | nil => exact Named.find?_cons name item [] other
  | cons e rest ih =>
    obtain ⟨key, old⟩ := e
    unfold setNamed
    by_cases here : key = name
    · rw [if_pos (beq_iff_eq.2 here), Named.find?_cons, Named.find?_cons, here]
      split <;> rfl
    · rw [if_neg (by simpa using here), Named.find?_cons, Named.find?_cons, ih]
      by_cases first : other = key
      · have differs : other ≠ name := fun same => here (first.symm.trans same)
        rw [if_pos first, if_neg differs, if_pos first]
      · rw [if_neg first, if_neg first]

end Record

namespace Store

variable {s s' s'' : Store}

lemma instances_setInstance (s : Store) (o : HostObject) (i : Instance) :
    (s.setInstance o i).instances.size = s.instances.size :=
  Array.size_setIfInBounds

lemma lt_of_instance? {o : HostObject} {i : Instance} (found : s.instance? o = some i) :
    o.id - 1 < s.instances.size :=
  (Array.getElem?_eq_some_iff.1 found).1

lemma record_object {o : HostObject} {i : Instance} (found : s.instance? o = some i) :
    s.record (.object o) = i.data := by
  unfold record
  dsimp only
  rw [found]
  rfl

/-- Data is told by where it is kept. -/
lemma record_congr {holder holder' : Holder} (same : holder.source = holder'.source) :
    s.record holder = s.record holder' := by
  cases holder <;> cases holder' <;> simp_all [Holder.source, record, instance?]

lemma Has.congr {holder holder' : Holder} (there : s.Has holder)
    (same : holder'.source = holder.source) : s.Has holder' := by
  cases holder <;> cases holder' <;> simp_all [Holder.source, Has]

lemma Has.mono {holder : Holder} (there : s.Has holder)
    (more : s.instances.size ≤ s'.instances.size) : s'.Has holder := by
  cases holder with
  | object o => exact Nat.lt_of_lt_of_le there more
  | cls name => trivial

lemma record_setInstance {o : HostObject} (there : s.Has (.object o)) (i : Instance)
    (holder : Holder) : (s.setInstance o i).record holder
      = if holder.source = (Holder.object o).source then i.data else s.record holder := by
  cases holder with
  | object o' =>
    have found : (s.setInstance o i).instance? o'
        = if o'.id - 1 = o.id - 1 then some i else s.instance? o' := by
      unfold setInstance instance?
      rw [Array.getElem?_setIfInBounds]
      by_cases same : o'.id - 1 = o.id - 1
      · rw [if_pos same.symm, if_pos same, if_pos (show o.id - 1 < s.instances.size from there)]
      · rw [if_neg (Ne.symm same), if_neg same]
    by_cases same : (Holder.object o').source = (Holder.object o).source
    · rw [if_pos same]
      rw [if_pos (Sum.inl.inj same)] at found
      exact record_object found
    · rw [if_neg same]
      rw [if_neg fun eq => same (congrArg Sum.inl eq)] at found
      exact congrArg (fun i : Option Instance => (i.map (·.data)).getD {}) found
  | cls name => rfl

/-- Nothing is changed where there is no object. -/
lemma update_missing {holder : Holder} (missing : ¬ s.Has holder) (f : Record → Record) :
    s.update holder f = s := by
  cases holder with
  | object o =>
    have none : s.instance? o = none := Array.getElem?_eq_none (Nat.not_lt.1 missing)
    unfold update
    dsimp only
    rw [none]
  | cls name => exact absurd trivial missing

/-- Changing the data in one place changes it there alone. -/
lemma record_update {holder : Holder} (there : s.Has holder) (f : Record → Record)
    (holder' : Holder) : (s.update holder f).record holder'
      = if holder'.source = holder.source then f (s.record holder) else s.record holder' := by
  cases holder with
  | object o =>
    have found : s.instance? o = some s.instances[o.id - 1] := Array.getElem?_eq_getElem there
    unfold update
    dsimp only
    rw [found]
    dsimp only
    rw [record_setInstance there, record_object found]
  | cls name =>
    cases holder' with
    | object o => rfl
    | cls other =>
      unfold update record
      dsimp only
      rw [Record.find?_setNamed]
      by_cases same : (Holder.cls other).source = (Holder.cls name).source
      · rw [if_pos same, if_pos (Sum.inr.inj same)]
        rfl
      · rw [if_neg same, if_neg fun eq => same (congrArg Sum.inr eq)]

lemma instances_update (s : Store) (holder : Holder) (f : Record → Record) :
    (s.update holder f).instances.size = s.instances.size := by
  unfold update
  split
  · split
    · exact instances_setInstance s _ _
    · rfl
  · rfl

lemma reach_of_admits {mode : BorrowMode} {holder : Holder} (free : s.admits mode holder = true) :
    s.reach mode holder = .ok (s.record holder) := by
  cases holder with
  | object o =>
    have check : s.checkBorrow o mode = .ok () := by
      cases mode with
      | shared =>
        unfold checkBorrow checkReadable
        rw [show s.isWriting o = false by simpa [admits] using free]
        rfl
      | exclusive =>
        unfold checkBorrow checkWritable
        rw [show s.isBorrowed o = false by simpa [admits] using free]
        rfl
    show (s.checkBorrow o mode >>= fun _ => _) = _
    rw [check]
    rfl
  | cls name => rfl

lemma reach_eq_ok {mode : BorrowMode} {holder : Holder} {r : Record}
    (reached : s.reach mode holder = .ok r) :
    s.admits mode holder = true ∧ r = s.record holder := by
  cases free : s.admits mode holder with
  | true =>
    rw [reach_of_admits free] at reached
    cases reached
    exact ⟨rfl, rfl⟩
  | false =>
    cases holder with
    | object o =>
      have check : ∃ e, s.checkBorrow o mode = .error e := by
        cases mode with
        | shared =>
          unfold checkBorrow checkReadable
          rw [show s.isWriting o = true by simpa [admits] using free]
          exact ⟨_, rfl⟩
        | exclusive =>
          unfold checkBorrow checkWritable
          rw [show s.isBorrowed o = true by simpa [admits] using free]
          exact ⟨_, rfl⟩
      obtain ⟨e, check⟩ := check
      have refused : s.reach mode (.object o) = .error e := by
        show (s.checkBorrow o mode >>= fun _ => _) = _
        rw [check]
        rfl
      cases refused.symm.trans reached
    | cls name => cases mode <;> cases free

lemma write_eq_ok {holder : Holder} {f : Record → Record} (written : s.write holder f = .ok s') :
    s' = s.update holder f := by
  obtain ⟨r, -, written⟩ := bind_eq_ok.1 written
  cases written
  rfl

namespace KeepsHandlers

lemma refl (s : Store) : s.KeepsHandlers s :=
  ⟨fun _ _ => rfl, Nat.le_refl _⟩

lemma trans (first : s.KeepsHandlers s') (second : s'.KeepsHandlers s'') : s.KeepsHandlers s'' :=
  ⟨fun holder event => (second.handlers holder event).trans (first.handlers holder event),
    Nat.le_trans first.instances second.instances⟩

lemma of_eq (h : s.KeepsHandlers s') (same : s'' = s') : s.KeepsHandlers s'' :=
  same ▸ h

lemma addLog (s : Store) (entry : LogEntry) : s.KeepsHandlers (s.addLog entry) :=
  ⟨fun holder _ => by cases holder <;> rfl, Nat.le_refl _⟩

/-- Changes that do not concern events. -/
lemma update (s : Store) (holder : Holder) {f : Record → Record}
    (same : ∀ r, (f r).events = r.events) : s.KeepsHandlers (s.update holder f) := by
  by_cases there : s.Has holder
  · refine ⟨fun holder' event => ?_, Nat.le_of_eq (instances_update s holder f).symm⟩
    unfold Store.handlers
    rw [record_update there]
    split
    · rename_i here
      rw [record_congr here]
      unfold Record.source
      rw [same]
    · rfl
  · exact of_eq (refl s) (update_missing there f)

lemma write {holder : Holder} {f : Record → Record} (same : ∀ r, (f r).events = r.events)
    (written : s.write holder f = .ok s') : s.KeepsHandlers s' := by
  rw [write_eq_ok written]
  exact update s holder same

/-- Who borrows the data of an object is no matter to its events. -/
lemma setInstance {o : HostObject} {i i' : Instance} (found : s.instance? o = some i)
    (same : i'.data = i.data) : s.KeepsHandlers (s.setInstance o i') := by
  refine ⟨fun holder event => ?_, Nat.le_of_eq (instances_setInstance s o i').symm⟩
  unfold Store.handlers
  rw [record_setInstance (lt_of_instance? found), same, ← record_object found]
  split
  · rename_i here
    rw [record_congr here]
  · rfl

lemma giveBack (s : Store) (o : HostObject) (mode : BorrowMode) :
    s.KeepsHandlers (s.giveBack o mode) := by
  unfold Store.giveBack
  split
  · rename_i found
    exact setInstance found rfl
  · rename_i found
    exact setInstance found rfl
  · exact refl s

lemma borrow {o : HostObject} {mode : BorrowMode} (borrowed : s.borrow o mode = .ok s') :
    s.KeepsHandlers s' := by
  cases mode <;>
  · obtain ⟨_, -, borrowed⟩ := bind_eq_ok.1 borrowed
    cases found : s.instance? o with
    | none =>
      rw [found] at borrowed
      cases borrowed
      exact refl s
    | some i =>
      rw [found] at borrowed
      cases borrowed
      exact setInstance found rfl

/-- A new object has no handlers yet. -/
lemma newObject (s : Store) (cls : HostType) (fields : Named HostValue) :
    s.KeepsHandlers (s.newObject cls fields).2 := by
  refine ⟨fun holder event => ?_, ?_⟩
  · cases holder with
    | object o =>
      unfold Store.handlers record instance? Store.newObject
      dsimp only
      rw [Array.getElem?_push]
      split
      · rename_i last
        rw [last, Array.getElem?_eq_none (Nat.le_refl _)]
        rfl
      · rfl
    | cls name => rfl
  · exact Nat.le_of_lt (Nat.lt_of_lt_of_eq (Nat.lt_succ_self _) (Array.size_push _).symm)

end KeepsHandlers

end Store

end ScriptBridge.Bridge

namespace ScriptBridge.Machine

open Script Bridge

/-- The data after a step. -/
def Progress.store : Machine.Progress → Store
  | .running m => m.world.store
  | .halted _ w => w.store

section Bodies

variable {s : Store}

lemma ended_keeps {r : BodyEnd}
    (kept : ∀ v inv s', r = .ok (v, inv, s') → s.KeepsHandlers s') :
    s.KeepsHandlers (ended s r).2 := by
  cases r with
  | error failure => exact .refl s
  | ok r => exact kept r.1 r.2.1 r.2.2 rfl

lemma addToField_keeps {s' : Store} {o : HostObject} {name : String} {v total : HostValue}
    (added : addToField s o name v = .ok (total, s')) : s.KeepsHandlers s' := by
  obtain ⟨amount, -, added⟩ := bind_eq_ok.1 added
  obtain ⟨_, -, added⟩ := bind_eq_ok.1 added
  have sums (before : Int64) (added : (if IntKind.i64.holds (before.toInt + amount.toInt) then
        Except.ok (HostValue.int (Int64.ofInt (before.toInt + amount.toInt)),
          s.update (.object o) (·.setField name (.int (Int64.ofInt (before.toInt + amount.toInt)))))
      else .error (HostFailure.failed "counter overflow")) = .ok (total, s')) :
      s.KeepsHandlers s' := by
    split at added
    · cases added
      exact .update s _ fun _ => rfl
    · cases added
  dsimp only at added
  split at added
  · obtain ⟨before, -, added⟩ := bind_eq_ok.1 added
    exact sums before added
  · exact sums 0 added

/-- A body by itself changes fields at most, or makes an object. -/
lemma startBody_keeps (s : Store) (inv : Invocation) (b : Body) :
    s.KeepsHandlers (startBody s inv b).2 := by
  cases b with
  | construct fields => exact .newObject s _ _
  | constructSums fields =>
    refine ended_keeps fun v inv' s' ok => ?_
    obtain ⟨sums, -, ok⟩ := bind_eq_ok.1 ok
    cases ok
    exact .newObject s _ _
  | setData name v =>
    refine ended_keeps fun v inv' s' ok => ?_
    obtain ⟨o, -, ok⟩ := bind_eq_ok.1 ok
    obtain ⟨s'', written, ok⟩ := bind_eq_ok.1 ok
    cases ok
    exact .write (f := (·.setField name _)) (fun _ => rfl) written
  | addData name v =>
    refine ended_keeps fun v inv' s' ok => ?_
    obtain ⟨o, -, ok⟩ := bind_eq_ok.1 ok
    obtain ⟨⟨total, s''⟩, added, ok⟩ := bind_eq_ok.1 ok
    cases ok
    exact addToField_keeps added
  | getData name =>
    refine ended_keeps fun v inv' s' ok => ?_
    obtain ⟨o, -, ok⟩ := bind_eq_ok.1 ok
    obtain ⟨data, -, ok⟩ := bind_eq_ok.1 ok
    cases ok
    exact .refl s
  | borrowAsInteger =>
    refine ended_keeps fun v inv' s' ok => ?_
    obtain ⟨o, -, ok⟩ := bind_eq_ok.1 ok
    cases ok
  | fieldOf i name | convert i representation | typeArgumentName i | typeArgument i
  | targetClassName | target =>
    refine ended_keeps fun v inv' s' ok => ?_
    obtain ⟨found, -, ok⟩ := bind_eq_ok.1 ok
    cases ok
    exact .refl s
  | hold mode body =>
    rw [startBody]
    split
    · exact .refl s
    · split
      · rename_i borrowed
        exact .borrow borrowed
      · exact .refl s
  | emit event o =>
    rw [startBody]
    split
    · exact .refl s
    · split <;> exact .refl s
  | callBack i args =>
    rw [startBody]
    split <;> exact .refl s
  | environment i =>
    rw [startBody]
    split <;> exact .refl s
  | _ => exact .refl s

end Bodies

section Steps

variable {w w' : World}

lemma World.Alters.keepsHandlers (alters : w.Alters w') : w.store.KeepsHandlers w'.store := by
  cases alters with
  | logs entry => exact .addLog w.store entry
  | begins inv b => exact startBody_keeps w.store inv b
  | givesBack o mode => exact .giveBack w.store o mode
  | _ => exact .refl w.store

lemma World.Becomes.keepsHandlers (becomes : w.Becomes w') : w.store.KeepsHandlers w'.store := by
  induction becomes with
  | refl => exact .refl w.store
  | tail _ alters ih => exact ih.trans alters.keepsHandlers

lemma report_store (m : Machine) (thread : Nat) (by_ : Resumer) (handed : Handed) :
    (report m thread by_ handed).store = m.world.store := by
  cases by_ with
  | wrapper => cases handed <;> rfl
  | _ => rfl

lemma resume_store (m : Machine) (thread : Nat) (args : List Value) (by_ : Resumer) :
    (resume m thread args by_).world.store = m.world.store := by
  unfold resume
  dsimp only
  split <;> rfl

/-- A step keeps the handlers of events where the accessor does that it runs, if it runs one. -/
theorem step_keeps (m : Machine)
    (accessed : ∀ target name accessor finish,
      m.control = .host (.access target name accessor) finish →
        m.world.store.KeepsHandlers
          (runAccessor m.heap m.world.store target.object? accessor).2) :
    m.world.store.KeepsHandlers (step m).store := by
  have deed := step_deed m
  generalize step m = p at deed
  cases deed with
  | works awaited ordinary => exact awaited.world ▸ ordinary.world.keepsHandlers
  | asks awaited midway heap gives asked => exact awaited.world ▸ midway.world.keepsHandlers
  | binds awaited midway heap planned => exact midway.world.keepsHandlers
  | accesses control ordinary =>
    exact (accessed _ _ _ _ control).trans ordinary.world.keepsHandlers
  | fails control stack below world => exact world.keepsHandlers
  | replaces awaited dropped world control => exact world.keepsHandlers
  | catches => exact .refl _
  | enters control awaited world resumable => exact world.keepsHandlers
  | @starts thread args by_ control =>
    exact .of_eq (.refl _) (resume_store m thread args by_)
  | @departs thread by_ r above m' departs =>
    obtain ⟨w, t, becomes, -, world⟩ := departs.world
    have same : m'.world.store = w.store := by rw [world]; rfl
    exact becomes.keepsHandlers.of_eq ((report_store m' thread by_ r.handed).trans same)
  | halts => exact .refl _
  | escapes => exact .refl _

end Steps

end ScriptBridge.Machine
