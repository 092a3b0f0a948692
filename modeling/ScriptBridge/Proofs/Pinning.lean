import Mathlib.Tactic.Lemma
import ScriptBridge.Proofs.Effect
import ScriptBridge.Proofs.Reach

/-!
# One handle for each proxy

A heap tallies with a list of proxies when these are its userdata with handles and its handle table
keeps just their handles, each for the object or type that the proxy was made for. That stays so
whatever is pushed, run or collected, so the number of handles is that of the proxies left.
-/

namespace ScriptBridge.Script

open Bridge

/-- The proxy of an object or type. -/
def Pinned.proxy (pinned : Pinned) (handle : Handle) : Userdata :=
  match pinned with
  | .object _ => .object handle
  | .type _ => .type handle

/-- What the proxy of an object or type is pulled as. -/
def Pinned.value : Pinned → HostValue
  | .object o => .object o
  | .type t => .type t

/-- A proxy that was not collected. -/
structure Proxy where
  id : Nat
  handle : Handle
  pinned : Pinned

namespace Heap

/-- The userdata with handles are the proxies, and the handle table keeps their handles. -/
structure Tallies (h : Heap) (proxies : List Proxy) : Prop where
  ids : (proxies.map (·.id)).Nodup
  made : ∀ p ∈ proxies, h.userdata[p.id]? = some (p.pinned.proxy p.handle)
  all : ∀ id u, h.userdata[id]? = some u → u.handle?.isSome → ∃ p ∈ proxies, p.id = id
  table : h.handles.Keeps (proxies.map fun p => (p.handle, p.pinned))

/-- Collects a userdata; its handle is released in one way or another. -/
def collect (release : HandleTable Pinned → Handle → HandleTable Pinned) (h : Heap) (id : Nat) :
    Heap :=
  { h with
    handles := (h.userdatum id).handle?.elim h.handles (release h.handles)
    userdata := h.userdata.setIfInBounds id .released }

/-- Collects a userdata while the handle table is in use: the release of its handle waits. -/
def finalizeLater (h : Heap) (id : Nat) : Heap :=
  h.collect HandleTable.unpinLater id

lemma finalize_eq (h : Heap) (id : Nat) : h.finalize id = h.collect HandleTable.unpin id := by
  unfold finalize collect
  cases h.userdatum id <;> rfl

namespace Tallies

variable {h h' : Heap} {proxies : List Proxy} {made : Ledger} {pinned : Pinned}

lemma start (userdata : h.userdata = #[]) (handles : h.handles = {}) : h.Tallies [] where
  ids := List.nodup_nil
  made _ mem := by cases mem
  all id u found := by
    rw [userdata] at found
    cases found
  table := handles ▸ .of_holds .start rfl

lemma quiet (tallies : h.Tallies proxies) (userdata : h'.userdata = h.userdata)
    (handles : h'.handles = h.handles) : h'.Tallies proxies where
  ids := tallies.ids
  made := userdata ▸ tallies.made
  all := userdata ▸ tallies.all
  table := handles ▸ tallies.table

lemma lt_size (tallies : h.Tallies proxies) {p : Proxy} (mem : p ∈ proxies) :
    p.id < h.userdata.size :=
  (Array.getElem?_eq_some_iff.1 (tallies.made p mem)).1

/-- A userdata made now is a proxy of the list, if it has a handle. -/
lemma push (tallies : h.Tallies proxies) {u : Userdata} {more : List Proxy}
    (made : ∀ p ∈ more, p.id = h.userdata.size ∧ p.pinned.proxy p.handle = u)
    (all : u.handle?.isSome → ∃ p ∈ more, p.id = h.userdata.size) :
    (∀ p ∈ proxies ++ more, (h.userdata.push u)[p.id]? = some (p.pinned.proxy p.handle)) ∧
      ∀ id u', (h.userdata.push u)[id]? = some u' → u'.handle?.isSome →
        ∃ p ∈ proxies ++ more, p.id = id := by
  constructor
  · intro p mem
    rcases List.mem_append.1 mem with old | new
    · have differs : p.id ≠ h.userdata.size := Nat.ne_of_lt (tallies.lt_size old)
      rw [Array.getElem?_push, if_neg differs]
      exact tallies.made p old
    · obtain ⟨id, eq⟩ := made p new
      rw [Array.getElem?_push, if_pos id, eq]
  · intro id u' found handle
    rw [Array.getElem?_push] at found
    split at found
    · cases found
      obtain ⟨p, mem, id'⟩ := all handle
      exact ⟨p, List.mem_append_right proxies mem, by omega⟩
    · obtain ⟨p, mem, id'⟩ := tallies.all id u' found handle
      exact ⟨p, List.mem_append_left more mem, id'⟩

lemma other (tallies : h.Tallies proxies) {u : Userdata} (none : u.handle? = none) :
    (h.newUserdata u).2.Tallies proxies := by
  have empty : ∀ p ∈ ([] : List Proxy), p.id = h.userdata.size ∧ p.pinned.proxy p.handle = u :=
    fun p mem => by cases mem
  obtain ⟨made, all⟩ := tallies.push empty fun handle => by simp [none] at handle
  rw [List.append_nil] at made all
  exact ⟨tallies.ids, made, all, tallies.table⟩

/-- Pinning a value makes one proxy, which holds a handle of its own. -/
lemma pin (tallies : h.Tallies proxies) (pinned : Pinned)
    (room : (h.handles.pin pinned).2.slots.size ≤ UInt32.size) :
    ({ h with handles := (h.handles.pin pinned).2 }.newUserdata
      (pinned.proxy (h.handles.pin pinned).1)).2.Tallies
      (proxies ++ [Proxy.mk h.userdata.size (h.handles.pin pinned).1 pinned]) := by
  have new : ∀ p ∈ [Proxy.mk h.userdata.size (h.handles.pin pinned).1 pinned],
      p.id = h.userdata.size ∧
        p.pinned.proxy p.handle = pinned.proxy (h.handles.pin pinned).1 := by
    intro p mem
    rw [List.mem_singleton.1 mem]
    exact ⟨rfl, rfl⟩
  obtain ⟨made, all⟩ := tallies.push new fun _ => ⟨_, List.mem_cons_self, rfl⟩
  refine ⟨?_, made, all, ?_⟩
  · rw [List.map_append]
    refine List.nodup_append'.2 ⟨tallies.ids, List.nodup_singleton _, ?_⟩
    intro id old new
    obtain ⟨p, mem, rfl⟩ := List.mem_map.1 old
    exact Nat.ne_of_lt (tallies.lt_size mem) (List.mem_singleton.1 new)
  · rw [List.map_append]
    exact (tallies.table.pin pinned room).perm (List.perm_append_singleton _ _).symm

/-- Work adds the proxies that it makes. -/
theorem makes (tallies : h.Tallies proxies) (makes : h.Makes made h')
    (room : h'.handles.slots.size ≤ UInt32.size) :
    ∃ more : List Proxy, more.map (fun p => (p.id, p.pinned)) = made ∧
      h'.Tallies (proxies ++ more) := by
  induction makes generalizing proxies with
  | quiet userdata handles =>
    exact ⟨[], rfl, (List.append_nil proxies).symm ▸ tallies.quiet userdata handles⟩
  | object h o => exact ⟨_, rfl, tallies.pin (.object o) room⟩
  | type h t => exact ⟨_, rfl, tallies.pin (.type t) room⟩
  | other h none => exact ⟨[], rfl, (List.append_nil proxies).symm ▸ tallies.other none⟩
  | trans _ second ih ih' =>
    obtain ⟨more, rfl, tallies⟩ := ih tallies (Nat.le_trans second.slots_le room)
    obtain ⟨more', rfl, tallies⟩ := ih' tallies room
    refine ⟨more ++ more', List.map_append, ?_⟩
    rw [← List.append_assoc]
    exact tallies

/-- The handle of a userdata is kept for the proxy that the userdata is. -/
lemma handle_eq (tallies : h.Tallies proxies) {p : Proxy} (mem : p ∈ proxies) :
    (h.userdatum p.id).handle? = some p.handle := by
  unfold userdatum
  rw [tallies.made p mem]
  cases p.pinned <;> rfl

lemma handle?_eq_none (tallies : h.Tallies proxies) {id : Nat}
    (others : ∀ p ∈ proxies, p.id ≠ id) : (h.userdatum id).handle? = none := by
  unfold userdatum
  cases found : h.userdata[id]? with
  | none => rfl
  | some u =>
    by_contra handle
    obtain ⟨p, mem, same⟩ := tallies.all id u found (Option.isSome_iff_ne_none.2 handle)
    exact others p mem same

/-- Collecting a userdata takes a proxy off the list, if it is one. -/
lemma collect (tallies : h.Tallies proxies)
    {release : HandleTable Pinned → Handle → HandleTable Pinned}
    (releases : ∀ t held handle pinned, HandleTable.Keeps t ((handle, pinned) :: held) →
      (release t handle).Keeps held) (id : Nat) :
    (h.collect release id).Tallies (proxies.filter (·.id ≠ id)) where
  ids := tallies.ids.sublist (List.filter_sublist.map _)
  made p mem := by
    obtain ⟨mem, differs⟩ := List.mem_filter.1 mem
    have differs : p.id ≠ id := of_decide_eq_true differs
    show (h.userdata.setIfInBounds id .released)[p.id]? = _
    rw [Array.getElem?_setIfInBounds_ne differs.symm]
    exact tallies.made p mem
  all other u found handle := by
    rw [Heap.collect, Array.getElem?_setIfInBounds] at found
    split at found
    · split at found
      · cases found
        cases handle
      · cases found
    · rename_i differs
      obtain ⟨p, mem, rfl⟩ := tallies.all other u found handle
      exact ⟨p, List.mem_filter.2 ⟨mem, decide_eq_true (Ne.symm differs)⟩, rfl⟩
  table := by
    by_cases found : ∃ p ∈ proxies, p.id = id
    · obtain ⟨p, mem, rfl⟩ := found
      have same := (perm_cons_filter tallies.ids mem).map fun p => (p.handle, p.pinned)
      rw [Heap.collect, tallies.handle_eq mem]
      exact releases _ _ _ _ (tallies.table.perm same)
    · have others : ∀ p ∈ proxies, p.id ≠ id := fun p mem same => found ⟨p, mem, same⟩
      have all : proxies.filter (·.id ≠ id) = proxies :=
        List.filter_eq_self.2 fun p mem => decide_eq_true (others p mem)
      rw [Heap.collect, tallies.handle?_eq_none others, all]
      exact tallies.table

/-- A proxy is pulled as what it was made for. -/
lemma pull (tallies : h.Tallies proxies) {p : Proxy} (mem : p ∈ proxies) :
    Bridge.pull h (.userdata p.id) = p.pinned.value := by
  have held : (p.handle, p.pinned) ∈ proxies.map fun p => (p.handle, p.pinned) :=
    List.mem_map.2 ⟨p, mem, rfl⟩
  have resolved := tallies.table.resolve? held
  have userdatum : h.userdatum p.id = p.pinned.proxy p.handle := by
    unfold Heap.userdatum
    rw [tallies.made p mem]
    rfl
  unfold Bridge.pull Heap.target? Heap.pinned?
  dsimp only
  rw [userdatum]
  cases pinned : p.pinned with
  | object o =>
    rw [pinned] at resolved
    dsimp only [Pinned.proxy]
    rw [resolved]
    rfl
  | type t =>
    rw [pinned] at resolved
    dsimp only [Pinned.proxy]
    rw [resolved]
    rfl

/-- Whatever else is a userdata is pulled as nil. -/
lemma pull_eq_nil (tallies : h.Tallies proxies) {id : Nat} (others : ∀ p ∈ proxies, p.id ≠ id) :
    Bridge.pull h (.userdata id) = .nil := by
  have none := tallies.handle?_eq_none others
  unfold Bridge.pull Heap.target?
  dsimp only
  cases eq : h.userdatum id with
  | object handle =>
    rw [eq] at none
    cases none
  | type handle =>
    rw [eq] at none
    cases none
  | _ => rfl

/-- No two proxies hold the same handle. -/
lemma handles_nodup (tallies : h.Tallies proxies) : (proxies.map (·.handle)).Nodup := by
  have nodup := tallies.table.nodup
  rwa [List.map_map] at nodup

end Tallies

lemma slots_finalize (h : Heap) (id : Nat) :
    (h.finalize id).handles.slots.size = h.handles.slots.size := by
  unfold finalize
  split
  · exact (h.handles.unpin_frame _).1
  · exact (h.handles.unpin_frame _).1
  · rfl

lemma slots_finalizeLater (h : Heap) (id : Nat) :
    (h.finalizeLater id).handles.slots.size = h.handles.slots.size := by
  unfold finalizeLater collect
  cases (h.userdatum id).handle? <;> rfl

end Heap

end ScriptBridge.Script

namespace ScriptBridge.Machine

open Script Bridge

/-- A step makes proxies and collects none. -/
theorem step_makes (m : Machine) : ∃ made, m.heap.Makes made (step m).world.heap := by
  have effect := step_effect m
  have quiet {h : Heap} (same : h = m.heap) : ∃ made, m.heap.Makes made h :=
    ⟨[], same ▸ .refl h⟩
  generalize step m = p at effect
  cases effect with
  | works works => exact works.grows.makes
  | enters => exact quiet rfl
  | @starts thread args by_ control => exact quiet (resume_heap m thread args by_)
  | @ends thread by_ r above m' departs =>
    obtain ⟨w, t, becomes, -, world⟩ := departs.world
    have same : m'.heap = w.heap := by
      rw [Machine.heap, world]
      rfl
    rw [report_heap, same]
    exact becomes.grows.makes
  | halts => exact quiet rfl

end ScriptBridge.Machine

namespace ScriptBridge.Session

open Script Bridge Machine

/-- What a session does to a heap besides collecting userdata: values are pushed, and scripts and
host code run step by step. -/
inductive Work (h : Heap) : Heap → Prop
  | push (v : HostValue) : Work h (Bridge.push h v).2
  | pushMany (limit : Nat) (vs : List HostValue) : Work h (Bridge.pushMany limit h vs).2
  | step {m : Machine} (heap : m.heap = h) : Work h (Machine.step m).world.heap

/-- Work and collections in any order, with the proxies that were made and not collected. -/
inductive Pinning : Ledger → Heap → Prop
  | start {h : Heap} (userdata : h.userdata = #[]) (handles : h.handles = {}) : Pinning [] h
  | work {live made : Ledger} {h h' : Heap} (pinning : Pinning live h) (work : Work h h')
      (makes : h.Makes made h') : Pinning (live ++ made) h'
  | finalize {live : Ledger} {h : Heap} (pinning : Pinning live h) (id : Nat) :
      Pinning (live.filter (·.1 ≠ id)) (h.finalize id)
  | finalizeLater {live : Ledger} {h : Heap} (pinning : Pinning live h) (id : Nat) :
      Pinning (live.filter (·.1 ≠ id)) (h.finalizeLater id)

/-- The live proxies are pulled as what they were made for, and each has a handle of its own. -/
structure Exact (live : Ledger) (h : Heap) : Prop where
  /-- The live proxies are the userdata with handles. -/
  proxies : ∀ id, (h.userdatum id).handle?.isSome ↔ id ∈ live.map Prod.fst
  once : (live.map Prod.fst).Nodup
  apart : ∀ id id' handle, (h.userdatum id).handle? = some handle →
    (h.userdatum id').handle? = some handle → id = id'
  pulls : ∀ id (pinned : Pinned), (id, pinned) ∈ live → pull h (.userdata id) = pinned.value
  /-- Collecting one does not concern the others. -/
  others : ∀ id other, other ≠ id →
    pull (h.finalize id) (.userdata other) = pull h (.userdata other) ∧
      pull (h.finalizeLater id) (.userdata other) = pull h (.userdata other)
  counted : ∀ w : World, w.heap = h → pinnedHandles w = live.length

lemma Work.makes {h h' : Heap} (work : Work h h') : ∃ made, h.Makes made h' := by
  cases work with
  | push v =>
    obtain ⟨made, makes, -⟩ := push_pins h v
    exact ⟨made, makes⟩
  | pushMany limit vs =>
    obtain ⟨made, makes, -⟩ := pushMany_pins limit h vs
    exact ⟨made, makes⟩
  | step heap =>
    subst heap
    exact step_makes _

section Tallies

variable {h : Heap} {proxies : List Proxy}

lemma exists_of_handle? (tallies : h.Tallies proxies) {id : Nat}
    (handle : (h.userdatum id).handle?.isSome) : ∃ p ∈ proxies, p.id = id := by
  by_contra none
  have others : ∀ p ∈ proxies, p.id ≠ id := fun p mem same => none ⟨p, mem, same⟩
  rw [tallies.handle?_eq_none others] at handle
  cases handle

/-- Collecting a userdata leaves the proxies that are others. -/
lemma pull_collect (tallies : h.Tallies proxies)
    {release : HandleTable Pinned → Handle → HandleTable Pinned}
    (releases : ∀ t held handle pinned, HandleTable.Keeps t ((handle, pinned) :: held) →
      (release t handle).Keeps held) {id other : Nat} (differs : other ≠ id) :
    pull (h.collect release id) (.userdata other) = pull h (.userdata other) := by
  have left := tallies.collect releases id
  by_cases found : ∃ p ∈ proxies, p.id = other
  · obtain ⟨p, mem, rfl⟩ := found
    rw [tallies.pull mem]
    exact left.pull (List.mem_filter.2 ⟨mem, decide_eq_true differs⟩)
  · have others : ∀ p ∈ proxies, p.id ≠ other := fun p mem same => found ⟨p, mem, same⟩
    rw [tallies.pull_eq_nil others]
    exact left.pull_eq_nil fun p mem => others p (List.mem_filter.1 mem).1

lemma exact_of_tallies (tallies : h.Tallies proxies) :
    Exact (proxies.map fun p => (p.id, p.pinned)) h where
  proxies id := by
    rw [List.map_map]
    constructor
    · intro handle
      exact List.mem_map.2 (exists_of_handle? tallies handle)
    · intro mem
      obtain ⟨p, made, rfl⟩ := List.mem_map.1 mem
      rw [Function.comp_apply, tallies.handle_eq made]
      rfl
  once := by
    rw [List.map_map]
    exact tallies.ids
  apart id id' handle same same' := by
    obtain ⟨p, mem, rfl⟩ := exists_of_handle? tallies (Option.isSome_of_eq_some same)
    obtain ⟨p', mem', rfl⟩ := exists_of_handle? tallies (Option.isSome_of_eq_some same')
    rw [tallies.handle_eq mem] at same
    rw [tallies.handle_eq mem'] at same'
    have handles : p.handle = p'.handle := Option.some.inj (same.trans same'.symm)
    rw [List.inj_on_of_nodup_map tallies.handles_nodup mem mem' handles]
  pulls id pinned mem := by
    obtain ⟨p, made, eq⟩ := List.mem_map.1 mem
    cases eq
    exact tallies.pull made
  others id other differs := by
    rw [Heap.finalize_eq]
    exact ⟨pull_collect tallies (fun t held handle pinned => HandleTable.Keeps.unpin) differs,
      pull_collect tallies (fun t held handle pinned => HandleTable.Keeps.unpinLater) differs⟩
  counted w heap := by
    rw [pinnedHandles, heap, tallies.table.size, List.length_map, List.length_map]

end Tallies

namespace Pinning

variable {live : Ledger} {h : Heap}

/-- The handles kept are those of the live proxies. -/
lemma tallies (pinning : Pinning live h) (room : h.handles.slots.size ≤ UInt32.size) :
    ∃ proxies : List Proxy, proxies.map (fun p => (p.id, p.pinned)) = live ∧
      h.Tallies proxies := by
  have filtered (proxies : List Proxy) (id : Nat) :
      (proxies.filter (·.id ≠ id)).map (fun p => (p.id, p.pinned))
        = (proxies.map fun p => (p.id, p.pinned)).filter (·.1 ≠ id) := by
    rw [List.filter_map]
    rfl
  induction pinning with
  | start userdata handles => exact ⟨[], rfl, .start userdata handles⟩
  | work _ _ makes ih =>
    obtain ⟨proxies, rfl, tallies⟩ := ih (Nat.le_trans makes.slots_le room)
    obtain ⟨more, rfl, tallies⟩ := tallies.makes makes room
    exact ⟨proxies ++ more, List.map_append, tallies⟩
  | finalize _ id ih =>
    rw [Heap.slots_finalize] at room
    obtain ⟨proxies, rfl, tallies⟩ := ih room
    refine ⟨_, filtered proxies id, ?_⟩
    rw [Heap.finalize_eq]
    exact tallies.collect (fun t held handle pinned => HandleTable.Keeps.unpin) id
  | finalizeLater _ id ih =>
    rw [Heap.slots_finalizeLater] at room
    obtain ⟨proxies, rfl, tallies⟩ := ih room
    exact ⟨_, filtered proxies id,
      tallies.collect (fun t held handle pinned => HandleTable.Keeps.unpinLater) id⟩

/-- A new session has no proxies. -/
lemma create (options : Options) (registry : Registry) (types : List HostType) (engine : Engine) :
    Pinning [] (Session.create options registry types engine).heap := by
  have none : (Session.create options registry types engine).heap.userdata = #[] ∧
      (Session.create options registry types engine).heap.handles = {} :=
    create_induction (P := fun w => w.heap.userdata = #[] ∧ w.heap.handles = {}) options registry
      types engine ⟨rfl, rfl⟩ fun w library none => none
  exact .start none.1 none.2

lemma collectOnce {w : World} (pinning : Pinning live w.heap) (held : List HostValue) :
    ∃ left, left.Sublist live ∧ Pinning left (Machine.collectOnce w held).heap := by
  unfold Machine.collectOnce
  dsimp only
  generalize (List.range w.heap.userdata.size).filter _ = dead
  induction dead with
  | nil => exact ⟨live, List.Sublist.refl live, pinning⟩
  | cons id rest ih =>
    obtain ⟨left, sublist, pinning⟩ := ih
    exact ⟨_, List.filter_sublist.trans sublist, pinning.finalize id⟩

/-- A garbage collection leaves some of the proxies. -/
theorem collectGarbage {w : World} (pinning : Pinning live w.heap) (held : List HostValue) :
    ∃ left, left.Sublist live ∧ Pinning left (Machine.collectGarbage w held).heap := by
  obtain ⟨left, sublist, pinning⟩ := pinning.collectOnce held
  obtain ⟨left', sublist', pinning⟩ := pinning.collectOnce held
  exact ⟨left', sublist'.trans sublist, pinning⟩

/-- As long as 32 bits are enough to number the slots, there is exactly one handle for each proxy
that was made and not collected. Any work can follow, and what is pushed makes proxies for the
objects and types in it: for all of them, or for the first ones when it fails. -/
theorem exact (pinning : Pinning live h) (room : h.handles.slots.size ≤ UInt32.size) :
    Exact live h ∧ (∀ h', Work h h' → ∃ made, Pinning (live ++ made) h') ∧
      ∀ v, ∃ made, Pinning (live ++ made) (Bridge.push h v).2 ∧
        made.map Prod.snd <+: pins v ∧
        ∀ pushed, (Bridge.push h v).1 = .ok pushed → made.map Prod.snd = pins v := by
  obtain ⟨proxies, rfl, tallies⟩ := pinning.tallies room
  refine ⟨exact_of_tallies tallies, fun h' work => ?_, fun v => ?_⟩
  · obtain ⟨made, makes⟩ := work.makes
    exact ⟨made, pinning.work work makes⟩
  · obtain ⟨made, makes, before, all⟩ := push_pins h v
    exact ⟨made, pinning.work (.push v) makes, before, all⟩

/-- An array that fails to be pushed leaves a proxy of its object behind. Its handle is released
when the proxy is collected, and its slot goes to the next object. -/
theorem exact_again : Exact [(1, .object device)] (pushObject
    ((Bridge.push {} (.array [.object device, .big 1])).2.finalize 0) device).2 := by
  have pushed : Work {} (Bridge.push {} (.array [.object device, .big 1])).2 := .push _
  have first : Pinning [(0, .object device)] (Bridge.push {} (.array [.object device, .big 1])).2 :=
    (Pinning.start rfl rfl).work pushed (.object {} device)
  have second := (first.finalize 0).work (.push (.object device)) (.object _ device)
  exact (second.exact (by decide)).1

end Pinning

end ScriptBridge.Session
