import ScriptBridge.Proofs.Emission
import ScriptBridge.Proofs.Session

/-!
# The handlers of an event

Whatever runs, the handlers of an event change as a plain list does: a subscription puts a handler
at the end, and taking one back removes its first occurrence. An emission calls those that were
there when it began.
-/

namespace ScriptBridge

/-- Whether what is written goes to the data. -/
def Access.isStored : Access → Bool
  | .plain | .strict => true
  | _ => false

end ScriptBridge

namespace ScriptBridge.Bridge

open Script Store

/-- A change to a list of handlers. -/
inductive HandlerChange
  | add (f : Routine)
  | remove (f : Routine)
deriving DecidableEq

namespace HandlerChange

/-- The list after a change. -/
def apply (hs : List Routine) : HandlerChange → List Routine
  | add f => hs ++ [f]
  | remove f => hs.erase f

/-- What asking the source of an event for a change gives: the answer, and the source then. -/
def ask (source : EventSource) : HandlerChange → HostValue × EventSource
  | add f => (.nil, source.add f)
  | remove f => (.bool (source.remove f).1, (source.remove f).2)

/-- A list is changed into another one, with an answer. -/
inductive Answers : HandlerChange → List Routine → HostValue → List Routine → Prop
  | added (f : Routine) (hs : List Routine) : Answers (add f) hs .nil (hs ++ [f])
  /-- The first occurrence is removed. -/
  | removed {f : Routine} {before after : List Routine} (first : f ∉ before) :
      Answers (remove f) (before ++ f :: after) (.bool true) (before ++ after)
  | missed {f : Routine} {hs : List Routine} (absent : f ∉ hs) :
      Answers (remove f) hs (.bool false) hs

end HandlerChange

/-- What an accessor does to the handlers of an event, unless it is refused. -/
def changeBy (s : Store) (target : Option HostObject) :
    Accessor → Option (Holder × String × HandlerChange)
  | .subscribe e f =>
    if (e.item.refusal.getD .plain).isStored
        && s.admits e.item.borrow (holderOf target e.owner) then
      some (holderOf target e.owner, e.item.name, .add f)
    else none
  | .unsubscribe e f =>
    if s.admits e.item.borrow (holderOf target e.owner) then
      some (holderOf target e.owner, e.item.name, .remove f)
    else none
  | _ => none

section Sources

variable (source : EventSource)

/-- A source is as long as the list that it stands for. -/
lemma size_snapshot : source.size = source.snapshot.length :=
  Array.length_toList.symm

lemma findIdx?_handlers (f : Routine) :
    source.handlers.findIdx? (· == f) = source.snapshot.findIdx? (· == f) := by
  have listed := List.findIdx?_toArray (p := (· == f)) (l := source.snapshot)
  unfold EventSource.snapshot at listed ⊢
  rwa [Array.toArray_toList] at listed

/-- The first registration that is found is that of the list, which is taken out of it. -/
lemma remove_found {f : Routine} {i : Nat}
    (found : source.snapshot.findIdx? (· == f) = some i) :
    (source.remove f).1 = true ∧ (source.remove f).2.snapshot = source.snapshot.eraseIdx i := by
  unfold EventSource.remove
  rw [findIdx?_handlers, found]
  exact ⟨rfl, Array.toList_eraseIdxIfInBounds⟩

lemma remove_missed {f : Routine} (missed : source.snapshot.findIdx? (· == f) = none) :
    source.remove f = (false, source) := by
  unfold EventSource.remove
  rw [findIdx?_handlers, missed]

/-- Asking a source comes to changing the list. -/
lemma snapshot_ask (c : HandlerChange) :
    (c.ask source).2.snapshot = c.apply source.snapshot := by
  cases c with
  | add f => exact Array.toList_push
  | remove f =>
    show (source.remove f).2.snapshot = source.snapshot.erase f
    rw [List.erase_eq_eraseP', List.eraseP_eq_eraseIdx]
    cases place : source.snapshot.findIdx? (· == f) with
    | some i => exact (remove_found source place).2
    | none => rw [remove_missed source place]

/-- The answer tells what was done. -/
lemma answers_ask (c : HandlerChange) :
    c.Answers source.snapshot (c.ask source).1 (c.apply source.snapshot) := by
  cases c with
  | add f => exact .added f source.snapshot
  | remove f =>
    show HandlerChange.Answers _ _ (.bool (source.remove f).1) (source.snapshot.erase f)
    by_cases mem : f ∈ source.snapshot
    · have found : ∃ i, source.snapshot.findIdx? (· == f) = some i := by
        rw [← Option.isSome_iff_exists, List.findIdx?_isSome]
        exact List.any_eq_true.2 ⟨f, mem, beq_self_eq_true f⟩
      obtain ⟨i, found⟩ := found
      obtain ⟨before, after, first, eq, erased⟩ := List.exists_erase_eq mem
      rw [(remove_found source found).1, erased, eq]
      exact .removed first
    · have missed : source.snapshot.findIdx? (· == f) = none :=
        List.findIdx?_eq_none_iff.2 fun g there =>
          beq_false_of_ne fun same => mem (same ▸ there)
      rw [remove_missed source missed, List.erase_of_not_mem mem]
      exact .missed mem

end Sources

section Changes

variable {s : Store} {holder : Holder} {event : String} {c : HandlerChange}

lemma written_keeps {a : Access} {plain : Except HostFailure Store}
    (kept : ∀ s', plain = .ok s' → s.KeepsHandlers s') :
    s.KeepsHandlers (written s (writeThrough a plain s)).2 := by
  have stored : s.KeepsHandlers (written s plain).2 := by
    cases plain with
    | ok s' => exact kept s' rfl
    | error failure => exact .refl s
  cases a <;> first | exact stored | exact .refl s

lemma admits_addLog (s : Store) (entry : LogEntry) (mode : BorrowMode) (holder : Holder) :
    (s.addLog entry).admits mode holder = s.admits mode holder := by
  cases holder <;> cases mode <;> rfl

lemma record_addLog (s : Store) (entry : LogEntry) (holder : Holder) :
    (s.addLog entry).record holder = s.record holder := by
  cases holder <;> rfl

lemma handlers_addLog (s : Store) (entry : LogEntry) (holder : Holder) (event : String) :
    (s.addLog entry).handlers holder event = s.handlers holder event :=
  congrArg (fun r => (r.source event).snapshot) (record_addLog s entry holder)

/-- Data that may be borrowed so is reached after the log was written. -/
lemma reach_addLog {mode : BorrowMode} (free : s.admits mode holder = true) (entry : LogEntry) :
    (s.addLog entry).reach mode holder = .ok (s.record holder) :=
  (reach_of_admits ((admits_addLog s entry mode holder).trans free)).trans
    (congrArg _ (record_addLog s entry holder))

lemma writeThrough_stored {a : Access} (stored : a.isStored = true)
    (plain : Except HostFailure Store) (s : Store) : writeThrough a plain s = plain := by
  cases a <;> first | rfl | cases stored

lemma writeThrough_refused {a : Access} (refused : a.isStored = false)
    (plain : Except HostFailure Store) (s : Store) :
    (written s (writeThrough a plain s)).2 = s := by
  cases a <;> first | rfl | cases refused

/-- What is not refused is asked of the source of the event, after it was logged. -/
lemma runAccessor_change (h : Heap) {target : Option HostObject} {accessor : Accessor}
    (change : changeBy s target accessor = some (holder, event, c)) :
    ∃ entry, runAccessor h s target accessor
      = (.ok (c.ask ((s.record holder).source event)).1,
          (s.addLog entry).setSource holder event (c.ask ((s.record holder).source event)).2) := by
  cases accessor with
  | subscribe e f =>
    obtain ⟨allowed, change⟩ := Option.ite_none_right_eq_some.1 change
    obtain ⟨stored, free⟩ := Bool.and_eq_true_iff.1 allowed
    cases change
    refine ⟨.subscribe e.item.name (s.snapshotSelf h target), ?_⟩
    unfold runAccessor
    dsimp only
    rw [writeThrough_stored stored, reach_addLog free]
    rfl
  | unsubscribe e f =>
    obtain ⟨free, change⟩ := Option.ite_none_right_eq_some.1 change
    cases change
    refine ⟨.unsubscribe e.item.name (s.snapshotSelf h target), ?_⟩
    unfold runAccessor
    dsimp only
    rw [reach_addLog free]
    rfl
  | _ => cases change

/-- Whatever else an accessor does, it leaves the handlers alone. -/
lemma runAccessor_keeps (h : Heap) {target : Option HostObject} {accessor : Accessor}
    (change : changeBy s target accessor = none) :
    s.KeepsHandlers (runAccessor h s target accessor).2 := by
  cases accessor with
  | getField f =>
    unfold runAccessor
    dsimp only
    split
    · exact .refl s
    · exact .addLog s _
  | setField f v =>
    exact (KeepsHandlers.addLog s _).trans <| written_keeps fun s' =>
      .write (f := (·.setField f.item.name v)) fun _ => rfl
  | getProperty p get index => exact .addLog s _
  | setProperty p set index v =>
    exact (KeepsHandlers.addLog s _).trans <| written_keeps fun s' =>
      .write (f := (·.setCell p.item.name index v)) fun _ => rfl
  | subscribe e f =>
    refine (KeepsHandlers.addLog s (.subscribe e.item.name (s.snapshotSelf h target))).trans ?_
    by_cases stored : (e.item.refusal.getD .plain).isStored = true
    · refine written_keeps fun s' done => ?_
      obtain ⟨r, reached, -⟩ := map_eq_ok.1 done
      have free := (admits_addLog s _ _ _).symm.trans (reach_eq_ok reached).1
      cases (if_pos (Bool.and_eq_true_iff.2 ⟨stored, free⟩)).symm.trans change
    · exact .of_eq (.refl _) (writeThrough_refused (Bool.eq_false_iff.2 stored) _ _)
  | unsubscribe e f =>
    refine (KeepsHandlers.addLog s (.unsubscribe e.item.name (s.snapshotSelf h target))).trans ?_
    unfold runAccessor
    dsimp only
    split
    · exact .refl _
    · rename_i r reached
      have free := (admits_addLog s _ _ _).symm.trans (reach_eq_ok reached).1
      cases (if_pos free).symm.trans change

lemma has_setSource (there : s.Has holder) (holder' : Holder) (event : String)
    (source : EventSource) : (s.setSource holder' event source).Has holder :=
  there.mono (Nat.le_of_eq (instances_update s holder' _).symm)

/-- A source that is put in place is that of the one event where it was put. -/
lemma handlers_setSource {holder' : Holder} (there : s.Has holder) (event' : String)
    (source : EventSource) :
    (s.setSource holder' event' source).handlers holder event
      = if holder'.source = holder.source ∧ event' = event then source.snapshot
        else s.handlers holder event := by
  unfold Store.handlers Store.setSource
  by_cases same : holder'.source = holder.source
  · rw [record_update (there.congr same), if_pos same.symm, record_congr same]
    show EventSource.snapshot (((Record.setNamed _ _ _).find? event).getD {}) = _
    rw [Record.find?_setNamed]
    by_cases here : event' = event
    · rw [if_pos here.symm, if_pos ⟨same, here⟩]
      rfl
    · rw [if_neg (Ne.symm here), if_neg fun both => here both.2]
      rfl
  · rw [if_neg fun both => same both.1]
    by_cases there' : s.Has holder'
    · rw [record_update there', if_neg (Ne.symm same)]
    · rw [update_missing there']

/-- What asking one event for a change does to the handlers of an event. -/
lemma handlers_asked (there : s.Has holder) (entry : LogEntry) (holder' : Holder)
    (event' : String) (c : HandlerChange) :
    ((s.addLog entry).setSource holder' event'
        (c.ask ((s.record holder').source event')).2).handlers holder event
      = if holder'.source = holder.source ∧ event' = event then c.apply (s.handlers holder event)
        else s.handlers holder event := by
  have there' : (s.addLog entry).Has holder := there.mono (Nat.le_refl _)
  refine (handlers_setSource there' event' _).trans ?_
  rw [handlers_addLog, snapshot_ask]
  split
  · rename_i here
    rw [record_congr here.1, here.2]
    rfl
  · rfl

end Changes

end ScriptBridge.Bridge

namespace ScriptBridge.Machine

open Script Bridge Store

/-- The change that a machine is about to make to the handlers of an event. -/
def change? (m : Machine) : Option (Holder × String × HandlerChange) :=
  match m.control with
  | .host (.access target _ accessor) _ => changeBy m.world.store target.object? accessor
  | _ => none

/-- The changes that the next step makes to the handlers of one event. -/
def changesAt (holder : Holder) (event : String) (m : Machine) : List HandlerChange :=
  match m.change? with
  | some (holder', event', c) =>
    if holder'.source = holder.source ∧ event' = event then [c] else []
  | none => []

/-- The changes that a run makes to the handlers of one event, whoever makes them. -/
def changes (holder : Holder) (event : String) : Nat → Machine → List HandlerChange
  | 0, _ => []
  | fuel + 1, m => changesAt holder event m ++
    match step m with
    | .running m' => changes holder event fuel m'
    | .halted .. => []

section Runs

variable {m : Machine} {holder : Holder} {event : String} {c : HandlerChange}

/-- A step that makes no change leaves all handlers alone. -/
lemma step_unchanged (same : m.change? = none) : m.world.store.KeepsHandlers (step m).store := by
  refine step_keeps m fun target name accessor finish control => ?_
  unfold change? at same
  rw [control] at same
  exact runAccessor_keeps m.heap same

/-- A change is made in one step, and what it comes to is handed to whoever asked for it. -/
lemma step_change (change : m.change? = some (holder, event, c)) :
    ∃ code finish entry m', m.control = .host code finish ∧
      step m = .running
        (deliverAs m' finish (c.ask ((m.world.store.record holder).source event)).1) ∧
      m'.world.store = (m.world.store.addLog entry).setSource holder event
        (c.ask ((m.world.store.record holder).source event)).2 := by
  unfold change? at change
  split at change
  · rename_i target name accessor finish control
    obtain ⟨entry, ran⟩ := runAccessor_change m.heap change
    refine ⟨.access target name accessor, finish, entry, m.withStore ((m.world.store.addLog
      entry).setSource holder event (c.ask _).2), control, ?_, rfl⟩
    unfold step runHost
    rw [control]
    dsimp only
    rw [ran]
  · cases change

/-- Handing a value over leaves all handlers alone. -/
lemma deliverAs_keeps (m : Machine) (finish : Finish) (v : HostValue) :
    m.world.store.KeepsHandlers (deliverAs m finish v).world.store :=
  (deliverAs_ordinary (.refl m) finish v).world.keepsHandlers

/-- In a step the handlers of an event change as a list does. -/
lemma step_handlers (there : m.world.store.Has holder) (event : String) :
    (step m).store.handlers holder event
      = (changesAt holder event m).foldl HandlerChange.apply
          (m.world.store.handlers holder event) ∧
    (step m).store.Has holder := by
  unfold changesAt
  cases change : m.change? with
  | none =>
    have kept := step_unchanged change
    exact ⟨kept.handlers holder event, there.mono kept.instances⟩
  | some made =>
    obtain ⟨holder', event', c⟩ := made
    obtain ⟨code, finish, entry, m', -, stepped, asked⟩ := step_change change
    rw [stepped]
    have kept := deliverAs_keeps m' finish (c.ask ((m.world.store.record holder').source event')).1
    rw [asked] at kept
    have logged : (m.world.store.addLog entry).Has holder := there.mono (Nat.le_refl _)
    refine ⟨(kept.handlers holder event).trans ?_,
      (has_setSource logged holder' event' _).mono kept.instances⟩
    rw [handlers_asked there]
    dsimp only
    split <;> rfl

/-- Over a run the handlers of an event change as a list does. -/
lemma run_handlers (there : m.world.store.Has holder) (event : String) (n : Nat) :
    (run n m).2.store.handlers holder event
      = (changes holder event n m).foldl HandlerChange.apply
          (m.world.store.handlers holder event) := by
  induction n generalizing m with
  | zero => rfl
  | succ n ih =>
    obtain ⟨next, there'⟩ := step_handlers there event
    unfold run changes
    rw [List.foldl_append, ← next]
    cases stepped : step m with
    | running m' =>
      rw [stepped] at there'
      exact ih there'
    | halted o w => rfl

end Runs

end ScriptBridge.Machine

namespace ScriptBridge.Session

open Script Bridge Machine

/-- Events are lists of handlers. A body that emits one calls the handlers that were there when it
began, in order and each with the one value, whatever they do to the event meanwhile, and ends after
the last one or with the error of the first one that raises. Over a run the handlers change as a
list that handlers are appended to and first occurrences are taken out of, and the source counts as
many. Who takes one out is told whether it was there. -/
theorem Visited.events_are_lists {m : Machine} (visited : Visited m) :
    (∀ e, emission? m = some e → ∀ fuel, e.Goes (hear m.stack.length fuel m)) ∧
    (∀ holder, m.world.store.Has holder → ∀ event n,
      (run n m).2.store.handlers holder event
        = (changes holder event n m).foldl HandlerChange.apply
            (m.world.store.handlers holder event) ∧
      (((run n m).2.store.record holder).source event).size
        = ((run n m).2.store.handlers holder event).length) ∧
    ∀ holder, m.world.store.Has holder → ∀ event c, m.change? = some (holder, event, c) →
      ∃ code finish answer m', m.control = .host code finish ∧
        step m = .running (deliverAs m' finish answer) ∧
        c.Answers (m.world.store.handlers holder event) answer
          (m'.world.store.handlers holder event) := by
  refine ⟨fun e begins fuel => visited.goes begins fuel,
    fun holder there event n => ⟨run_handlers there event n, size_snapshot _⟩,
    fun holder there event c change => ?_⟩
  obtain ⟨code, finish, entry, m', control, stepped, asked⟩ := step_change change
  refine ⟨code, finish, _, m', control, stepped, ?_⟩
  rw [asked, handlers_asked there, if_pos ⟨rfl, rfl⟩]
  exact answers_ask _ c

section Bench

/-- An event of the objects of a class; who changes its handlers borrows the object shared. -/
def rung : Event where
  name := "rung"
  isStatic := false
  hidden := false
  refusal := none
  borrow := .shared

/-- A method that emits it while the object is borrowed. -/
def ringing : Method where
  name := "ring"
  params := [⟨"strength", .int .i64, .input, none⟩]
  returns := some (.int .i64)
  isStatic := false
  hidden := false
  isExtension := false
  typeParams := 0
  label := "ring"
  body := .hold .shared (.emit "rung" (.slot 0))

def bell : HostType :=
  { meter with
    identity := 102, name := "Bell", home := "demo.Bell"
    members := { methods := [ringing], events := [rung] } }

def doorbell : HostObject :=
  ⟨1, bell⟩

def bellRinging : Userdata :=
  .methods (.object doorbell) "ring" [⟨bell, 0, ringing⟩]

def bellRung : Userdata :=
  .event (.object doorbell) ⟨bell, 0, rung⟩

lemma planRead_bell {r : Registry} (bare : r.extensionsFor = fun _ => []) :
    planRead r (.object doorbell) "ring" = .ok (.bound bellRinging) ∧
      planRead r (.object doorbell) "rung" = .ok (.bound bellRung) := by
  unfold planRead findMember
  rw [Registry.metadata_eq, bare]
  exact ⟨rfl, rfl⟩

/-- Scripts hold the object. -/
def bellBench : World :=
  (bench.push (.object doorbell)).2

lemma push_registry (w : World) (v : HostValue) : (w.push v).2.registry = w.registry :=
  rfl

lemma bellBench_bare : bellBench.registry.extensionsFor = fun _ => [] := by
  unfold bellBench
  rw [push_registry]
  exact bench_extensionsFor

/-- They have read the method of it. -/
def ringBench : World :=
  { bellBench.remember bell with heap := (bellBench.heap.newUserdata bellRinging).2 }

/-- They have read the event too. -/
def readBench : World :=
  { ringBench.remember bell with heap := (ringBench.heap.newUserdata bellRung).2 }

lemma reached_readBench : Reached readBench := by
  have bare := (Registry.remember_extensionsFor _ bell).trans bellBench_bare
  have held : bellBench.heap.target? (bellBench.heap.userdatum 0) = some (.object doorbell) := by
    rfl
  have held' : ringBench.heap.target? (ringBench.heap.userdatum 0) = some (.object doorbell) := by
    rfl
  have pushed : Reached bellBench := reached_bench.push (.object doorbell)
  have first : Reached ringBench := pushed.bound held (planRead_bell bare).1
  have bare' := (Registry.remember_extensionsFor _ bell).trans bare
  exact first.bound held' (planRead_bell bare').2

/-- A handler that takes the printing one out and puts another in. -/
def hushing : Closure where
  params := ["strength"]
  isVariadic := false
  body :=
    [.run (.invoke (.name "rung") "remove" [.name "print"]),
      .run (.invoke (.name "rung") "add" [.name "type"])]
  captured := [("rung", 0)]

/-- The event calls that handler and the printing one. -/
def rungStore : Store where
  instances := #[
    { cls := bell, data := { events := [("rung", ⟨#[.closure 0, .builtin .print]⟩)] } }]

/-- The handler is made, which has the event. -/
def withHushing (w : World) : World :=
  { w with heap := ((w.heap.newCell (.userdata 2)).2.newClosure hushing).2 }

def rungBench : World :=
  { withHushing readBench with store := rungStore }

lemma reached_withHushing {w : World} (h : Reached w) : Reached (withHushing w) :=
  h.heap_of_eq rfl

lemma reached_rungBench : Reached rungBench :=
  (reached_withHushing reached_readBench).act (.store rungStore)

def ring : Machine where
  world := rungBench
  control := .call (.userdata 1) [.int 5]

/-- The call of the method. -/
def ringCall : Invocation where
  member := ⟨bell, 0, ringing⟩
  group := "ring"
  cls := bell
  target := some doorbell
  slots := [.int 5]
  typeArgs := []

/-- The method has borrowed the object. -/
def ringBorrowed : Machine :=
  runBody (runHost ring (.method ringCall) (.results true)) ringing.body ringCall

/-- The body is about to emit the event. -/
def ringNow : Machine :=
  { ringBorrowed with control := .body (.emit "rung" (.slot 0)) ringCall }

lemma visited_ringNow : Visited ringNow :=
  ⟨rungBench, _, reached_rungBench, .call _ _,
    ((Runs.here : Runs ring ring).step rfl |>.step rfl).step rfl⟩

/-- The host takes the printing handler out. -/
def hush : Machine where
  world := rungBench
  control := .call (.function (.builtin .unsubscribe)) [.userdata 2, .function (.builtin .print)]

lemma visited_hush : ∃ m, Visited m ∧
    m.change? = some (.object doorbell, "rung", .remove (.builtin .print)) ∧
    m.world.store.handlers (.object doorbell) "rung" = [.closure 0, .builtin .print] ∧
    m.world.store.Has (.object doorbell) :=
  ⟨_, ⟨rungBench, _, reached_rungBench, .call _ _, (Runs.here : Runs hush hush).step rfl⟩,
    rfl, rfl, Nat.zero_lt_one⟩

/-- The handler takes the other one out before it was called, which then is called all the same,
but not with the next emission, and puts in one that is not called before. The object is borrowed
all the while. -/
theorem rung_while_hushed :
    ringNow.world.store.isBorrowed doorbell = true ∧
    (∃ e, emission? ringNow = some e ∧ e.handlers = [.closure 0, .builtin .print] ∧
      e.Goes (hear ringNow.stack.length 60 ringNow)) ∧
    (hear ringNow.stack.length 60 ringNow).calls
      = [(.function (.closure 0), [.int 5]), (.function (.builtin .print), [.int 5])] ∧
    changes (.object doorbell) "rung" 60 ringNow
      = [.remove (.builtin .print), .add (.builtin .type)] ∧
    (run 60 ringNow).2.store.handlers (.object doorbell) "rung" = [.closure 0, .builtin .type] ∧
    ∃ m answer m' finish, Visited m ∧ step m = .running (deliverAs m' finish answer) ∧
      (HandlerChange.remove (.builtin .print)).Answers [.closure 0, .builtin .print] answer
        (m'.world.store.handlers (.object doorbell) "rung") := by
  obtain ⟨goes, lists, -⟩ := Visited.events_are_lists visited_ringNow
  have made : changes (.object doorbell) "rung" 60 ringNow
      = [.remove (.builtin .print), .add (.builtin .type)] := by
    decide +kernel
  refine ⟨by decide +kernel, ⟨_, rfl, rfl, goes _ rfl 60⟩, by decide +kernel, made, ?_, ?_⟩
  · have there : ringNow.world.store.Has (.object doorbell) := Nat.zero_lt_one
    rw [(lists (.object doorbell) there "rung" 60).1, made]
    rfl
  · obtain ⟨m, visited, change, held, there⟩ := visited_hush
    obtain ⟨code, finish, answer, m', -, stepped, answers⟩ :=
      (Visited.events_are_lists visited).2.2 (.object doorbell) there "rung" _ change
    rw [held] at answers
    exact ⟨m, answer, m', finish, visited, stepped, answers⟩

end Bench

end ScriptBridge.Session
