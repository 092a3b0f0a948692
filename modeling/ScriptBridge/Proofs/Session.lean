import Mathlib.Tactic.Lemma
import ScriptBridge.Command
import ScriptBridge.Proofs.Reach
import ScriptBridge.Session.Coroutine
import ScriptBridge.Session.TableView

/-!
# Operations of a session

Every operation of a session leads from reached worlds to reached ones: each is made of acts of the
host and of runs that it starts.
-/

namespace ScriptBridge.Session

open Script Bridge Machine

section Runs

variable {w : World} {c : Control} {m : Machine}

lemma Reached.heap (h : Reached w) {heap : Heap} (kept : w.heap.NoNewBinding heap) :
    Reached { w with heap } :=
  h.act (.heap kept)

/-- Tables, variables and closures may change at will. -/
lemma Reached.heap_of_eq (h : Reached w) {heap : Heap}
    (same : heap.userdata = w.heap.userdata) : Reached { w with heap } :=
  h.heap (.of_eq same)

lemma Reached.push (h : Reached w) (v : HostValue) : Reached (w.push v).2 :=
  h.heap (.push _ v)

lemma Reached.pushMany (h : Reached w) (vs : List HostValue) : Reached (w.pushMany vs).2 :=
  h.heap (.pushMany _ _ vs)

/-- An operation leads to the world that it hands back. -/
lemma Reached.after {α : Type} {answer : α × World} {a : α} {w : World} (h : Reached answer.2)
    (eq : answer = (a, w)) : Reached w := by
  rw [eq] at h
  exact h

lemma reached_run (h : Reached w) (opens : Opens w c) (fuel : Nat)
    (runs : Runs { world := w, control := c } m) : Reached (run fuel m).2 := by
  induction fuel generalizing m with
  | zero => exact h.stopped opens runs
  | succ fuel ih =>
    unfold run
    split
    · rename_i stepped
      exact ih (runs.step stepped)
    · rename_i halts
      exact h.halted opens runs halts

/-- A run that the host starts ends in a reached world. -/
theorem Reached.start (h : Reached w) (opens : Opens w c) : Reached (start w c).2 :=
  reached_run h opens _ .here

lemma Reached.runValues {run : Outcome × World} (h : Reached run.2) :
    Reached (runValues run).2 := by
  obtain ⟨o, w⟩ := run
  cases o <;> exact h

lemma Reached.runValue {run : Outcome × World} (h : Reached run.2) : Reached (runValue run).2 := by
  unfold Session.runValue
  split
  · rename_i eq
    exact h.runValues.after eq
  · rename_i eq
    exact h.runValues.after eq

lemma Reached.pullRun {run : Outcome × World} (h : Reached run.2) : Reached (pullRun run).2 := by
  unfold Session.pullRun
  split
  · rename_i eq
    exact h.runValues.after eq
  · rename_i eq
    exact h.runValues.after eq

end Runs

section Basic

variable {w : World}

lemma Reached.compile (h : Reached w) (chunk : Chunk) : Reached (compile w chunk).2 := by
  cases chunk with
  | malformed => exact h
  | block body => exact h.heap_of_eq rfl

lemma Reached.callPlain (h : Reached w) (f : Routine) : Reached (callPlain w f).2 :=
  (h.start (.call _ _)).pullRun

theorem Reached.runChunk (h : Reached w) (chunk : Chunk) : Reached (runChunk w chunk).2 := by
  unfold Session.runChunk
  dsimp only
  split
  · rename_i f w' eq
    exact ((h.compile _).after eq).callPlain f
  · rename_i eq
    exact (h.compile _).after eq

theorem Reached.runFile (h : Reached w) (file : Option Chunk) : Reached (runFile w file).2 := by
  cases file with
  | none => exact h
  | some chunk => exact h.runChunk chunk

theorem Reached.callFunction (h : Reached w) (f : Routine) (args : List HostValue) :
    Reached (callFunction w f args).2 := by
  unfold Session.callFunction
  split
  · rename_i eq
    exact (h.pushMany args).after eq
  · rename_i eq
    exact (((h.pushMany args).after eq).start (.call _ _)).pullRun

theorem Reached.defineFunction (h : Reached w) (name : String) (b : Builtin) :
    Reached (defineFunction w name b) :=
  h.heap_of_eq rfl

theorem Reached.defineForeign (h : Reached w) (name : String) : Reached (defineForeign w name) :=
  h.heap ((Heap.NoNewBinding.newUserdata _ rfl).trans (.of_eq rfl))

theorem Reached.setHook (h : Reached w) (hook : Hook) : Reached (setHook w hook) :=
  h.act (.settings _ _ _)

theorem Reached.removeHook (h : Reached w) : Reached (removeHook w) :=
  h.act (.settings _ _ _)

theorem Reached.makeFunction (h : Reached w) (params : List String) (isVariadic : Bool)
    (body : List Stmt) : Reached (makeFunction w params isVariadic body).2 :=
  h.heap_of_eq rfl

lemma Reached.collectOnce (h : Reached w) (held : List HostValue) :
    Reached (collectOnce w held) := by
  apply h.heap
  refine List.foldrRecOn (motive := fun heap => w.heap.NoNewBinding heap) _ _ (.of_eq rfl) ?_
  exact fun heap kept id _ => kept.trans (.finalize heap id)

theorem Reached.collectGarbage (h : Reached w) (held : List HostValue) :
    Reached (collectGarbage w held) :=
  (h.collectOnce held).collectOnce held

end Basic

section Coroutines

variable {w : World}

lemma Reached.wrapCallable (h : Reached w) (f : Value) : Reached (wrapCallable w f).2 :=
  h.heap_of_eq rfl

theorem Reached.createCoroutine (h : Reached w) (callable : HostValue) :
    Reached (createCoroutine w callable).2 := by
  cases callable with
  | function r => exact h.act (.thread _)
  | table id => exact (h.wrapCallable (.table id)).act (.thread _)
  | type t => exact ((h.heap (.pushType _ t)).wrapCallable _).act (.thread _)
  | _ => exact h

theorem Reached.nameCoroutine (h : Reached w) (name : String) (thread : Nat) :
    Reached (nameCoroutine w name thread) :=
  h.act (.settings _ _ _)

theorem Reached.forgetCoroutine (h : Reached w) (name : String) :
    Reached (forgetCoroutine w name) :=
  h.act (.settings _ _ _)

lemma Reached.resumeThread (h : Reached w) (thread : Nat) (args : List Value) :
    Reached (resumeThread w thread args).2 := by
  have active := h.act (.active (thread :: w.active))
  have ended := active.start (.resume thread args)
  unfold Session.resumeThread
  split
  · exact h
  · split
    · rename_i eq
      exact ended.after eq
    · rename_i eq
      exact (ended.after eq).act (.active _)
    · rename_i eq
      exact (ended.after eq).act (.active _)

theorem Reached.resume (h : Reached w) (thread : Nat) (args : List HostValue) :
    Reached (resume w thread args).2 := by
  unfold Session.resume
  split
  · exact h
  · split
    · rename_i eq
      exact (h.pushMany args).after eq
    · rename_i eq
      have resumed := ((h.pushMany args).after eq).resumeThread
      split
      rename_i eq
      exact (resumed _ _).after eq

end Coroutines

section Globals

variable {w : World}

lemma Reached.readSegment (h : Reached w) (current : Value) (segment : String) :
    Reached (readSegment w current segment).2 :=
  (h.start (.index _ _ _)).runValue

lemma Reached.walk (h : Reached w) (current : Value) (path : List String) :
    Reached (walk w current path).2 := by
  induction path generalizing w current with
  | nil => exact h
  | cons segment rest ih =>
    unfold Session.walk
    split
    · split
      · rename_i eq
        exact ih ((h.readSegment _ _).after eq) _
      · rename_i eq
        exact (h.readSegment _ _).after eq
    · exact h

theorem Reached.getGlobal (h : Reached w) (path : String) : Reached (getGlobal w path).2 := by
  unfold Session.getGlobal
  split
  · rename_i eq
    exact (h.walk _ _).after eq
  · rename_i eq
    exact (h.walk _ _).after eq

lemma Reached.storeSegment (h : Reached w) (table : Nat) (segment : String) (v : Value) :
    Reached (storeSegment w table segment v).2 := by
  have stored := h.start (.store (.table table) (.ofString segment) v metatableBudget)
  unfold Session.storeSegment
  split
  · rename_i eq
    exact stored.runValues.after eq
  · rename_i eq
    exact stored.runValues.after eq

lemma Reached.openSegment (h : Reached w) (path : String) (current : Value) (segment : String) :
    Reached (openSegment w path current segment).2 := by
  unfold Session.openSegment
  split
  · split
    · rename_i w' eq
      have next := (h.readSegment _ _).after eq
      have made := next.heap_of_eq (Heap.newTable_userdata w'.heap {})
      dsimp only
      split
      · rename_i eq
        exact (made.storeSegment _ _ _).after eq
      · rename_i eq
        exact (made.storeSegment _ _ _).after eq
    · exact h.readSegment _ _
  · split
    · exact h.readSegment _ _
    · exact h
  · exact h

lemma Reached.openSegments (h : Reached w) (path : String) (current : Value)
    (segments : List String) : Reached (openSegments w path current segments).2 := by
  induction segments generalizing w current with
  | nil => exact h
  | cons segment rest ih =>
    unfold Session.openSegments
    split
    · rename_i eq
      exact ih ((h.openSegment _ _ _).after eq) _
    · rename_i eq
      exact (h.openSegment _ _ _).after eq

lemma Reached.assignMember (h : Reached w) (target : Target) (name : String) (v : HostValue) :
    Reached (assignMember w target name v).2 := by
  have remembered := h.act (.remember target.cls)
  unfold Session.assignMember
  dsimp only
  split
  · exact remembered
  · rename_i planned
    have written := (remembered.start (.write planned)).runValues
    split
    · rename_i eq
      exact written.after eq
    · rename_i eq
      exact written.after eq

lemma Reached.assignLast (h : Reached w) (path : String) (current : Value) (name : String)
    (v : HostValue) : Reached (assignLast w path current name v).2 := by
  unfold Session.assignLast
  split
  · split
    · rename_i eq
      exact ((h.push v).after eq).storeSegment _ _ _
    · rename_i eq
      exact (h.push v).after eq
  · split
    · exact h.assignMember _ _ _
    · exact h
  · exact h

theorem Reached.setGlobal (h : Reached w) (path : String) (v : HostValue) :
    Reached (setGlobal w path v).2 := by
  unfold Session.setGlobal
  split
  · rename_i eq
    exact (h.openSegments _ _ _).after eq
  · rename_i eq
    exact ((h.openSegments _ _ _).after eq).assignLast _ _ _ _

lemma Reached.installType (h : Reached w) (t : HostType) : Reached (installType w t) :=
  h.heap ((Heap.NoNewBinding.pushType _ t).trans (.of_eq rfl))

theorem Reached.importType (h : Reached w) (fullName : String) :
    Reached (importType w fullName).2 := by
  unfold Session.importType
  split
  · exact h.installType _
  · exact h

theorem Reached.importNamespace (h : Reached w) (ns : String) :
    Reached (importNamespace w ns).2 := by
  refine List.foldlRecOn (w.registry.inNamespace ns) Session.installType h fun w h t _ => ?_
  exact h.installType t

lemma Reached.ensureTable (h : Reached w) (path : String) (table : Nat)
    (segments : List String) : Reached (ensureTable w path table segments).2 := by
  induction segments generalizing w table with
  | nil => exact h
  | cons segment rest ih =>
    unfold Session.ensureTable
    split
    · rename_i eq
      exact ih ((h.openSegment _ _ _).after eq) _
    · rename_i eq
      exact (h.openSegment _ _ _).after eq
    · rename_i eq
      exact (h.openSegment _ _ _).after eq

theorem Reached.registerFunction (h : Reached w) (path typeName method : String) :
    Reached (registerFunction w path typeName method).2 := by
  unfold Session.registerFunction
  split
  · exact h
  · rename_i t _
    have remembered := h.act (.remember t)
    dsimp only
    split
    · exact remembered
    · rename_i found
      have bound := remembered.act (.register found)
      split
      · rename_i eq
        exact (bound.ensureTable _ _ _).after eq
      · rename_i eq
        exact ((bound.ensureTable _ _ _).after eq).storeSegment _ _ _

end Globals

namespace TableView

variable {w : World}

theorem reached_create (h : Reached w) : Reached (TableView.create w).2 :=
  h.heap_of_eq rfl

theorem reached_get (h : Reached w) (table : Nat) (key : HostValue) :
    Reached (get w table key).2 := by
  unfold TableView.get
  split
  · rename_i eq
    exact (h.push key).after eq
  · rename_i eq
    exact (h.push key).after eq

theorem reached_set (h : Reached w) (table : Nat) (key v : HostValue) :
    Reached (set w table key v).2 := by
  unfold TableView.set
  split
  · rename_i eq
    exact (h.push key).after eq
  · rename_i eq
    have pushed := ((h.push key).after eq).push v
    split
    · rename_i eq
      exact pushed.after eq
    · rename_i eq
      split
      · exact pushed.after eq
      · exact (pushed.after eq).heap_of_eq rfl

theorem reached_remove (h : Reached w) (table : Nat) (key : HostValue) :
    Reached (remove w table key).2 := by
  unfold TableView.remove
  split
  · rename_i eq
    exact (h.push key).after eq
  · rename_i eq
    split
    · exact (h.push key).after eq
    · exact ((h.push key).after eq).heap_of_eq rfl

theorem reached_contains (h : Reached w) (table : Nat) (key : HostValue) :
    Reached (contains w table key).2 := by
  unfold TableView.contains
  split
  · rename_i eq
    exact (reached_get h table key).after eq
  · rename_i eq
    exact (reached_get h table key).after eq

theorem reached_clear (h : Reached w) (table : Nat) : Reached (clear w table) :=
  h.heap_of_eq rfl

end TableView

end ScriptBridge.Session

namespace ScriptBridge.Command

open Machine Session

/-- The sessions of the command line are sessions. -/
theorem Setting.reached_createSession {s : Setting} {w : World}
    (created : s.createSession = .ok w) : Reached w := by
  have ready (options : Options) : Reached (importNamespace
      { create options (registry s.args) (hostTypes s.args) with environment := s.environment }
      hostNamespace).2 := by
    have h := Reached.create options (hostTypes s.args) (hostTypes s.args)
      (primitiveTypes.length + (hostTypes s.args).length) .blank .standard
    exact (h.act (.settings _ s.environment _)).importNamespace hostNamespace
  unfold Setting.createSession at created
  dsimp only at created
  split at created
  · obtain ⟨options, -, eq⟩ := bind_eq_ok.1 created
    cases eq
    exact ready options
  · cases created
    exact ready {}

end ScriptBridge.Command
