import Mathlib.Data.List.TakeWhile
import Mathlib.Tactic.Lemma
import ScriptBridge.Proofs.Effect

/-!
# What lies below

A machine works on the top of its stack. As long as it does not come down to the frames below, it
does the same above any others: each step above some frames is the step above none, with those
frames put below.
-/

namespace ScriptBridge

open Script Bridge Machine

/-- The machine with frames put below its own. -/
def Machine.onto (m : Machine) (base : List Frame) : Machine :=
  { m with stack := m.stack ++ base }

def Machine.Progress.onto (p : Machine.Progress) (base : List Frame) : Machine.Progress :=
  match p with
  | .running m => .running (m.onto base)
  | .halted o w => .halted o w

namespace Machine

variable (m : Machine) (base : List Frame)

@[simp]
lemma onto_world : (m.onto base).world = m.world :=
  rfl

@[simp]
lemma onto_heap : (m.onto base).heap = m.heap :=
  rfl

@[simp]
lemma onto_stack : (m.onto base).stack = m.stack ++ base :=
  rfl

@[simp]
lemma onto_control : (m.onto base).control = m.control :=
  rfl

@[simp]
lemma onto_depth : (m.onto base).depth = m.depth :=
  rfl

@[simp]
lemma onto_thread : (m.onto base).thread = m.thread :=
  rfl

@[simp]
lemma go_onto (c : Control) : (m.onto base).go c = (m.go c).onto base :=
  rfl

@[simp]
lemma push_onto (f : Frame) (c : Control) : (m.onto base).push f c = (m.push f c).onto base :=
  rfl

@[simp]
lemma withWorld_onto (w : World) : (m.onto base).withWorld w = (m.withWorld w).onto base :=
  rfl

@[simp]
lemma withHeap_onto (h : Heap) : (m.onto base).withHeap h = (m.withHeap h).onto base :=
  rfl

@[simp]
lemma withStore_onto (s : Store) : (m.onto base).withStore s = (m.withStore s).onto base :=
  rfl

@[simp]
lemma remember_onto (t : HostType) : (m.onto base).remember t = (m.remember t).onto base :=
  rfl

@[simp]
lemma give_onto (v : Value) : (m.onto base).give v = (m.give v).onto base :=
  rfl

@[simp]
lemma raiseText_onto (text : String) :
    (m.onto base).raiseText text = (m.raiseText text).onto base :=
  rfl

@[simp]
lemma raiseError_onto (e : ScriptError) : (m.onto base).raiseError e = (m.raiseError e).onto base :=
  rfl

@[simp]
lemma raiseBridge_onto (e : BridgeError) :
    (m.onto base).raiseBridge e = (m.raiseBridge e).onto base :=
  rfl

@[simp]
lemma raiseConversion_onto : (m.onto base).raiseConversion = m.raiseConversion.onto base :=
  rfl

section Evaluation

@[simp]
lemma makeClosure_onto (scope : Scope) (params : List String) (isVariadic : Bool)
    (body : List Stmt) : makeClosure (m.onto base) scope params isVariadic body
      = (makeClosure m scope params isVariadic body).onto base :=
  rfl

@[simp]
lemma fillTable_onto (id : Nat) (scope : Scope) (entries : List (Expr × Expr)) :
    fillTable (m.onto base) id scope entries = (fillTable m id scope entries).onto base := by
  cases entries <;> rfl

@[simp]
lemma evaluate_onto (scope : Scope) (e : Expr) :
    evaluate (m.onto base) scope e = (evaluate m scope e).onto base := by
  cases e with
  | table entries => exact fillTable_onto (m.withHeap _) base _ _ _
  | _ => rfl

@[simp]
lemma evaluateAll_onto (done : List Value) (scope : Scope) (es : List Expr) :
    evaluateAll (m.onto base) done scope es = (evaluateAll m done scope es).onto base := by
  unfold evaluateAll
  split
  · rfl
  · split <;> rfl
  · rfl

@[simp]
lemma fillEntry_onto (id : Nat) (key value : Value) (rest : List (Expr × Expr)) (scope : Scope) :
    fillEntry (m.onto base) id key value rest scope
      = (fillEntry m id key value rest scope).onto base := by
  unfold fillEntry
  split
  · exact fillTable_onto (m.withHeap _) base _ _ _
  · rfl

@[simp]
lemma deliver_onto (v : HostValue) : deliver (m.onto base) v = (deliver m v).onto base := by
  unfold deliver
  rw [onto_world]
  split <;> rfl

@[simp]
lemma deliverAll_onto (vs : List HostValue) :
    deliverAll (m.onto base) vs = (deliverAll m vs).onto base := by
  unfold deliverAll
  rw [onto_world]
  split <;> rfl

@[simp]
lemma runPlanned_onto (finish : Finish) (planned : Except BridgeError HostCode) :
    runPlanned (m.onto base) finish planned = (runPlanned m finish planned).onto base := by
  cases planned <;> rfl

@[simp]
lemma consult_onto (operands : List HostValue) :
    consult (m.onto base) operands = (consult m operands).onto base := by
  unfold consult
  induction operands generalizing m with
  | nil => rfl
  | cons v rest ih =>
    cases v with
    | object o => exact ih (m.remember o.cls)
    | _ => exact ih m

@[simp]
lemma applyOperator_onto (op : Operator) (a b : Value) :
    applyOperator (m.onto base) op a b = (applyOperator m op a b).onto base := by
  unfold applyOperator
  rw [onto_world]
  split <;> simp

@[simp]
lemma arithmetic_onto (op : BinaryOp) (a b : Value) :
    arithmetic (m.onto base) op a b = (arithmetic m op a b).onto base := by
  unfold arithmetic
  simp only [onto_world]
  repeat' split
  all_goals first | rfl | exact applyOperator_onto m base _ _ _

@[simp]
lemma concatenate_onto (a b : Value) :
    concatenate (m.onto base) a b = (concatenate m a b).onto base := by
  unfold concatenate
  simp only [onto_world]
  repeat' split
  all_goals rfl

@[simp]
lemma equate_onto (negated : Bool) (a b : Value) :
    equate (m.onto base) negated a b = (equate m negated a b).onto base := by
  unfold equate
  simp only [onto_world]
  repeat' split
  all_goals first | rfl | simp [*]

@[simp]
lemma compare_onto (event : String) (decided : Option Bool) (a b : Value) :
    compare (m.onto base) event decided a b = (compare m event decided a b).onto base := by
  unfold compare
  simp only [onto_world]
  repeat' split
  all_goals rfl

@[simp]
lemma operate_onto (op : BinaryOp) (a b : Value) :
    operate (m.onto base) op a b = (operate m op a b).onto base := by
  cases op <;> simp [operate]

@[simp]
lemma negate_onto (a : Value) : negate (m.onto base) a = (negate m a).onto base := by
  unfold negate
  simp only [onto_world]
  repeat' split
  all_goals first | rfl | exact applyOperator_onto m base _ _ _

@[simp]
lemma length_onto (a : Value) : length (m.onto base) a = (length m a).onto base := by
  unfold length
  simp only [onto_world]
  repeat' split
  all_goals rfl

@[simp]
lemma operateUnary_onto (op : UnaryOp) (a : Value) :
    operateUnary (m.onto base) op a = (operateUnary m op a).onto base := by
  cases op <;> simp [operateUnary]

@[simp]
lemma join_onto (op : Junction) (a : Value) (b : Expr) (scope : Scope) :
    join (m.onto base) op a b scope = (join m op a b scope).onto base := by
  unfold join
  dsimp only
  split <;> split <;> rfl

end Evaluation

section Access

@[simp]
lemma giveUserdata_onto (u : Userdata) :
    giveUserdata (m.onto base) u = (giveUserdata m u).onto base :=
  rfl

@[simp]
lemma read_onto (planned : Except BridgeError ReadPlan) :
    read (m.onto base) planned = (read m planned).onto base := by
  rcases planned with e | plan
  · rfl
  · cases plan <;> simp [read]

@[simp]
lemma readMember_onto (target : Target) (key : Value) :
    readMember (m.onto base) target key = (readMember m target key).onto base := by
  unfold readMember
  split <;> simp

@[simp]
lemma writeMember_onto (target : Target) (key v : Value) :
    writeMember (m.onto base) target key v = (writeMember m target key v).onto base := by
  unfold writeMember
  split <;> simp

@[simp]
lemma indexUserdata_onto (id : Nat) (key : Value) :
    indexUserdata (m.onto base) id key = (indexUserdata m id key).onto base := by
  unfold indexUserdata
  simp only [onto_world, onto_heap]
  repeat' split
  all_goals simp

@[simp]
lemma index_onto (object key : Value) (budget : Nat) :
    index (m.onto base) object key budget = (index m object key budget).onto base := by
  unfold index
  simp only [onto_world, onto_heap]
  repeat' split
  all_goals simp

@[simp]
lemma storeRaw_onto (id : Nat) (key v : Value) :
    storeRaw (m.onto base) id key v = (storeRaw m id key v).onto base := by
  unfold storeRaw
  split <;> simp

@[simp]
lemma storeUserdata_onto (id : Nat) (key v : Value) :
    storeUserdata (m.onto base) id key v = (storeUserdata m id key v).onto base := by
  unfold storeUserdata
  simp only [onto_world, onto_heap]
  repeat' split
  all_goals simp

@[simp]
lemma store_onto (object key v : Value) (budget : Nat) :
    store (m.onto base) object key v budget = (store m object key v budget).onto base := by
  cases budget with
  | zero => rfl
  | succ budget =>
    cases object with
    | table id =>
      cases absent : (m.heap.rawGet id key).isNil with
      | false => simp [store, absent]
      | true =>
        simp only [store, onto_heap, absent, Bool.not_true, Bool.false_eq_true, if_false]
        split <;> simp
    | _ => simp [store]

end Access

section Hooks

lemma fireHook_onto (kind : HookKind) (line : Nat) (hook : Hook) :
    fireHook (m.onto base) kind line hook
      = match fireHook m kind line hook with
        | .ok m => .ok (m.onto base)
        | .error m => .error (m.onto base) := by
  unfold fireHook
  simp only [onto_world]
  split <;> rfl

lemma fire_onto (kind : HookKind) (line : Nat) :
    fire kind line (m.onto base)
      = match fire kind line m with
        | .ok m => .ok (m.onto base)
        | .error m => .error (m.onto base) := by
  unfold fire
  simp only [onto_world, onto_thread]
  split
  · cases kind <;> dsimp only <;> split <;> simp [fireHook_onto]
  · rfl

lemma tick_onto (line : Nat) {k : Machine → Machine}
    (next : ∀ m, k (m.onto base) = (k m).onto base) :
    tick (m.onto base) line k = (tick m line k).onto base := by
  unfold tick
  rw [fire_onto]
  cases fire .line line m with
  | error m' => rfl
  | ok m' =>
    simp only [Except.bind]
    rw [fire_onto]
    cases fire .count line m' with
    | error m'' => rfl
    | ok m'' => exact next m''

end Hooks

section Statements

@[simp]
lemma execute_onto (stmt : Stmt) (rest : Rest) :
    execute (m.onto base) stmt rest = (execute m stmt rest).onto base := by
  cases stmt <;> rfl

@[simp]
lemma exec_onto (rest : Rest) : exec (m.onto base) rest = (exec m rest).onto base := by
  unfold exec
  split
  · rfl
  · exact tick_onto m base _ fun m' => execute_onto m' base _ _

@[simp]
lemma countOn_onto (name : String) (next : Int64) (rounds : Nat) (body : List Stmt) (rest : Rest) :
    countOn (m.onto base) name next rounds body rest
      = (countOn m name next rounds body rest).onto base := by
  cases rounds with
  | zero => rfl
  | succ rounds => exact tick_onto m base _ fun m' => rfl

@[simp]
lemma stepOn_onto (name : String) (next last : Float) (body : List Stmt) (rest : Rest) :
    stepOn (m.onto base) name next last body rest
      = (stepOn m name next last body rest).onto base := by
  unfold stepOn
  split
  · exact tick_onto m base _ fun m' => rfl
  · rfl

@[simp]
lemma startLoop_onto (name : String) (first last : Value) (body : List Stmt) (rest : Rest) :
    startLoop (m.onto base) name first last body rest
      = (startLoop m name first last body rest).onto base := by
  unfold startLoop
  repeat' split
  all_goals simp

@[simp]
lemma assign_onto (name : String) (v : Value) (scope : Scope) :
    assign (m.onto base) name v scope = (assign m name v scope).onto base := by
  unfold assign
  split <;> simp

end Statements

/-- Frames that raised values, yields and calls from bodies take no notice of. -/
structure Quiet (base : List Frame) : Prop where
  caller : callerIsScript base = false
  waits : ∀ f ∈ base, f.isHostWait = false

/-- A function that only waits to return is on the stack. -/
def Returns (stack : List Frame) : Prop :=
  ∀ rest, stack = .ret :: rest → ∃ outer, Frame.function outer ∈ rest

section Coroutines

variable {m base}

lemma callerIsScript_onto (quiet : Quiet base) (stack : List Frame) :
    callerIsScript (stack ++ base) = callerIsScript stack := by
  cases stack with
  | nil => exact quiet.caller
  | cons f rest => cases f <;> rfl

@[simp]
lemma raisePlaced_onto (quiet : Quiet base) (v : Value) :
    raisePlaced (m.onto base) v = (raisePlaced m v).onto base := by
  unfold raisePlaced
  rw [onto_stack, callerIsScript_onto quiet]
  rfl

lemma report_onto (quiet : Quiet base) (thread : Nat) (by_ : Resumer) (handed : Handed) :
    report (m.onto base) thread by_ handed = (report m thread by_ handed).onto base := by
  cases by_ with
  | wrapper => cases handed <;> simp [report, quiet, Progress.onto]
  | _ => rfl

lemma resume_onto (quiet : Quiet base) (thread : Nat) (args : List Value) (by_ : Resumer) :
    resume (m.onto base) thread args by_ = (resume m thread args by_).onto base := by
  unfold resume
  simp only [onto_world]
  split
  · rfl
  · simp [onto]
  · exact raisePlaced_onto quiet _
  · exact raisePlaced_onto quiet _
  · exact raisePlaced_onto quiet _

lemma finish_onto (quiet : Quiet base) (thread : Nat) (by_ : Resumer) (outer : Nat)
    (around : Option Nat) (vs : List Value) :
    finish (m.onto base) thread by_ outer around vs
      = (finish m thread by_ outer around vs).onto base :=
  report_onto quiet thread by_ _ (m := backTo (m.withWorld _) m.stack outer around)

/-- A yield goes to the innermost mark, whatever is below it. -/
lemma yield_onto (quiet : Quiet base) (marked : ∃ f ∈ m.stack, f.isMark = true) (vs : List Value) :
    yield (m.onto base) vs = (yield m vs).onto base := by
  rcases first_or_none Frame.isMark m.stack with ⟨above, f, below, stack, mark, inside⟩ | none
  · have cut : m.stack.span (!·.isMark) = (above, f :: below) := by
      rw [stack, span_first inside mark]
    have cut' : (m.onto base).stack.span (!·.isMark) = (above, f :: (below ++ base)) := by
      rw [onto_stack, stack, List.append_assoc, List.cons_append, span_first inside mark]
    unfold yield
    rw [cut, cut']
    cases f with
    | resumed thread by_ outer around =>
      dsimp only
      split
      · rfl
      · exact report_onto (m := backTo (m.withWorld _) below outer around) quiet thread by_ _
    | _ => rfl
  · obtain ⟨f, mem, mark⟩ := marked
    rw [none f mem] at mark
    cases mark

/-- A value that nothing catches ends the run. -/
lemma raised_of_clear (clear : ∀ f ∈ m.stack, f.catches = false) (v : Value) :
    raised m v = .halted (.raised v) m.world := by
  unfold raised
  rw [span_none clear]

/-- A raised value goes to the innermost frame that catches it. -/
lemma raised_onto (quiet : Quiet base) (caught : ∃ f ∈ m.stack, f.catches = true) (v : Value) :
    raised (m.onto base) v = (raised m v).onto base := by
  rcases first_or_none Frame.catches m.stack with ⟨above, f, below, stack, catches, clear⟩ | none
  · have cut : m.stack.span (!·.catches) = (above, f :: below) := by
      rw [stack, span_first clear catches]
    have cut' : (m.onto base).stack.span (!·.catches) = (above, f :: (below ++ base)) := by
      rw [onto_stack, stack, List.append_assoc, List.cons_append, span_first clear catches]
    unfold raised
    rw [cut, cut']
    cases f with
    | resumed thread by_ outer around =>
      exact report_onto quiet thread by_ _ (m := backTo { m with world := _ } below outer around)
    | _ => rfl
  · obtain ⟨f, mem, catches⟩ := caught
    rw [none f mem] at catches
    cases catches

end Coroutines

section Calls

variable {m base}

/-- What is left of a function that only waits to return ends above what lies below. -/
lemma dropReturning_onto (quiet : Quiet base) (returns : Returns m.stack) :
    dropReturning (m.stack ++ base) = (dropReturning m.stack).map (· ++ base) := by
  cases stack : m.stack with
  | nil =>
    cases base with
    | nil => rfl
    | cons f rest =>
      cases f with
      | ret => cases quiet.caller
      | _ => rfl
  | cons f rest =>
    cases f with
    | ret =>
      obtain ⟨outer, mem⟩ := returns rest stack
      simp only [dropReturning, List.cons_append, Option.map_some, Option.some.injEq]
      rw [List.dropWhile_append, if_neg]
      intro empty
      have passes := List.dropWhile_eq_nil_iff.1 (List.isEmpty_iff.1 empty) _ mem
      cases passes
    | _ => rfl

lemma callClosure_onto (quiet : Quiet base) (returns : Returns m.stack) (id : Nat)
    (args : List Value) :
    callClosure (m.onto base) id args = (callClosure m id args).onto base := by
  have entered := dropReturning_onto quiet returns
  unfold callClosure
  simp only [onto_heap, onto_stack, onto_depth, Machine.withHeap, entered]
  cases dropReturning m.stack with
  | some stack => rfl
  | none =>
    show (if m.world.engine.calls ≤ m.depth then _ else _)
      = onto (if m.world.engine.calls ≤ m.depth then _ else _) base
    split <;> rfl

@[simp]
lemma raiseForeign_onto : raiseForeign (m.onto base) = (raiseForeign m).onto base :=
  rfl

@[simp]
lemma callEvent_onto (finish : Finish) (accessor : Declared Event → Routine → Accessor)
    (self handler : Value) : callEvent (m.onto base) finish accessor self handler
      = (callEvent m finish accessor self handler).onto base := by
  unfold callEvent
  simp only [onto_heap]
  repeat' split
  all_goals simp

@[simp]
lemma callIndexer_onto (finish : Finish)
    (plan : Target → Declared Property → List HostValue → Except BridgeError HostCode)
    (self : Value) (args : List Value) : callIndexer (m.onto base) finish plan self args
      = (callIndexer m finish plan self args).onto base := by
  unfold callIndexer
  simp only [onto_heap, onto_world]
  repeat' split
  all_goals simp

lemma setMetatable_onto (quiet : Quiet base) (args : List Value) :
    setMetatable (m.onto base) args = (setMetatable m args).onto base := by
  unfold setMetatable
  simp only [onto_heap]
  split <;> simp [quiet]

@[simp]
lemma toText_onto (v : Value) : toText (m.onto base) v = (toText m v).onto base := by
  unfold toText
  simp only [onto_heap, onto_world]
  repeat' split
  all_goals simp

lemma raiseLevel_onto (quiet : Quiet base) (v level : Value) :
    raiseLevel (m.onto base) v level = (raiseLevel m v level).onto base := by
  unfold raiseLevel
  split <;> simp [quiet]

@[simp]
lemma badArgument_onto (quiet : Quiet base) (name : String) :
    badArgument (m.onto base) name = (badArgument m name).onto base :=
  raisePlaced_onto quiet _

/-- Every built-in function but yield pays no attention to what lies below. -/
lemma callBuiltin_onto (quiet : Quiet base) {b : Builtin} (stays : b ≠ .coroutineYield)
    (args : List Value) :
    callBuiltin (m.onto base) b args = (callBuiltin m b args).onto base := by
  cases b with
  | coroutineYield => exact absurd rfl stays
  | setmetatable => exact congrArg Progress.running (setMetatable_onto quiet args)
  | error => exact congrArg Progress.running (raiseLevel_onto quiet _ _)
  | _ =>
    simp only [callBuiltin, Progress.onto, onto_world]
    repeat' split
    all_goals simp [quiet]

@[simp]
lemma closeType_onto (t : HostType) (args : List HostValue) :
    closeType (m.onto base) t args = (closeType m t args).onto base := by
  unfold closeType
  simp only [onto_world]
  repeat' split
  all_goals simp

@[simp]
lemma callUserdata_onto (id : Nat) (args : List Value) :
    callUserdata (m.onto base) id args = (callUserdata m id args).onto base := by
  unfold callUserdata
  simp only [onto_world, onto_heap]
  repeat' split
  all_goals simp [*]

@[simp]
lemma deliverAs_onto (finish : Finish) (v : HostValue) :
    deliverAs (m.onto base) finish v = (deliverAs m finish v).onto base := by
  cases finish <;> simp [deliverAs]

@[simp]
lemma deliverResults_onto (finish : Finish) (v : HostValue) (inv : Invocation) :
    deliverResults (m.onto base) finish v inv = (deliverResults m finish v inv).onto base := by
  cases finish <;> simp [deliverResults]

@[simp]
lemma raiseFailure_onto (context : String) (failure : HostFailure) :
    raiseFailure (m.onto base) context failure = (raiseFailure m context failure).onto base :=
  rfl

@[simp]
lemma runHost_onto (code : HostCode) (finish : Finish) :
    runHost (m.onto base) code finish = (runHost m code finish).onto base := by
  cases code with
  | method inv => rfl
  | access target name accessor =>
    simp only [runHost, onto_world, onto_heap]
    split <;> simp

@[simp]
lemma callFromBody_onto (frame : Frame) (f : Routine) (args : List Value) :
    callFromBody (m.onto base) frame f args = (callFromBody m frame f args).onto base :=
  rfl

@[simp]
lemma emitNext_onto (inv : Invocation) (holder : Holder) (event : String)
    (arg : Value) (handlers : List Routine) :
    emitNext (m.onto base) inv holder event arg handlers
      = (emitNext m inv holder event arg handlers).onto base := by
  cases handlers <;> rfl

@[simp]
lemma resumeFromBody_onto (inv : Invocation) (name : String) :
    resumeFromBody (m.onto base) inv name = (resumeFromBody m inv name).onto base := by
  unfold resumeFromBody
  simp only [onto_world]
  repeat' split
  all_goals simp

@[simp]
lemma runBody_onto (body : Body) (inv : Invocation) :
    runBody (m.onto base) body inv = (runBody m body inv).onto base := by
  unfold runBody
  simp only [onto_world, withStore_onto]
  split <;> simp

/-- A call of anything but yield. -/
lemma call_onto (quiet : Quiet base) (returns : Returns m.stack) {f : Value}
    (stays : f ≠ .function (.builtin .coroutineYield)) (args : List Value) :
    call (m.onto base) f args = (call m f args).onto base := by
  unfold call
  split
  · simp [callClosure_onto quiet returns, Progress.onto]
  · exact callBuiltin_onto quiet (fun eq => stays (by rw [eq])) args
  · simp [Progress.onto]
  · simp only [onto_heap]
    split
    · rfl
    · split <;> rfl
  · rfl

end Calls

section Frames

variable {m base}

/-- Values that arrive are handed to the same frame. -/
lemma receive_onto (quiet : Quiet base) (vs : List Value) (f : Frame) :
    receive (m.onto base) vs f = (receive m vs f).onto base := by
  cases f with
  | resumed thread by_ outer around => exact finish_onto quiet thread by_ outer around vs
  | emitting inv holder event rest arg =>
    exact congrArg Progress.running (emitNext_onto inv holder event arg rest)
  | whileTest condition body rest =>
    simp only [receive, Progress.onto]
    split
    · exact congrArg Progress.running (tick_onto m base _ fun m' => rfl)
    · rfl
  | text =>
    simp only [receive, Progress.onto]
    split <;> rfl
  | _ => simp [receive, Progress.onto] <;> rfl

@[simp]
lemma afterBlock_onto (f : Frame) :
    afterBlock (m.onto base) f = (afterBlock m f).onto base := by
  cases f <;> first | rfl | simp [afterBlock]

lemma returnFrom_onto (vs : List Value) (f : Frame) :
    returnFrom (m.onto base) vs f = (returnFrom m vs f).onto base := by
  cases f with
  | function outer =>
    simp only [returnFrom]
    rw [fire_onto]
    cases fire .ret 0 m <;> rfl
  | _ => rfl

lemma afterBody_onto (v : HostValue) (inv : Invocation) (f : Frame) :
    afterBody (m.onto base) v inv f = (afterBody m v inv f).onto base := by
  cases f with
  | steps bodies => cases bodies <;> rfl
  | _ => first | rfl | simp [afterBody]

lemma afterFailure_onto (failure : HostFailure) (f : Frame) :
    afterFailure (m.onto base) failure f = (afterFailure m failure f).onto base := by
  cases f <;> rfl

lemma popped_onto {empty : Outcome} {k : Machine → Frame → Machine.Progress}
    (above : m.stack ≠ []) (next : ∀ m f, k (m.onto base) f = (k m f).onto base) :
    popped (m.onto base) empty k = (popped m empty k).onto base := by
  unfold popped
  rw [onto_stack]
  cases stack : m.stack with
  | nil => exact absurd stack above
  | cons f rest => exact next { m with stack := rest } f

end Frames

section Steps

variable {m base}

/-- The running coroutine is about to yield and has no mark on the stack: its own mark is below. The
second machine is the first one after hooks have seen the call. -/
structure Asks (m : Machine) (vs : List Value) (m' : Machine) : Prop where
  control : m.control = .call (.function (.builtin .coroutineYield)) vs
  room : overflows m = false
  hooked : fire .call 0 m = .ok m'
  unmarked : ∀ f ∈ m.stack, f.isMark = false

/-- Only host code among a machine's own frames waits. -/
lemma overflows_onto (quiet : Quiet base) : overflows (m.onto base) = overflows m := by
  have waits : hostDepth (m.stack ++ base) = hostDepth m.stack := by
    simpa [hostDepth, List.countP_append] using quiet.waits
  unfold overflows
  rw [onto_stack]
  cases stack : m.stack with
  | nil =>
    cases base with
    | nil => rfl
    | cons f rest =>
      dsimp only [List.nil_append]
      rw [quiet.waits f List.mem_cons_self]
      rfl
  | cons f rest =>
    rw [stack] at waits
    exact congrArg (fun depth => f.isHostWait && decide (m.world.engine.hostCalls < depth)) waits

lemma callHooked_onto (quiet : Quiet base) (returns : Returns m.stack) {f : Value}
    {args : List Value} (control : m.control = .call f args) (silent : ∀ vs m', ¬ Asks m vs m') :
    callHooked (m.onto base) f args = (callHooked m f args).onto base := by
  unfold callHooked
  rw [overflows_onto quiet, fire_onto]
  cases room : overflows m with
  | true => rfl
  | false =>
  cases fired : fire .call 0 m with
  | error m' => rfl
  | ok m' =>
    have same := (fire_ok (.refl m) fired).1.stack
    by_cases yields : f = .function (.builtin .coroutineYield)
    · subst yields
      -- A yield is a step like others where a mark of its own frames takes it.
      have marked : ∃ f ∈ m'.stack, f.isMark = true := by
        by_contra unmarked
        refine silent args m' ⟨control, room, fired, fun f mem => ?_⟩
        rw [← same] at mem
        exact Bool.eq_false_iff.2 fun mark => unmarked ⟨f, mem, mark⟩
      exact yield_onto quiet marked args
    · exact call_onto quiet (same ▸ returns) yields args

/-- Unless it yields out of its frames, a machine that goes on does so above any others. -/
theorem step_onto (quiet : Quiet base) (returns : Returns m.stack)
    (silent : ∀ vs m', ¬ Asks m vs m') {m' : Machine} (stepped : step m = .running m') :
    step (m.onto base) = .running (m'.onto base) := by
  suffices same : step (m.onto base) = (step m).onto base by
    rw [same, stepped]
    rfl
  unfold step at stepped ⊢
  -- A step that pops a frame pops one of the machine's own: without any it would have halted.
  have above {empty : Outcome} {k : Machine → Frame → Machine.Progress}
      (goes : popped m empty k = .running m') : m.stack ≠ [] := by
    intro stack
    unfold popped at goes
    rw [stack] at goes
    cases goes
  cases control : m.control with
  | exec rest => simp [control, Progress.onto]
  | evaluate e scope => simp [control, Progress.onto]
  | evaluateAll done es scope => simp [control, Progress.onto]
  | values vs =>
    simp only [control, onto_control] at stepped ⊢
    exact popped_onto (above stepped) fun m f => receive_onto quiet vs f
  | completed =>
    simp only [control, onto_control] at stepped ⊢
    exact popped_onto (above stepped) fun m f => congrArg Progress.running (afterBlock_onto f)
  | returning vs =>
    simp only [control, onto_control] at stepped ⊢
    exact popped_onto (above stepped) fun m f => congrArg Progress.running (returnFrom_onto vs f)
  | raising v =>
    simp only [control, onto_control] at stepped ⊢
    refine raised_onto quiet ?_ v
    by_contra clear
    have halts := raised_of_clear (fun f mem =>
      Bool.eq_false_iff.2 fun catches => clear ⟨f, mem, catches⟩) v
    rw [halts] at stepped
    cases stepped
  | call f args =>
    simp only [control, onto_control] at stepped ⊢
    exact callHooked_onto quiet returns control silent
  | index object key budget => simp [control, Progress.onto]
  | store object key v budget => simp [control, Progress.onto]
  | host code finish => simp [control, Progress.onto]
  | body b inv => simp [control, Progress.onto]
  | finished v inv =>
    simp only [control, onto_control] at stepped ⊢
    exact popped_onto (above stepped) fun m f => congrArg Progress.running (afterBody_onto v inv f)
  | failed failure =>
    simp only [control, onto_control] at stepped ⊢
    exact popped_onto (above stepped) fun m f =>
      congrArg Progress.running (afterFailure_onto failure f)
  | resume thread args by_ => simp [control, Progress.onto, resume_onto quiet]

end Steps

end Machine

end ScriptBridge
