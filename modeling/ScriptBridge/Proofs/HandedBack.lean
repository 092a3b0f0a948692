import ScriptBridge.Proofs.Acceptance
import ScriptBridge.Proofs.Operation

/-!
# What a call hands back

A call hands back the value that its method returns, where one is declared, and the slots of its
reference and output parameters. `Put` says what binding puts into such a slot, `HandedFor` what
the caller is handed for it after the body has run, and `results_line_up` that the results of a call
are these, one for each of the parameters and in their order.
-/

namespace ScriptBridge

namespace Machine

open Bridge

section Inside

variable {S : List Frame} {context : String} {finish : Finish} {left inv : Invocation}
  {m n : Machine}

/-- The first step of a method puts up its guard. -/
lemma RunsAbove.of_host {height : Nat}
    (runs : RunsAbove height (m.go (.host (.method inv) finish)) n) :
    n = m.go (.host (.method inv) finish) ∨
      RunsAbove height (runHost m (.method inv) finish) n := by
  induction runs with
  | here => exact Or.inl rfl
  | step _ stepped above ih =>
    rcases ih with rfl | runs
    · cases stepped
      exact Or.inr .here
    · exact Or.inr (runs.step stepped above)

/-- At its end a body has its call as it was to leave it, and the caller is handed its value. -/
lemma finished_inside (within : Within (.guard context finish :: S) (.body left) n)
    (top : n.stack.length = S.length + 1) {v : HostValue}
    (control : n.control = .finished v inv) :
    inv = left ∧ step n = .running (deliverResults { n with stack := S } finish v inv) := by
  obtain ⟨mode, ⟨-, fs, stack, leads⟩, fits⟩ := within
  have nothing : fs = [] := by
    rw [stack, List.length_append, List.length_cons] at top
    exact List.length_eq_zero_iff.1 (by omega)
  subst nothing
  cases leads
  rw [control] at fits
  cases fits
  exact ⟨rfl, step_finished stack control⟩

end Inside

end Machine

namespace Method

/-- The parameters that are handed back, with their positions. -/
def outputs (m : Method) : List (Param × Nat) :=
  m.params.zipIdx.filter (·.1.isHandedBack)

/-- Whether a call is handed a value: what constructors return is not declared. -/
def returnsValue (m : Method) (isConstructor : Bool) : Bool :=
  isConstructor || m.returns.isSome

/-- How many results a call has. -/
def resultCount (m : Method) (isConstructor : Bool) : Nat :=
  (m.returnsValue isConstructor).toNat + m.params.countP Param.isHandedBack

variable {m : Method} {p : Param} {i : Nat}

lemma mem_outputs : (p, i) ∈ m.outputs ↔ m.params[i]? = some p ∧ p.isHandedBack = true := by
  rw [outputs, List.mem_filter, List.mem_zipIdx_iff_getElem?]

lemma length_outputs (m : Method) : m.outputs.length = m.params.countP Param.isHandedBack := by
  have params := List.countP_map (p := Param.isHandedBack) (f := Prod.fst) (l := m.params.zipIdx)
  rw [List.zipIdx_map_fst] at params
  rw [outputs, ← List.countP_eq_length_filter, params]
  rfl

/-- Replacing type parameters leaves the number of results as it is. -/
lemma resultCount_instantiate (m : Method) (kinds : List Kind) (isConstructor : Bool) :
    (m.instantiate kinds).resultCount isConstructor = m.resultCount isConstructor := by
  unfold resultCount returnsValue instantiate
  rw [List.countP_map, Option.isSome_map]
  rfl

end Method

namespace Bridge

open Script Machine

/-- What binding puts into the slot of a parameter that is handed back: an extension function called
on an instance has the instance in its first slot, whatever the mode of that parameter. -/
inductive Put (c : Coercer) (p : Param) (received : Option HostValue) (rest : List HostValue) :
    HostValue → Prop
  | receiver {v : HostValue} (first : received = some v) : Put c p received rest v
  | nothing (own : received = none) (out : p.mode = .out) : Put c p received rest .nil
  | argument (own : received = none) (ref : p.mode = .ref) {a slot : HostValue}
      (next : rest.head? = some a) (given : a = .nil → p.default = none)
      (ok : c a p.kind = .ok slot) : Put c p received rest slot
  | default (own : received = none) (ref : p.mode = .ref) {d : DefaultValue}
      (missing : Missing rest) (default : p.default = some d) : Put c p received rest d.value

/-- What the caller is handed for a parameter: what the body assigned to its slot last, or what
binding put there if the body assigned nothing to it. -/
inductive HandedFor (c : Coercer) (inv : Invocation) (given : List HostValue) :
    Param × Nat → HostValue → Prop
  | assigned {p : Param} {i : Nat} {v : HostValue} {before after : List (Nat × HostValue)}
      (sets : assigned inv.member.item.body inv = before ++ (i, v) :: after)
      (last : ∀ w, (i, w) ∉ after) : HandedFor c inv given (p, i) v
  | bound {p : Param} {i : Nat} {v : HostValue}
      (unset : ∀ w, (i, w) ∉ assigned inv.member.item.body inv)
      (put : Put c p (inv.member.item.received inv.target)[i]?
        (remaining ((inv.member.item.left inv.target).take
          (i - (inv.member.item.received inv.target).length)) given) v) :
      HandedFor c inv given (p, i) v

section Slots

variable {c : Coercer} {p : Param} {m : Method} {given : List HostValue}
  {receiver : Option HostObject} {b : Binding} {i : Nat}

lemma Put.of_row {rest : List HostValue} {slot : HostValue} {points : Nat}
    (output : p.isHandedBack = true) (row : Row c p rest slot points) : Put c p none rest slot := by
  have ref (takes : p.takesArgument = true) : p.mode = .ref := by
    cases mode : p.mode <;> simp_all [Param.isHandedBack, Param.takesArgument]
  cases row with
  | out mode => exact .nothing rfl mode
  | coerced takes given ok => exact .argument rfl (ref takes) rfl given ok
  | default takes missing default => exact .default rfl (ref takes) missing default
  | variadic mode all => simp [Param.isHandedBack, mode] at output

/-- Each slot that is handed back is put in by binding. -/
theorem exists_put (bound : bind c m given receiver = some b) (output : (p, i) ∈ m.outputs) :
    ∃ v, b.slots[i]? = some v ∧ Put c p (m.received receiver)[i]?
      (remaining ((m.left receiver).take (i - (m.received receiver).length)) given) v := by
  obtain ⟨param, handed⟩ := Method.mem_outputs.1 output
  rcases Nat.lt_or_ge i (m.received receiver).length with first | behind
  · obtain ⟨-, rows, -, rfl⟩ := bind_iff.1 bound
    refine ⟨(m.received receiver)[i], ?_, .receiver (List.getElem?_eq_getElem first)⟩
    rw [List.getElem?_append_left first, List.getElem?_eq_getElem first]
  · obtain ⟨k, rfl⟩ := Nat.exists_eq_add_of_le behind
    have left : (m.left receiver)[k]? = some p := by
      rw [Method.left, List.getElem?_drop, param]
    obtain ⟨slot, points, here, row⟩ := exists_slot bound left
    refine ⟨slot, here, ?_⟩
    rw [List.getElem?_eq_none behind, Nat.add_sub_cancel_left]
    exact .of_row handed row

end Slots

section Results

variable {c : Coercer} {inv : Invocation} {given : List HostValue} {score : Nat}

lemma handedBack_eq (inv : Invocation) :
    inv.handedBack = inv.member.item.outputs.map fun (_, i) => inv.slot i :=
  rfl

/-- The last of the values assigned to a slot, or none was. -/
lemma lookup_reverse_cases (sets : List (Nat × HostValue)) (i : Nat) :
    (∃ v before after, sets.reverse.lookup i = some v ∧ sets = before ++ (i, v) :: after ∧
      ∀ w, (i, w) ∉ after) ∨ sets.reverse.lookup i = none ∧ ∀ w, (i, w) ∉ sets := by
  cases found : sets.reverse.lookup i with
  | some v =>
    obtain ⟨after, before, split, last⟩ := List.lookup_eq_some_iff.1 found
    refine Or.inl ⟨v, before.reverse, after.reverse, rfl, ?_, fun w mem => ?_⟩
    · rw [← List.reverse_reverse sets, split]
      simp
    · simpa using last (i, w) (List.mem_reverse.1 mem)
  | none =>
    refine Or.inr ⟨rfl, fun w mem => ?_⟩
    simpa using List.lookup_eq_none_iff.1 found (i, w) (List.mem_reverse.2 mem)

/-- When the body has run, the call holds in each slot that is handed back what it is to. -/
lemma handedFor_slot (bound : bind c inv.member.item given inv.target = some ⟨score, inv.slots⟩)
    {p : Param} {i : Nat} (output : (p, i) ∈ inv.member.item.outputs) :
    HandedFor c inv given (p, i) ((inv.after inv.member.item.body).slot i) := by
  rw [Invocation.after, Invocation.slot_setSlots]
  rcases lookup_reverse_cases (assigned inv.member.item.body inv) i with
    ⟨v, before, after, found, sets, last⟩ | ⟨none, unset⟩
  · rw [found]
    exact .assigned sets last
  · obtain ⟨v, here, put⟩ := exists_put bound output
    have slot : inv.slot i = v := by
      rw [Invocation.slot, here, Option.getD_some]
    rw [none, Option.getD_none, slot]
    exact .bound unset put

/-- One value for each of the parameters, in their order. -/
theorem handedBack_after
    (bound : bind c inv.member.item given inv.target = some ⟨score, inv.slots⟩) :
    List.Forall₂ (HandedFor c inv given) inv.member.item.outputs
      (inv.after inv.member.item.body).handedBack := by
  have member : (inv.after inv.member.item.body).member = inv.member :=
    inv.member_setSlots _
  rw [handedBack_eq, member, List.forall₂_map_right_iff, List.forall₂_same]
  rintro ⟨p, i⟩ output
  exact handedFor_slot bound output

end Results

/-- How a script calls the host: a method that is bound to its target, or a class. -/
inductive Calls (m : Machine) (id : Nat) (args : List HostValue) :
    List (Declared Method) → Bool → Invocation → Prop
  | method {target : Target} {group : String} {overloads : List (Declared Method)}
      {inv : Invocation} (bound : m.heap.userdatum id = .methods target group overloads)
      (planned : planCall m.world.options.stripSelfArgument m.world.coercer target group overloads
        args = .ok inv) : Calls m id args overloads false inv
  | constructor {handle : Handle} {t : HostType} {inv : Invocation}
      (type : m.heap.userdatum id = .type handle)
      (pinned : m.heap.target? (.type handle) = some (.type t)) (closed : t.isOpen = false)
      (planned : planConstruct m.world.coercer m.world.registry t args = .ok inv) :
      Calls m id args (m.world.registry.metadata t).constructors true inv

namespace Calls

variable {m : Machine} {id : Nat} {args : List HostValue} {overloads : List (Declared Method)}
  {isConstructor : Bool} {inv : Invocation}

/-- A call sets out to run the method that it resolves to. -/
lemma callUserdata_eq (calls : Calls m id args overloads isConstructor inv) {values : List Value}
    (pulled : m.world.pullMany values = .ok args) : ∃ m', Midway m m' ∧
      callUserdata m id values = m'.go
        (.host (.method inv) (.results (inv.member.item.returnsValue isConstructor))) := by
  cases calls with
  | method bound planned =>
    refine ⟨m, .refl m, ?_⟩
    unfold callUserdata
    dsimp only
    rw [bound]
    dsimp only
    rw [pulled]
    dsimp only
    rw [planned]
    rfl
  | @constructor handle t inv type pinned closed planned =>
    refine ⟨m.remember t, (Midway.refl m).remember t, ?_⟩
    have planned' : (Operation.construct t args).plan m.world = .ok (.method inv) :=
      map_eq_ok.2 ⟨inv, planned, rfl⟩
    rw [callUserdata_type_eq type pinned closed pulled, perform, plan_consulted, planned']
    rfl

/-- What the method was selected from, and what of the arguments it was bound to. -/
lemma selected (calls : Calls m id args overloads isConstructor inv) :
    (∃ declared ∈ overloads, inv.member.item = declared.item ∨
      ∃ kinds, inv.member.item = declared.item.instantiate kinds) ∧
    ∃ given score, given <:+ args ∧
      bind m.world.coercer inv.member.item given inv.target = some ⟨score, inv.slots⟩ := by
  cases calls with
  | method bound planned =>
    obtain ⟨found, selected, rfl⟩ := planCall_eq_ok.1 planned
    obtain ⟨declared, mem, -, -, item⟩ := (Selected.of_selectCall selected).candidate
    obtain ⟨taken, last, won⟩ := exists_select selected
    obtain ⟨given, last', bound⟩ := bind_of_select won
    exact ⟨⟨declared, mem, item⟩, given, found.score, last'.trans last, bound⟩
  | @constructor handle t inv type pinned closed planned =>
    unfold planConstruct at planned
    split at planned
    · rename_i found won
      cases planned
      exact ⟨⟨found.member, (mem_of_resolve won).1, Or.inl rfl⟩, args, found.score,
        List.suffix_refl args, bind_of_resolve won⟩
    · cases planned

end Calls

/-- The results of a call line up with the signature: the returned value, if there is to be one, and
what is handed back for each of the parameters. -/
structure LinesUp (c : Coercer) (inv : Invocation) (given : List HostValue) (isConstructor : Bool)
    (v : HostValue) (results : List HostValue) : Prop where
  values : ∃ handed,
    results = (if inv.member.item.returnsValue isConstructor then [v] else []) ++ handed ∧
      List.Forall₂ (HandedFor c inv given) inv.member.item.outputs handed
  count : results.length = inv.member.item.resultCount isConstructor

lemma linesUp_after {c : Coercer} {inv : Invocation} {given : List HostValue} {score : Nat}
    (bound : bind c inv.member.item given inv.target = some ⟨score, inv.slots⟩)
    (isConstructor : Bool) (v : HostValue) : LinesUp c inv given isConstructor v
      ((inv.after inv.member.item.body).results
        (inv.member.item.returnsValue isConstructor) v) := by
  have results : (inv.after inv.member.item.body).results
        (inv.member.item.returnsValue isConstructor) v
      = (if inv.member.item.returnsValue isConstructor then [v] else []) ++
        (inv.after inv.member.item.body).handedBack := by
    unfold Invocation.results
    split <;> rfl
  refine ⟨⟨_, results, handedBack_after bound⟩, ?_⟩
  rw [results, List.length_append, ← (handedBack_after bound).length_eq, Method.length_outputs,
    Method.resultCount]
  cases inv.member.item.returnsValue isConstructor <;> rfl

end Bridge

namespace Session

open Script Bridge Machine

/-- Whatever a script calls and however the body of the method assigns its slots: when the body
returns a value, the caller is handed results that line up with the signature in the next step, and
how many there are is told by the declaration of the overload. -/
theorem Visited.results_line_up {m : Machine} (h : Visited m) {id : Nat} {values : List Value}
    {args : List HostValue} {overloads : List (Declared Method)} {isConstructor : Bool}
    {inv : Invocation} (pulled : m.world.pullMany values = .ok args)
    (calls : Calls m id args overloads isConstructor inv) {n : Machine}
    (runs : RunsAbove m.stack.length (callUserdata m id values) n)
    (top : n.stack.length = m.stack.length + 1) {v : HostValue} {left : Invocation}
    (returns : n.control = .finished v left) :
    left = inv.after inv.member.item.body ∧
    ∃ results given, step n = .running (deliverAll { n with stack := m.stack } results) ∧
      given <:+ args ∧
      (∃ score, bind m.world.coercer inv.member.item given inv.target = some ⟨score, inv.slots⟩) ∧
      LinesUp m.world.coercer inv given isConstructor v results ∧
      ∃ declared ∈ overloads, results.length = declared.item.resultCount isConstructor := by
  obtain ⟨⟨declared, mem, item⟩, given, score, suffix, bound⟩ := calls.selected
  have lines := linesUp_after bound isConstructor v
  have count : inv.member.item.resultCount isConstructor
      = declared.item.resultCount isConstructor := by
    rcases item with same | ⟨kinds, closed⟩
    · rw [same]
    · rw [closed, Method.resultCount_instantiate]
  obtain ⟨m', midway, called⟩ := calls.callUserdata_eq pulled
  rw [called, ← midway.stack] at runs
  rw [← midway.stack] at top ⊢
  rcases runs.of_host with rfl | runs
  · cases returns
  · have within := runs.within (runMethod_inside (midway.world.sound h.settled.world) inv _)
    obtain ⟨rfl, stepped⟩ := finished_inside within top returns
    exact ⟨rfl, _, given, stepped, suffix, ⟨score, bound⟩, lines, declared, mem,
      lines.count.trans count⟩

section Calibrating

/-- Takes a scale, a step and a unit and hands back the scale, an offset and the unit. It assigns
the offset twice, and a slot behind all parameters, whose value it returns. -/
def calibrating : Method where
  name := "calibrate"
  params := [⟨"scale", .int .i64, .ref, none⟩, ⟨"offset", .any, .out, none⟩,
    ⟨"step", .int .i64, .input, none⟩, ⟨"unit", .string, .ref, some (.str "mm")⟩]
  returns := some (.int .i64)
  isStatic := true
  hidden := false
  isExtension := false
  typeParams := 0
  label := "calibrate"
  body := .sequence [.assign [(1, .slot 0), (9, .slot 0)] (.slot 0),
    .assign [(1, .slot 2)] (.slot 9)]

def gauge : HostType :=
  { meter with identity := 101, name := "Gauge", members := { methods := [calibrating] } }

def calibrateGauge : Declared Method :=
  ⟨gauge, 0, calibrating⟩

/-- The method, bound to its class. -/
def calibrationBench : World :=
  let bound := Userdata.methods (.type gauge) "calibrate" [calibrateGauge]
  { bench with heap := (bench.heap.newUserdata bound).2 }

lemma reached_calibrationBench : Reached calibrationBench := by
  refine reached_bench.act (.register ?_)
  rw [Registry.metadata_eq, bench_extensionsFor]
  rfl

def calibration : Machine where
  world := calibrationBench
  control := .call (.userdata 0) [.int 3, .int 7]

lemma visited_calibration : Visited calibration :=
  ⟨calibrationBench, _, reached_calibrationBench, .call _ _, .here⟩

/-- The call with its slots as they were bound. -/
def calibrationCall : Invocation where
  member := calibrateGauge
  group := "calibrate"
  cls := gauge
  target := none
  slots := [.int 3, .nil, .int 7, .str "mm"]
  typeArgs := []

lemma calls_calibration : Calls calibration 0 [.int 3, .int 7] [calibrateGauge] false
    calibrationCall :=
  .method rfl rfl

/-- The scale and the unit are handed back as they were bound, and the offset as it was assigned
last. -/
theorem calibration_lines_up : Visited calibration ∧
    calibration.world.pullMany [.int 3, .int 7] = .ok [.int 3, .int 7] ∧
    Calls calibration 0 [.int 3, .int 7] [calibrateGauge] false calibrationCall ∧
    ∃ n, RunsAbove 0 (callUserdata calibration 0 [.int 3, .int 7]) n ∧ n.stack.length = 1 ∧
      n.control = .finished (.int 3) (calibrationCall.after calibrating.body) ∧
      ∃ results given, step n = .running (deliverAll { n with stack := [] } results) ∧
        given <:+ [.int 3, .int 7] ∧
        (∃ score, bind calibration.world.coercer calibrating given none
          = some ⟨score, calibrationCall.slots⟩) ∧
        LinesUp calibration.world.coercer calibrationCall given false (.int 3) results ∧
        ∃ declared ∈ [calibrateGauge], results.length = declared.item.resultCount false := by
  have above : ∀ n, 0 < n + 1 := Nat.succ_pos
  have called : RunsAbove 0 (callUserdata calibration 0 [.int 3, .int 7])
      (callUserdata calibration 0 [.int 3, .int 7]) := .here
  have guarded := called.step rfl (above _)
  have first := ((guarded.step rfl (above _)).step rfl (above _)).step rfl (above _)
  have second := ((first.step rfl (above _)).step rfl (above _)).step rfl (above _)
  exact ⟨visited_calibration, rfl, calls_calibration, _, second, rfl, rfl,
    (Visited.results_line_up visited_calibration rfl calls_calibration second rfl rfl).2⟩

example : (calibrationCall.after calibrating.body).results true (.int 3)
    = [.int 3, .int 3, .int 7, .str "mm"] :=
  rfl

end Calibrating

section Marking

/-- An extension function that sets nothing, not even its first parameter. -/
def marking : Method where
  name := "mark"
  params := [⟨"self", .object "demo.Meter", .out, none⟩]
  returns := none
  isStatic := true
  hidden := false
  isExtension := true
  typeParams := 0
  label := "mark"
  body := .idle

/-- An output parameter that the body leaves alone is not always handed back as nil. -/
theorem not_always_nil : ¬ ∀ (strip : Bool) (c : Coercer) (target : Target) (group : String)
    (overloads : List (Declared Method)) (args : List HostValue) (inv : Invocation),
    planCall strip c target group overloads args = .ok inv →
    ∀ (k i : Nat) (p : Param), inv.member.item.outputs[k]? = some (p, i) → p.mode = .out →
      (∀ w, (i, w) ∉ assigned inv.member.item.body inv) →
      (inv.after inv.member.item.body).handedBack[k]? = some .nil := by
  intro always
  have planned : planCall false (coerce 8 {}) (.object device) "mark" [⟨meter, 0, marking⟩] []
      = .ok ⟨⟨meter, 0, marking⟩, "mark", meter, some device, [.object device], []⟩ := rfl
  have nil := always _ _ _ _ _ _ _ planned 0 0 _ rfl rfl fun w mem => by cases mem
  cases nil

end Marking

end Session

end ScriptBridge
