import Mathlib.Algebra.GroupWithZero.Nat
import ScriptBridge.Proofs.Overload
import ScriptBridge.Proofs.Result

/-!
# Binding by a table

Binding goes through the parameters with what is left of the arguments. A table says the same by
position: `remaining` is what the parameters before one leave to it, `Row` what it gets of that and
for how many points. One step of binding is a row (`bindParams_cons_iff`), all of it is a table
that leaves no argument (`bindParams_iff`, `bind_iff`).
-/

namespace ScriptBridge

namespace Method

/-- The slot that an extension function called on an instance fills with it. -/
def received (m : Method) (receiver : Option HostObject) : List HostValue :=
  if m.isExtension then (receiver.toList.take m.params.length).map .object else []

/-- The parameters that are left to the arguments. -/
def left (m : Method) (receiver : Option HostObject) : List Param :=
  m.params.drop (m.received receiver).length

end Method

namespace Bridge

/-- The arguments that parameters leave to those behind them: an input or reference parameter takes
the next argument, a variadic all there are. -/
def remaining (params : List Param) (args : List HostValue) : List HostValue :=
  if params.any (·.mode == .variadic) then []
  else args.drop (params.countP Param.takesArgument)

/-- No argument is left, or the next one is nil. -/
def Missing (rest : List HostValue) : Prop :=
  rest.head? = none ∨ rest.head? = some .nil

/-- What a parameter gets of the arguments left to it: its slot and its points. -/
inductive Row (c : Coercer) (p : Param) : List HostValue → HostValue → Nat → Prop
  | out {rest : List HostValue} (mode : p.mode = .out) : Row c p rest .nil 0
  | coerced {a : HostValue} {rest : List HostValue} {slot : HostValue}
      (takes : p.takesArgument = true) (given : a = .nil → p.default = none)
      (ok : c a p.kind = .ok slot) : Row c p (a :: rest) slot 2
  | default {rest : List HostValue} {d : DefaultValue} (takes : p.takesArgument = true)
      (missing : Missing rest) (default : p.default = some d) :
      Row c p rest d.value 1
  | variadic {rest items : List HostValue} (mode : p.mode = .variadic)
      (all : List.Forall₂ (fun a item => c a p.kind = .ok item) rest items) :
      Row c p rest (.array items) (if items.isEmpty then 1 else 2)

/-- A row for every parameter, on what the parameters before it leave of the arguments. -/
structure BindingTable (c : Coercer) (params : List Param) (args : List HostValue)
    (rows : List (HostValue × Nat)) : Prop where
  length : rows.length = params.length
  row : ∀ (i : Nat) (p : Param) (slot : HostValue) (points : Nat), params[i]? = some p →
    rows[i]? = some (slot, points) → Row c p (remaining (params.take i) args) slot points

section Remaining

variable {p : Param} {params : List Param} {args : List HostValue}

/-- What parameters leave is left by the last of them of what the others leave. -/
lemma remaining_cons (p : Param) (params : List Param) (args : List HostValue) :
    remaining (p :: params) args = remaining params (remaining [p] args) := by
  by_cases variadic : p.mode = .variadic
  · simp [remaining, variadic]
  · by_cases later : params.any (·.mode == .variadic) = true
    · simp [remaining, later]
    · simp [remaining, variadic, later, List.countP_cons, Nat.add_comm]

lemma remaining_out (mode : p.mode = .out) : remaining [p] args = args := by
  simp [remaining, mode, Param.takesArgument]

lemma remaining_variadic (mode : p.mode = .variadic) : remaining [p] args = [] := by
  simp [remaining, mode]

lemma remaining_takes (takes : p.takesArgument = true) : remaining [p] args = args.tail := by
  have mode : p.mode ≠ .variadic := by
    intro mode
    simp [Param.takesArgument, mode] at takes
  simp [remaining, mode, takes]

end Remaining

section Steps

variable {c : Coercer} {p : Param} {params : List Param} {args : List HostValue} {b : Binding}

lemma toOption_eq_some {x : Except BridgeError HostValue} {slot : HostValue} :
    x.toOption = some slot ↔ x = .ok slot := by
  cases x <;> simp [Except.toOption]

lemma row_out {slot : HostValue} {points : Nat} (mode : p.mode = .out) :
    Row c p args slot points ↔ slot = .nil ∧ points = 0 := by
  constructor
  · intro row
    cases row <;> simp_all [Param.takesArgument]
  · rintro ⟨rfl, rfl⟩
    exact .out mode

lemma row_variadic {slot : HostValue} {points : Nat} (mode : p.mode = .variadic) :
    Row c p args slot points ↔
      ∃ items, List.Forall₂ (fun a item => c a p.kind = .ok item) args items ∧
        slot = .array items ∧ points = if items.isEmpty then 1 else 2 := by
  constructor
  · intro row
    cases row with
    | variadic _ all => exact ⟨_, all, rfl, rfl⟩
    | _ => simp_all [Param.takesArgument]
  · rintro ⟨items, all, rfl, rfl⟩
    exact .variadic mode all

/-- A parameter that is left nothing, or nil in place of its default, has its default. -/
lemma row_default {slot : HostValue} {points : Nat} {d : DefaultValue}
    (takes : p.takesArgument = true) (missing : Missing args)
    (default : p.default = some d) :
    Row c p args slot points ↔ slot = d.value ∧ points = 1 := by
  constructor
  · intro row
    cases row <;> simp_all [Param.takesArgument, Missing]
  · rintro ⟨rfl, rfl⟩
    exact .default takes missing default

lemma row_coerced {a slot : HostValue} {points : Nat} (takes : p.takesArgument = true)
    (given : a = .nil → p.default = none) :
    Row c p (a :: args) slot points ↔ c a p.kind = .ok slot ∧ points = 2 := by
  constructor
  · intro row
    cases row <;> simp_all [Param.takesArgument, Missing]
  · rintro ⟨ok, rfl⟩
    exact .coerced takes given ok

lemma not_row_missing {slot : HostValue} {points : Nat} (takes : p.takesArgument = true)
    (required : p.default = none) : ¬ Row c p [] slot points := by
  intro row
  cases row <;> simp_all [Param.takesArgument]

/-- One parameter is bound by its row, the others to what it leaves. -/
lemma bindParams_cons_iff :
    bindParams c (p :: params) args = some b ↔
      ∃ slot points, Row c p args slot points ∧
        ∃ rest, bindParams c params (remaining [p] args) = some rest ∧
          rest.behind points slot = b := by
  rcases takesArgument_or p with out | variadic | takes
  · rw [bindParams_out out, remaining_out out, Option.map_eq_some_iff]
    simp [row_out out]
  · rw [bindParams_variadic variadic, remaining_variadic variadic, Option.bind_eq_some_iff]
    simp only [mapM_eq_some, toOption_eq_some, Option.map_eq_some_iff, row_variadic variadic]
    constructor
    · rintro ⟨items, all, bound⟩
      exact ⟨_, _, ⟨items, all, rfl, rfl⟩, bound⟩
    · rintro ⟨_, _, ⟨items, all, rfl, rfl⟩, bound⟩
      exact ⟨items, all, bound⟩
  · rw [remaining_takes takes]
    cases args with
    | nil =>
      rw [bindParams_missing takes]
      cases default : p.default with
      | none => simp [not_row_missing takes default]
      | some d =>
        have missing : Missing [] := Or.inl rfl
        simp [row_default takes missing default]
    | cons a args =>
      by_cases given : a = .nil → p.default = none
      · rw [bindParams_given takes given, Option.bind_eq_some_iff]
        simp [toOption_eq_some, row_coerced takes given]
      · obtain ⟨rfl, default⟩ := Classical.not_imp.1 given
        obtain ⟨d, default⟩ := Option.ne_none_iff_exists'.1 default
        rw [bindParams_default takes default, Option.map_eq_some_iff]
        have missing : Missing (.nil :: args) := Or.inr rfl
        simp [row_default takes missing default]

lemma table_cons {r : HostValue × Nat} {rows : List (HostValue × Nat)} :
    BindingTable c (p :: params) args (r :: rows) ↔
      Row c p args r.1 r.2 ∧ BindingTable c params (remaining [p] args) rows := by
  constructor
  · intro table
    refine ⟨table.row 0 p r.1 r.2 rfl rfl, Nat.succ.inj table.length, ?_⟩
    intro i q slot points param row
    rw [← remaining_cons]
    exact table.row (i + 1) q slot points param row
  · rintro ⟨first, others⟩
    refine ⟨congrArg (· + 1) others.length, ?_⟩
    intro i q slot points param row
    cases i with
    | zero =>
      cases param
      cases row
      exact first
    | succ i =>
      rw [List.take_succ_cons, remaining_cons]
      exact others.row i q slot points param row

lemma BindingTable.exists_row {rows : List (HostValue × Nat)}
    (table : BindingTable c params args rows) {i : Nat} (param : params[i]? = some p) :
    ∃ slot points, rows[i]? = some (slot, points) ∧
      Row c p (remaining (params.take i) args) slot points := by
  obtain ⟨inside, -⟩ := List.getElem?_eq_some_iff.1 param
  have here := List.getElem?_eq_getElem (table.length ▸ inside)
  exact ⟨_, _, here, table.row i p _ _ param here⟩

/-- Binding succeeds exactly with a table that leaves no argument, and gives its slots for the sum
of its points. -/
theorem bindParams_iff :
    bindParams c params args = some b ↔ remaining params args = [] ∧
      ∃ rows, BindingTable c params args rows ∧ ⟨(rows.map (·.2)).sum, rows.map (·.1)⟩ = b := by
  -- By induction on the parameters, with whatever arguments are left to them.
  induction params generalizing args b with
  | nil =>
    constructor
    · intro bound
      cases args with
      | nil =>
        cases bound
        exact ⟨rfl, [], ⟨rfl, by simp⟩, rfl⟩
      | cons a args => cases bound
    · rintro ⟨rfl, rows, table, rfl⟩
      rw [List.eq_nil_of_length_eq_zero table.length]
      rfl
  | cons p params ih =>
    rw [bindParams_cons_iff, remaining_cons p params]
    constructor
    · rintro ⟨slot, points, first, rest, bound, rfl⟩
      obtain ⟨spent, rows, table, rfl⟩ := ih.1 bound
      exact ⟨spent, (slot, points) :: rows, table_cons.2 ⟨first, table⟩, rfl⟩
    · rintro ⟨spent, rows, table, rfl⟩
      cases rows with
      | nil => cases table.length
      | cons r rows =>
        obtain ⟨first, table⟩ := table_cons.1 table
        exact ⟨r.1, r.2, first, _, ih.2 ⟨spent, rows, table, rfl⟩, rfl⟩

/-- The receiver has its slot in front, and no points. -/
lemma bind_eq (c : Coercer) (m : Method) (args : List HostValue) (receiver : Option HostObject) :
    bind c m args receiver = (bindParams c (m.left receiver) args).map fun b =>
      ⟨b.score, m.received receiver ++ b.slots⟩ := by
  cases extension : m.isExtension with
  | false => simp [bind, Method.left, Method.received, extension]
  | true =>
    cases receiver with
    | none => simp [bind, Method.left, Method.received]
    | some o =>
      cases params : m.params with
      | nil => simp [bind, Method.left, Method.received, params]
      | cons p params =>
        have behind : Binding.behind 0 (.object o) = fun b => ⟨b.score, .object o :: b.slots⟩ := by
          funext b
          simp [Binding.behind]
        simp [bind, Method.left, Method.received, extension, params, behind]

/-- A method is bound by the table of the parameters that are left to the arguments. -/
theorem bind_iff {m : Method} {receiver : Option HostObject} :
    bind c m args receiver = some b ↔ remaining (m.left receiver) args = [] ∧
      ∃ rows, BindingTable c (m.left receiver) args rows ∧
        ⟨(rows.map (·.2)).sum, m.received receiver ++ rows.map (·.1)⟩ = b := by
  rw [bind_eq, Option.map_eq_some_iff]
  constructor
  · rintro ⟨rest, bound, rfl⟩
    obtain ⟨spent, rows, table, rfl⟩ := bindParams_iff.1 bound
    exact ⟨spent, rows, table, rfl⟩
  · rintro ⟨spent, rows, table, rfl⟩
    exact ⟨_, bindParams_iff.2 ⟨spent, rows, table, rfl⟩, rfl⟩

/-- Behind the slot of the receiver each parameter has the slot of its row. -/
lemma exists_slot {m : Method} {receiver : Option HostObject}
    (bound : bind c m args receiver = some b) {i : Nat} (param : (m.left receiver)[i]? = some p) :
    ∃ slot points, b.slots[(m.received receiver).length + i]? = some slot ∧
      Row c p (remaining ((m.left receiver).take i) args) slot points := by
  obtain ⟨-, rows, table, rfl⟩ := bind_iff.1 bound
  obtain ⟨slot, points, here, row⟩ := table.exists_row param
  refine ⟨slot, points, ?_, row⟩
  rw [List.getElem?_append_right (Nat.le_add_right _ _), Nat.add_sub_cancel_left,
    List.getElem?_map, here, Option.map_some]

end Steps

end Bridge

end ScriptBridge
