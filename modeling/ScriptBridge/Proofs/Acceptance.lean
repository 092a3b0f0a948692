import Mathlib.Data.List.TakeDrop
import ScriptBridge.Proofs.Binding

/-!
# Accepted arguments

With no variadic but the last parameter, the arguments that have a table are told by position:
`Accepts` says which ones a method accepts, and the table what it makes of them (`bind_table`).
-/

namespace ScriptBridge

namespace Method

lemma length_received_le (m : Method) (receiver : Option HostObject) :
    (m.received receiver).length ≤ m.params.length := by
  unfold received
  split
  · rw [List.length_map, List.length_take]
    exact Nat.min_le_left _ _
  · exact Nat.zero_le _

/-- No parameter takes all remaining arguments, except perhaps the last one. -/
def VariadicLast (m : Method) : Prop :=
  ∀ p ∈ m.params.dropLast, p.mode ≠ .variadic

instance (m : Method) : Decidable m.VariadicLast :=
  inferInstanceAs (Decidable (∀ p ∈ m.params.dropLast, p.mode ≠ .variadic))

end Method

namespace Bridge

/-- Which arguments parameters accept, by position: the `j`-th of the parameters that take an
argument takes the `j`-th argument or its default, and a variadic takes what is left over. -/
structure Accepts (c : Coercer) (params : List Param) (args : List HostValue) : Prop where
  each : ∀ (j : Nat) (p : Param), (params.filter Param.takesArgument)[j]? = some p →
    (∃ a, args[j]? = some a ∧ ¬ (a = .nil ∧ p.isOptional = true) ∧ ∃ slot, c a p.kind = .ok slot) ∨
      p.isOptional = true ∧ (args[j]? = none ∨ args[j]? = some .nil)
  surplus : args.drop (params.filter Param.takesArgument).length = [] ∨
    ∃ v ∈ params, v.mode = .variadic ∧
      ∀ a ∈ args.drop (params.filter Param.takesArgument).length, ∃ slot, c a v.kind = .ok slot

section Positions

variable {α β : Type} {f : α → Bool} {xs : List α} {x : α}

/-- What a filter keeps stands behind as many others as it kept before. -/
lemma getElem?_filter_iff {j : Nat} :
    (xs.filter f)[j]? = some x ↔
      ∃ i, xs[i]? = some x ∧ f x = true ∧ (xs.take i).countP f = j := by
  induction xs generalizing j with
  | nil => simp
  | cons y xs ih =>
    by_cases kept : f y = true
    · rw [List.filter_cons_of_pos kept]
      cases j with
      | zero =>
        constructor
        · rintro ⟨⟩
          exact ⟨0, rfl, kept, rfl⟩
        · rintro ⟨i, at_i, -, none⟩
          cases i with
          | zero => exact at_i
          | succ i => simp [kept] at none
      | succ j =>
        rw [List.getElem?_cons_succ, ih]
        constructor
        · rintro ⟨i, at_i, keeps, count⟩
          exact ⟨i + 1, at_i, keeps, by simp [kept, count]⟩
        · rintro ⟨i, at_i, keeps, count⟩
          cases i with
          | zero => cases count
          | succ i => exact ⟨i, at_i, keeps, by simpa [kept] using count⟩
    · rw [List.filter_cons_of_neg kept, ih]
      constructor
      · rintro ⟨i, at_i, keeps, count⟩
        exact ⟨i + 1, at_i, keeps, by simp [kept, count]⟩
      · rintro ⟨i, at_i, keeps, count⟩
        cases i with
        | zero =>
          cases at_i
          exact absurd keeps kept
        | succ i => exact ⟨i, at_i, keeps, by simpa [kept] using count⟩

/-- Where every position has a row, there is a list of rows. -/
lemma exists_rows {R : Nat → α → β → Prop} (each : ∀ i x, xs[i]? = some x → ∃ y, R i x y) :
    ∃ ys : List β, ys.length = xs.length ∧
      ∀ i x y, xs[i]? = some x → ys[i]? = some y → R i x y := by
  induction xs generalizing R with
  | nil => exact ⟨[], rfl, by simp⟩
  | cons x xs ih =>
    obtain ⟨y, first⟩ := each 0 x rfl
    obtain ⟨ys, length, others⟩ := ih fun i x' at_i => each (i + 1) x' at_i
    refine ⟨y :: ys, congrArg (· + 1) length, ?_⟩
    intro i x' y' at_x at_y
    cases i with
    | zero =>
      cases at_x
      cases at_y
      exact first
    | succ i => exact others i x' y' at_x at_y

/-- Where every item is related to something, the list is related to a list. -/
lemma exists_forall₂_iff {R : α → β → Prop} :
    (∃ ys, List.Forall₂ R xs ys) ↔ ∀ x ∈ xs, ∃ y, R x y := by
  induction xs with
  | nil => simp
  | cons x xs ih =>
    rw [List.forall_mem_cons, ← ih]
    constructor
    · rintro ⟨_, all⟩
      obtain ⟨y, ys, first, others, -⟩ := List.forall₂_cons_left_iff.1 all
      exact ⟨⟨y, first⟩, ys, others⟩
    · rintro ⟨⟨y, first⟩, ys, others⟩
      exact ⟨y :: ys, .cons first others⟩

end Positions

section Acceptance

variable {c : Coercer} {params : List Param} {args rest : List HostValue} {p : Param} {i : Nat}

/-- A parameter that takes an argument has a row if the argument is coerced, or if it is missing and
there is a default. -/
lemma exists_row_takes (takes : p.takesArgument = true) :
    (∃ slot points, Row c p rest slot points) ↔
      (∃ a, rest.head? = some a ∧ ¬ (a = .nil ∧ p.isOptional = true) ∧
        ∃ slot, c a p.kind = .ok slot) ∨ p.isOptional = true ∧ Missing rest := by
  constructor
  · rintro ⟨slot, points, row⟩
    cases row with
    | coerced _ given ok =>
      refine Or.inl ⟨_, rfl, ?_, slot, ok⟩
      rintro ⟨nil, optional⟩
      simp [Param.isOptional, given nil] at optional
    | default _ missing default => exact Or.inr ⟨by simp [Param.isOptional, default], missing⟩
    | _ => simp_all [Param.takesArgument]
  · rintro (⟨a, here, given, slot, ok⟩ | ⟨optional, missing⟩)
    · cases rest with
      | nil => cases here
      | cons a' rest =>
        cases here
        refine ⟨slot, 2, .coerced takes (fun nil => ?_) ok⟩
        simpa [Param.isOptional, nil] using given
    · obtain ⟨d, default⟩ := Option.isSome_iff_exists.1 optional
      exact ⟨d.value, 1, .default takes missing default⟩

lemma exists_row_variadic (mode : p.mode = .variadic) :
    (∃ slot points, Row c p rest slot points) ↔ ∀ a ∈ rest, ∃ slot, c a p.kind = .ok slot := by
  rw [← exists_forall₂_iff]
  constructor
  · rintro ⟨slot, points, row⟩
    obtain ⟨items, all, -⟩ := (row_variadic mode).1 row
    exact ⟨items, all⟩
  · rintro ⟨items, all⟩
    exact ⟨_, _, .variadic mode all⟩

/-- There is a table where every parameter has a row. -/
lemma exists_table_iff :
    (∃ rows, BindingTable c params args rows) ↔ ∀ i p, params[i]? = some p →
      ∃ slot points, Row c p (remaining (params.take i) args) slot points := by
  constructor
  · rintro ⟨rows, table⟩ i p param
    obtain ⟨slot, points, -, row⟩ := table.exists_row param
    exact ⟨slot, points, row⟩
  · intro each
    have pairs : ∀ i p, params[i]? = some p →
        ∃ r : HostValue × Nat, Row c p (remaining (params.take i) args) r.1 r.2 := by
      intro i p param
      obtain ⟨slot, points, row⟩ := each i p param
      exact ⟨(slot, points), row⟩
    obtain ⟨rows, length, row⟩ := exists_rows pairs
    exact ⟨rows, length, fun i p slot points param at_i => row i p (slot, points) param at_i⟩

/-- No parameter before another one takes all arguments, so each has taken one or none. -/
lemma remaining_take (last : ∀ p ∈ params.dropLast, p.mode ≠ .variadic)
    (param : params[i]? = some p) :
    remaining (params.take i) args = args.drop ((params.take i).countP Param.takesArgument) := by
  obtain ⟨inside, -⟩ := List.getElem?_eq_some_iff.1 param
  have plain : (params.take i).any (·.mode == .variadic) = false := by
    rw [List.any_eq_false]
    intro q mem
    have early : q ∈ params.dropLast := by
      rw [List.dropLast_eq_take]
      exact (List.take_prefix_take_left (by omega)).subset mem
    simpa using last q early
  simp [remaining, plain]

/-- A variadic is the last parameter, so all that take an argument stand before it. -/
lemma variadic_last (last : ∀ p ∈ params.dropLast, p.mode ≠ .variadic)
    (param : params[i]? = some p) (mode : p.mode = .variadic) :
    params.getLast? = some p ∧ (params.take i).countP Param.takesArgument =
      (params.filter Param.takesArgument).length := by
  obtain ⟨inside, rfl⟩ := List.getElem?_eq_some_iff.1 param
  have position : i = params.length - 1 := by
    by_contra early
    have mem : params[i] ∈ params.dropLast := by
      rw [List.dropLast_eq_take, List.mem_take_iff_getElem]
      exact ⟨i, by omega, rfl⟩
    exact last _ mem mode
  have whole : params.take i ++ [params[i]] = params := by
    rw [List.take_append_getElem inside, List.take_of_length_le (by omega)]
  have count : params.countP Param.takesArgument
      = (params.take i ++ [params[i]]).countP Param.takesArgument := by rw [whole]
  rw [List.countP_append] at count
  have alone : [params[i]].countP Param.takesArgument = 0 := by simp [Param.takesArgument, mode]
  refine ⟨by rw [List.getLast?_eq_getElem?, ← position, param], ?_⟩
  rw [← List.countP_eq_length_filter, count, alone, Nat.add_zero]

/-- What is accepted leaves no argument. -/
lemma Accepts.remaining_eq_nil (accepts : Accepts c params args) : remaining params args = [] := by
  unfold remaining
  split
  · rfl
  · rename_i plain
    rw [List.countP_eq_length_filter]
    rcases accepts.surplus with none | ⟨v, mem, mode, -⟩
    · exact none
    · exact absurd (List.any_eq_true.2 ⟨v, mem, by simp [mode]⟩) plain

/-- What is accepted has a row for every parameter. -/
lemma Accepts.exists_row (last : ∀ p ∈ params.dropLast, p.mode ≠ .variadic)
    (accepts : Accepts c params args) (param : params[i]? = some p) :
    ∃ slot points, Row c p (remaining (params.take i) args) slot points := by
  rw [remaining_take last param]
  rcases takesArgument_or p with out | variadic | takes
  · exact ⟨.nil, 0, .out out⟩
  · obtain ⟨here, count⟩ := variadic_last last param variadic
    rw [exists_row_variadic variadic, count]
    rcases accepts.surplus with none | ⟨v, mem, mode, all⟩
    · simp [none]
    · -- The variadic that takes the surplus is this one, for both are the last parameter.
      obtain ⟨k, inside, rfl⟩ := List.getElem_of_mem mem
      obtain ⟨there, -⟩ := variadic_last last (List.getElem?_eq_getElem inside) mode
      rw [here] at there
      cases there
      exact all
  · rw [exists_row_takes takes, Missing, List.head?_drop]
    exact accepts.each _ p (getElem?_filter_iff.2 ⟨i, param, takes, rfl⟩)

/-- What leaves no argument and has a row for every parameter is accepted. -/
lemma Accepts.of_rows (last : ∀ p ∈ params.dropLast, p.mode ≠ .variadic)
    (spent : remaining params args = [])
    (each : ∀ i p, params[i]? = some p →
      ∃ slot points, Row c p (remaining (params.take i) args) slot points) :
    Accepts c params args := by
  constructor
  · intro j p kept
    obtain ⟨i, param, takes, rfl⟩ := getElem?_filter_iff.1 kept
    have row := each i p param
    rw [remaining_take last param, exists_row_takes takes, Missing, List.head?_drop] at row
    exact row
  · unfold remaining at spent
    split at spent
    · rename_i variadic
      obtain ⟨v, mem, mode⟩ := List.any_eq_true.1 variadic
      have mode : v.mode = .variadic := by simpa using mode
      obtain ⟨i, inside, rfl⟩ := List.getElem_of_mem mem
      have param := List.getElem?_eq_getElem inside
      have row := each i _ param
      rw [remaining_take last param, exists_row_variadic mode,
        (variadic_last last param mode).2] at row
      exact Or.inr ⟨_, mem, mode, row⟩
    · rw [List.countP_eq_length_filter] at spent
      exact Or.inl spent

/-- The arguments that have a table are those that the parameters accept. -/
lemma accepts_iff (last : ∀ p ∈ params.dropLast, p.mode ≠ .variadic) :
    Accepts c params args ↔
      remaining params args = [] ∧ ∃ rows, BindingTable c params args rows := by
  rw [exists_table_iff]
  constructor
  · intro accepts
    exact ⟨accepts.remaining_eq_nil, fun i p param => accepts.exists_row last param⟩
  · rintro ⟨spent, each⟩
    exact .of_rows last spent each

end Acceptance

/-- A method accepts arguments as its parameters do by position, and binds them as the table
says: one slot for each parameter, for the sum of the points. -/
theorem bind_table {m : Method} (last : m.VariadicLast) (c : Coercer) (args : List HostValue)
    (receiver : Option HostObject) :
    ((∃ b, bind c m args receiver = some b) ↔ Accepts c (m.left receiver) args) ∧
    ∀ b, bind c m args receiver = some b →
      b.slots.length = m.params.length ∧
      ∃ rows, BindingTable c (m.left receiver) args rows ∧
        b.slots = m.received receiver ++ rows.map (·.1) ∧ b.score = (rows.map (·.2)).sum := by
  have left_last : ∀ p ∈ (m.left receiver).dropLast, p.mode ≠ .variadic := by
    intro p mem
    rw [Method.left, List.dropLast_drop_eq_drop_dropLast] at mem
    exact last p (List.mem_of_mem_drop mem)
  constructor
  · rw [accepts_iff left_last]
    constructor
    · rintro ⟨b, bound⟩
      obtain ⟨spent, rows, table, -⟩ := bind_iff.1 bound
      exact ⟨spent, rows, table⟩
    · rintro ⟨spent, rows, table⟩
      exact ⟨_, bind_iff.2 ⟨spent, rows, table, rfl⟩⟩
  · intro b bound
    obtain ⟨-, rows, table, rfl⟩ := bind_iff.1 bound
    refine ⟨?_, rows, table, rfl, rfl⟩
    rw [List.length_append, List.length_map, table.length, Method.left, List.length_drop]
    have inside := m.length_received_le receiver
    omega

section Printing

/-- Prints a document, which is the receiver, and tells the number of pages. -/
def printing : Method where
  name := "print"
  params :=
    [⟨"document", .object "office.Document", .out, none⟩, ⟨"copies", .int .i64, .input, none⟩,
      ⟨"title", .string, .ref, some (.str "Untitled")⟩, ⟨"pages", .int .i64, .out, none⟩,
      ⟨"labels", .string, .variadic, none⟩]
  returns := none
  isStatic := true
  hidden := false
  isExtension := true
  typeParams := 0
  label := "print"
  body := .idle

def document : HostObject :=
  ⟨1, default⟩

/-- Three copies without a title, with two labels. -/
def orders : List HostValue :=
  [.int 3, .nil, .str "draft", .str "internal"]

/-- The document takes no argument, the number of copies and the title take one each, and the
labels take what is left over. -/
theorem orders_table : printing.VariadicLast ∧
    Accepts (coerce 8 {}) (printing.left (some document)) orders ∧
    ∃ rows, BindingTable (coerce 8 {}) (printing.left (some document)) orders rows ∧
      .object document :: rows.map (·.1) = [.object document, .int 3, .str "Untitled", .nil,
        .array [.str "draft", .str "internal"]] ∧ (rows.map (·.2)).sum = 5 := by
  have last : printing.VariadicLast := by decide
  have bound : bind (coerce 8 {}) printing orders (some document) = some ⟨5, [.object document,
      .int 3, .str "Untitled", .nil, .array [.str "draft", .str "internal"]]⟩ := rfl
  obtain ⟨accepts, binds⟩ := bind_table last (coerce 8 {}) orders (some document)
  obtain ⟨-, rows, table, slots, score⟩ := binds _ bound
  exact ⟨last, accepts.1 ⟨_, bound⟩, rows, table, slots.symm, score.symm⟩

end Printing

end Bridge

end ScriptBridge
