import Mathlib.Data.List.Basic
import Mathlib.Tactic.Lemma
import ScriptBridge.Host.Registry

/-!
# How the names of closed types read

A closed type is named by its open type with the arguments in angle brackets. When the names that
go in are plain, or are made so themselves, such a name reads in one way only: the open type ends
at the first bracket, and the arguments are parted by the commas outside of all inner brackets.
-/

namespace ScriptBridge.ClosedName

/-- How deep inside brackets the text goes on after a character; nothing where it breaks off,
which is at a comma or a closing bracket outside of all brackets. -/
def nest (depth : Nat) (c : Char) : Option Nat :=
  if c = '<' then some (depth + 1)
  else if c = '>' then (if depth = 0 then none else some (depth - 1))
  else if c = ',' then (if depth = 0 then none else some depth)
  else some depth

/-- Every bracket is closed, and every comma is inside of some. -/
def Whole (text : List Char) : Prop :=
  text.foldlM nest 0 = some 0

/-- There are no brackets and no commas. -/
def Plain (text : List Char) : Prop :=
  ∀ c ∈ text, c ≠ '<' ∧ c ≠ '>' ∧ c ≠ ','

instance : DecidablePred Plain :=
  List.decidableBAll fun c => c ≠ '<' ∧ c ≠ '>' ∧ c ≠ ','

/-- A head with arguments in brackets. -/
def applied (head separator : List Char) (args : List (List Char)) : List Char :=
  head ++ '<' :: (separator.intercalate args ++ ['>'])

section Nesting

variable {text rest : List Char} {depth depth' : Nat}

lemma nest_succ {c : Char} (h : nest depth c = some depth') :
    nest (depth + 1) c = some (depth' + 1) := by
  unfold nest at *
  grind

/-- Inside one more bracket the text goes on as it does outside. -/
lemma foldlM_nest_succ (h : text.foldlM nest depth = some depth') :
    text.foldlM nest (depth + 1) = some (depth' + 1) := by
  induction text generalizing depth with
  | nil =>
    cases h
    rfl
  | cons c rest ih =>
    rw [List.foldlM_cons] at h ⊢
    obtain ⟨between, first, second⟩ := Option.bind_eq_some_iff.1 h
    rw [nest_succ first]
    exact ih second

lemma Plain.foldlM_nest (plain : Plain text) (depth : Nat) :
    text.foldlM nest depth = some depth := by
  induction text with
  | nil => rfl
  | cons c rest ih =>
    obtain ⟨opening, closing, comma⟩ := plain c List.mem_cons_self
    have here : nest depth c = some depth := by
      unfold nest
      rw [if_neg opening, if_neg closing, if_neg comma]
    rw [List.foldlM_cons, here]
    exact ih fun c' mem => plain c' (List.mem_cons_of_mem c mem)

lemma Plain.whole (plain : Plain text) : Whole text :=
  plain.foldlM_nest 0

lemma Plain.not_mem_opening (plain : Plain text) : '<' ∉ text :=
  fun mem => (plain '<' mem).1 rfl

lemma Whole.foldlM_inside (whole : Whole text) : text.foldlM nest 1 = some 1 :=
  foldlM_nest_succ whole

/-- A comma or a closing bracket stands outside of all brackets after a whole text. -/
lemma Whole.foldlM_append_stop (whole : Whole text) {c : Char} (stop : nest 0 c = none) :
    (text ++ c :: rest).foldlM nest 0 = none := by
  rw [List.foldlM_append, whole]
  show ((c :: rest).foldlM nest 0) = none
  rw [List.foldlM_cons, stop]
  rfl

end Nesting

section Reading

variable {head head' separator : List Char} {args args' : List (List Char)}

/-- Of two whole texts that stop, neither goes on where the other has stopped. -/
lemma Whole.cut {s t u v : List Char} {c c' : Char} (hs : Whole s) (ht : Whole t)
    (stop : nest 0 c = none) (stop' : nest 0 c' = none) (same : s ++ c :: u = t ++ c' :: v) :
    s = t ∧ c :: u = c' :: v := by
  rcases List.append_eq_append_iff.1 same with ⟨more, longer, tail⟩ | ⟨more, longer, tail⟩
  · cases more with
    | nil => exact ⟨by simpa using longer.symm, tail⟩
    | cons d more =>
      cases tail
      rw [Whole, longer, hs.foldlM_append_stop stop] at ht
      cases ht
  · cases more with
    | nil => exact ⟨by simpa using longer, tail.symm⟩
    | cons d more =>
      cases tail
      rw [Whole, longer, ht.foldlM_append_stop stop'] at hs
      cases hs

/-- Whole arguments can be told apart, when it is known how many there are. -/
lemma intercalate_inj (wholes : ∀ a ∈ args, Whole a) (wholes' : ∀ a ∈ args', Whole a)
    (length : args.length = args'.length) {u v : List Char}
    (same : List.intercalate (',' :: separator) args ++ '>' :: u
      = List.intercalate (',' :: separator) args' ++ '>' :: v) : args = args' := by
  have first {a : List Char} {rest : List (List Char)} (h : ∀ b ∈ a :: rest, Whole b) : Whole a :=
    h a List.mem_cons_self
  induction args generalizing args' with
  | nil => exact (List.length_eq_zero_iff.1 length.symm).symm
  | cons a rest ih =>
    obtain _ | ⟨a', rest'⟩ := args'
    · cases length
    have lengths : rest.length = rest'.length := Nat.succ.inj length
    cases rest with
    | nil =>
      rw [List.length_eq_zero_iff.1 lengths.symm, List.intercalate_singleton,
        List.intercalate_singleton] at same
      obtain ⟨rfl, -⟩ := (first wholes).cut (first wholes') rfl rfl same
      rw [List.length_eq_zero_iff.1 lengths.symm]
    | cons b rest =>
      obtain _ | ⟨b', rest'⟩ := rest'
      · cases lengths
      rw [List.intercalate_cons_cons, List.intercalate_cons_cons] at same
      simp only [List.append_assoc, List.cons_append] at same
      obtain ⟨rfl, tails⟩ := (first wholes).cut (first wholes') rfl rfl same
      have others := ih (fun c mem => wholes c (List.mem_cons_of_mem a mem))
        (fun c mem => wholes' c (List.mem_cons_of_mem a mem)) lengths
        (List.append_cancel_left (List.cons.inj tails).2)
      rw [others]

lemma foldlM_intercalate (wholes : ∀ a ∈ args, Whole a) (plain : Plain separator) :
    (List.intercalate (',' :: separator) args).foldlM nest 1 = some 1 := by
  induction args with
  | nil => rfl
  | cons a rest ih =>
    have here := (wholes a List.mem_cons_self).foldlM_inside
    cases rest with
    | nil =>
      rw [List.intercalate_singleton]
      exact here
    | cons b rest =>
      rw [List.intercalate_cons_cons, List.foldlM_append, List.foldlM_append, here]
      show (separator.foldlM nest 1).bind _ = some 1
      rw [plain.foldlM_nest]
      exact ih fun c mem => wholes c (List.mem_cons_of_mem a mem)

/-- What is made of a plain head and whole arguments is whole. -/
lemma whole_applied (plain : Plain head) (separator_plain : Plain separator)
    (wholes : ∀ a ∈ args, Whole a) : Whole (applied head (',' :: separator) args) := by
  unfold Whole applied
  rw [List.foldlM_append, plain.foldlM_nest]
  show ((List.intercalate (',' :: separator) args ++ ['>']).foldlM nest 1) = some 0
  rw [List.foldlM_append, foldlM_intercalate wholes separator_plain]
  rfl

lemma not_plain_applied : ¬ Plain (applied head separator args) :=
  fun plain => plain.not_mem_opening (by simp [applied])

/-- The head ends at the first bracket. -/
lemma takeWhile_applied (plain : Plain head) :
    (applied head separator args).takeWhile (· != '<') = head := by
  have before : ∀ c ∈ head, (c != '<') = true := fun c mem => bne_iff_ne.2 (plain c mem).1
  unfold applied
  rw [List.takeWhile_append_of_pos before, List.takeWhile_cons_of_neg (by decide), List.append_nil]

lemma head_eq_of_applied (plain : Plain head) (plain' : Plain head')
    (same : applied head separator args = applied head' separator args') : head = head' := by
  rw [← takeWhile_applied plain, same, takeWhile_applied plain']

lemma args_eq_of_applied (wholes : ∀ a ∈ args, Whole a) (wholes' : ∀ a ∈ args', Whole a)
    (length : args.length = args'.length)
    (same : applied head (',' :: separator) args = applied head (',' :: separator) args') :
    args = args' :=
  intercalate_inj wholes wholes' length (List.cons.inj (List.append_cancel_left same)).2

end Reading

end ScriptBridge.ClosedName
