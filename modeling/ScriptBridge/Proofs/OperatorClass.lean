import ScriptBridge.Proofs.Exposure

/-!
# The class an operator is run under

The overloads of all operands compete, but the class handed to the one that wins is settled before
they do: it is that of the first operand whose class overloads the operator. So where an overload
of the other operand has more points than all of that class, it runs under a class that may not
even know it.
-/

namespace ScriptBridge.Bridge

section Collecting

variable (r : Registry) (op : Operator)

/-- The overloads that an operand brings when no other one came before it. -/
def brought (v : HostValue) : List (Declared Method) :=
  (({} : OperatorCandidates).add r op v).overloads

variable {r op}

lemma isSame_self (m : Declared Method) : m.isSame m = true := by
  simp [Declared.isSame, HostType.isSame]

/-- Overloads of the operand's class are added where they are not there yet. The first class that
adds any is the owner. -/
lemma add_eq (r : Registry) (op : Operator) (found : OperatorCandidates) (o : HostObject) :
    ∃ new, (∀ m ∈ new, m ∈ (r.metadata o.cls).operator op ∧ ¬ found.overloads.any m.isSame) ∧
      (∀ m ∈ (r.metadata o.cls).operator op, (found.overloads ++ new).any m.isSame) ∧
      found.add r op (.object o) = ⟨found.overloads ++ new,
        if new = [] then found.owner else found.owner.or (some o.cls)⟩ := by
  show ∃ new, _ ∧ _ ∧ ((r.metadata o.cls).operator op).foldl _ found = _
  -- By induction on the overloads of the class, with those found before each of them.
  induction (r.metadata o.cls).operator op generalizing found with
  | nil => exact ⟨[], by simp, by simp, by simp⟩
  | cons m rest ih =>
    rw [List.foldl_cons]
    by_cases known : found.overloads.any m.isSame
    · rw [if_pos known]
      obtain ⟨new, added, complete, eq⟩ := ih found
      refine ⟨new, fun n mem => ⟨List.mem_cons_of_mem m (added n mem).1, (added n mem).2⟩, ?_, eq⟩
      intro n mem
      rcases List.mem_cons.1 mem with rfl | mem
      · rw [List.any_append, known, Bool.true_or]
      · exact complete n mem
    · rw [if_neg known]
      obtain ⟨new, added, complete, eq⟩ := ih ⟨found.overloads ++ [m], found.owner.or (some o.cls)⟩
      refine ⟨m :: new, fun n mem => ?_, fun n mem => ?_, ?_⟩
      · rcases List.mem_cons.1 mem with rfl | mem
        · exact ⟨List.mem_cons_self, known⟩
        · obtain ⟨own, other⟩ := added n mem
          rw [List.any_append, Bool.or_eq_true, not_or] at other
          exact ⟨List.mem_cons_of_mem m own, other.1⟩
      · rcases List.mem_cons.1 mem with rfl | mem
        · simp [isSame_self]
        · simpa using complete n mem
      · rw [eq]
        cases found.owner <;> simp

lemma add_of_not_object {v : HostValue} (plain : ∀ o, v ≠ .object o) (found : OperatorCandidates) :
    found.add r op v = found := by
  cases v with
  | object o => exact absurd rfl (plain o)
  | _ => rfl

lemma mem_of_brought {o : HostObject} {m : Declared Method} (mem : m ∈ brought r op (.object o)) :
    m ∈ (r.metadata o.cls).operator op := by
  obtain ⟨new, added, -, eq⟩ := add_eq r op {} o
  rw [brought, eq] at mem
  exact (added m (by simpa using mem)).1

lemma brought_of_mem {o : HostObject} {m : Declared Method}
    (mem : m ∈ (r.metadata o.cls).operator op) : (brought r op (.object o)).any m.isSame := by
  obtain ⟨new, -, complete, eq⟩ := add_eq r op {} o
  rw [brought, eq]
  exact complete m mem

/-- An operand that brings nothing changes nothing; the first one that brings something is the
owner. -/
lemma add_empty (r : Registry) (op : Operator) (v : HostValue) :
    (brought r op v = [] ∧ ({} : OperatorCandidates).add r op v = {}) ∨
      ∃ o, v = .object o ∧ brought r op v ≠ [] ∧
        ({} : OperatorCandidates).add r op v = ⟨brought r op v, some o.cls⟩ := by
  by_cases object : ∃ o, v = .object o
  · obtain ⟨o, rfl⟩ := object
    obtain ⟨new, -, -, eq⟩ := add_eq r op {} o
    have own : brought r op (.object o) = new := by simp [brought, eq]
    by_cases none : new = []
    · exact Or.inl ⟨own.trans none, by simp [eq, none]⟩
    · exact Or.inr ⟨o, rfl, own ▸ none, by simp [eq, own, none]⟩
  · have plain : ∀ o, v ≠ .object o := fun o eq => object ⟨o, eq⟩
    exact Or.inl ⟨by simp [brought, add_of_not_object plain], add_of_not_object plain _⟩

/-- Once there is an owner it stays, and what operands bring joins the overloads at the end. -/
lemma foldl_add_owned (r : Registry) (op : Operator) (operands : List HostValue)
    (own : List (Declared Method)) (owner : HostType) :
    ∃ new, (∀ m ∈ new, ¬ own.any m.isSame ∧
        ∃ o, .object o ∈ operands ∧ m ∈ (r.metadata o.cls).operator op) ∧
      operands.foldl (·.add r op) (⟨own, some owner⟩ : OperatorCandidates)
        = ⟨own ++ new, some owner⟩ := by
  induction operands generalizing own with
  | nil => exact ⟨[], by simp, by simp⟩
  | cons v rest ih =>
    rw [List.foldl_cons]
    by_cases object : ∃ o, v = .object o
    · obtain ⟨o, rfl⟩ := object
      obtain ⟨new, added, -, eq⟩ := add_eq r op ⟨own, some owner⟩ o
      obtain ⟨more, later, eq'⟩ := ih (own ++ new)
      refine ⟨new ++ more, fun m mem => ?_, ?_⟩
      · rcases List.mem_append.1 mem with mem | mem
        · exact ⟨(added m mem).2, o, List.mem_cons_self, (added m mem).1⟩
        · obtain ⟨other, o', here, known⟩ := later m mem
          rw [List.any_append, Bool.or_eq_true, not_or] at other
          exact ⟨other.1, o', List.mem_cons_of_mem _ here, known⟩
      · have kept : (if new = [] then some owner else (some owner).or (some o.cls))
            = some owner := by
          split <;> rfl
        rw [eq, kept, eq', List.append_assoc]
    · have plain : ∀ o, v ≠ .object o := fun o eq => object ⟨o, eq⟩
      obtain ⟨new, added, eq⟩ := ih own
      refine ⟨new, fun m mem => ?_, by rw [add_of_not_object plain, eq]⟩
      obtain ⟨other, o, here, known⟩ := added m mem
      exact ⟨other, o, List.mem_cons_of_mem v here, known⟩

/-- The operand whose class is the owner is the first one that brings overloads. They come first,
those of later operands after them. -/
lemma exists_owner {operands : List HostValue} {owner : HostType}
    (owned : (operands.foldl (·.add r op) ({} : OperatorCandidates)).owner = some owner) :
    ∃ before o after new, operands = before ++ .object o :: after ∧ owner = o.cls ∧
      (∀ v ∈ before, brought r op v = []) ∧ brought r op (.object o) ≠ [] ∧
      (∀ m ∈ new, ¬ (brought r op (.object o)).any m.isSame ∧
        ∃ o', .object o' ∈ after ∧ m ∈ (r.metadata o'.cls).operator op) ∧
      (operands.foldl (·.add r op) ({} : OperatorCandidates)).overloads
        = brought r op (.object o) ++ new := by
  induction operands with
  | nil => cases owned
  | cons v rest ih =>
    rw [List.foldl_cons] at owned ⊢
    rcases add_empty r op v with ⟨nothing, eq⟩ | ⟨o, rfl, something, eq⟩
    · rw [eq] at owned ⊢
      obtain ⟨before, o, after, new, split, cls, bare, something, added, overloads⟩ := ih owned
      refine ⟨v :: before, o, after, new, by rw [split, List.cons_append], cls, ?_, something,
        added, overloads⟩
      intro u here
      rcases List.mem_cons.1 here with rfl | here
      · exact nothing
      · exact bare u here
    · rw [eq] at owned ⊢
      obtain ⟨new, added, eq'⟩ := foldl_add_owned r op rest
        (brought r op (.object o)) o.cls
      rw [eq'] at owned ⊢
      exact ⟨[], o, rest, new, rfl, (Option.some.inj owned).symm, by simp, something, added, rfl⟩

end Collecting

section Competing

variable {c : Coercer} {own others : List (Declared Method)} {args : List HostValue}
  {receiver : Option HostObject} {found : Resolved}

/-- Candidates that come later win only if they have more points than all that come first. -/
lemma resolve_append (won : resolve c (own ++ others) args receiver = some found) :
    resolve c own args receiver = some found ∨
      found.member ∈ others ∧
        ∀ other, resolve c own args receiver = some other → other.score < found.score := by
  unfold resolve at won
  rw [List.filter_append, List.filterMap_append, best_append] at won
  rcases better_eq_some won with first | ⟨later, fewer⟩
  · exact Or.inl first
  · have accepted : resolve c others args receiver = some found := later
    exact Or.inr ⟨(mem_of_resolve accepted).1, fewer⟩

end Competing

/-- An operator is run under the class of the first operand that brings overloads, whichever
overload wins. That class offers the overload exactly when its own were not all beaten. -/
theorem planOperator_class {c : Coercer} {r : Registry} {op : Operator} {operands : List HostValue}
    {inv : Invocation} (planned : planOperator c r op operands = .ok inv) :
    ∃ before o after, operands.take op.arity = before ++ .object o :: after ∧ inv.cls = o.cls ∧
      (∀ v ∈ before, brought r op v = []) ∧ brought r op (.object o) ≠ [] ∧
      (∃ o', .object o' ∈ .object o :: after ∧ inv.member ∈ (r.metadata o'.cls).operator op) ∧
      ∃ points, bind c inv.member.item (operands.take op.arity) none = some ⟨points, inv.slots⟩ ∧
        (inv.member ∈ (r.metadata inv.cls).operator op ↔
          ¬ ∀ own, resolve c (brought r op (.object o)) (operands.take op.arity) none = some own →
            own.score < points) := by
  unfold planOperator at planned
  dsimp only at planned
  split at planned
  · cases planned
  · rename_i owner owned
    obtain ⟨before, o, after, new, operands_eq, rfl, bare, something, added, overloads⟩ :=
      exists_owner owned
    split at planned
    · rename_i selected won
      cases planned
      refine ⟨before, o, after, operands_eq, rfl, bare, something, ?_⟩
      have bound := bind_of_resolve won
      rw [overloads] at won
      rcases resolve_append won with first | ⟨later, fewer⟩
      · have own := mem_of_brought (mem_of_resolve first).1
        have unbeaten : ¬ ∀ own, resolve c (brought r op (.object o)) (operands.take op.arity) none
            = some own → own.score < selected.score :=
          fun beaten => Nat.lt_irrefl _ (beaten selected first)
        exact ⟨⟨o, List.mem_cons_self, own⟩, selected.score, bound,
          iff_of_true own unbeaten⟩
      -- What was added later differs from all that the owner brought, so it is not the owner's.
      · obtain ⟨other, o', here, known⟩ := added selected.member later
        have unknown : selected.member ∉ (r.metadata o.cls).operator op :=
          fun own => other (brought_of_mem own)
        exact ⟨⟨o', List.mem_cons_of_mem _ here, known⟩, selected.score, bound,
          iff_of_false unknown (not_not_intro fewer)⟩
    · cases planned

section Shop

/-- An addition with the kinds of its operands. -/
def addition (label : String) (left right : Kind) (body : Body) : Method where
  name := "+"
  params := [⟨"left", left, .input, none⟩, ⟨"right", right, .input, none⟩]
  returns := some .any
  isStatic := true
  hidden := false
  isExtension := false
  typeParams := 0
  label := label
  body := body

/-- A class that declares nothing but an addition. -/
def addable (identity : Nat) (name : String) (sum : Method) : HostType where
  identity := identity
  name := name
  ns := some "shop"
  primitive := none
  members := { operators := [(.add, sum)] }
  typeParams := none
  home := "shop." ++ name
  base := none
  nested := []
  typeArgs := []

/-- Puts a text behind a price. -/
def labelled : Method :=
  addition "labelled" (.object "shop.Price") .string .invokedClass

/-- Makes a new tax out of anything and a tax. -/
def taxed : Method :=
  addition "taxed" .any (.object "shop.Tax") (.construct [])

def price : HostType :=
  addable 40 "Price" labelled

def tax : HostType :=
  addable 41 "Tax" taxed

def summands : List HostValue :=
  [.object ⟨1, price⟩, .object ⟨2, tax⟩]

/-- What adding a tax to a price comes to. -/
def priceAndTax : Invocation :=
  ⟨⟨tax, 0, taxed⟩, "__add", price, none, summands, []⟩

def shop : Registry :=
  { Registry.empty with types := [price, tax], nextIdentity := 42 }

lemma planOperator_priceAndTax :
    planOperator (coerce 8 {}) shop .add summands = .ok priceAndTax := by
  rfl

lemma taxed_not_offered : priceAndTax.member ∉ (shop.metadata priceAndTax.cls).operator .add := by
  intro offered
  have offers : (shop.metadata priceAndTax.cls).operator .add = [⟨price, 0, labelled⟩] := rfl
  rw [offers, List.mem_singleton] at offered
  have identity := congrArg (·.owner.identity) offered
  simp [priceAndTax, tax, price, addable] at identity

/-- The tax is added under the class of the price, all of whose additions it beats. -/
theorem beaten_price : ∃ before o after, summands = before ++ .object o :: after ∧
    o.cls = price ∧ ∃ points, ∀ own, resolve (coerce 8 {}) (brought shop .add (.object o)) summands
      none = some own → own.score < points := by
  obtain ⟨before, o, after, operands, cls, -, -, -, points, -, offers⟩ :=
    planOperator_class planOperator_priceAndTax
  have beaten := Classical.not_not.1 (mt offers.2 taxed_not_offered)
  exact ⟨before, o, after, operands, cls.symm, points, beaten⟩

/-- Not every operator is run under a class that offers the overload. -/
theorem not_always_offered : ¬ ∀ (c : Coercer) (r : Registry) (op : Operator)
    (operands : List HostValue) (inv : Invocation), planOperator c r op operands = .ok inv →
      ∃ o, .object o ∈ operands ∧ inv.cls = o.cls ∧
        inv.member ∈ (r.metadata o.cls).operator op := by
  intro offered
  obtain ⟨o, -, cls, own⟩ := offered _ _ _ _ _ planOperator_priceAndTax
  exact taxed_not_offered (cls ▸ own)

end Shop

end ScriptBridge.Bridge
