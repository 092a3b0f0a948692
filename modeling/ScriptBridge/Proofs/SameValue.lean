import Mathlib.Data.List.Forall2
import ScriptBridge.Proofs.Doubles
import ScriptBridge.Proofs.Nested

/-!
# Equality of host values

Equality is symmetric, and it is transitive where an identity stands for one thing only. Equal
values are the same, or they are integers, doubles or types that are equal, or arrays of equal
values.
-/

namespace ScriptBridge

lemma forall₂_imp_mem {α β : Type} {R S : α → β → Prop} {xs : List α} {ys : List β}
    (each : List.Forall₂ R xs ys) (imp : ∀ x ∈ xs, ∀ y ∈ ys, R x y → S x y) :
    List.Forall₂ S xs ys := by
  induction each with
  | nil => exact .nil
  | cons head _ ih =>
    refine .cons (imp _ List.mem_cons_self _ List.mem_cons_self head) (ih fun x mem y mem' => ?_)
    exact imp x (List.mem_cons_of_mem _ mem) y (List.mem_cons_of_mem _ mem')

lemma forall₂_trans_mem {α : Type} {R : α → α → Prop} {xs ys zs : List α}
    (first : List.Forall₂ R xs ys) (second : List.Forall₂ R ys zs)
    (trans : ∀ x ∈ xs, ∀ y z, R x y → R y z → R x z) : List.Forall₂ R xs zs := by
  induction first generalizing zs with
  | nil => exact second
  | cons head _ ih =>
    cases second with
    | cons head' tail' =>
      exact .cons (trans _ List.mem_cons_self _ _ head head')
        (ih tail' fun x mem => trans x (List.mem_cons_of_mem _ mem))

lemma HostType.equal_swap (s t : HostType) : s.equal t = t.equal s := by
  unfold equal isSame
  rw [BEq.comm (a := s), BEq.comm (a := s.fullName)]

lemma HostType.equal_self (t : HostType) : t.equal t = true := by
  simp [equal, isSame]

/-- What identities stand for: instances of a class, and definitions of a full name. -/
structure Identities where
  cls : Nat → HostType
  fullName : Nat → String

namespace HostValue

/-- The instances and types in a value are those that their identities stand for. -/
def Identified (ids : Identities) (v : HostValue) : Prop :=
  (∀ o, object o ∈ v.parts → o.cls = ids.cls o.id) ∧
    ∀ t, type t ∈ v.parts → t.fullName = ids.fullName t.identity

section Symmetry

variable {v w : HostValue} {vs ws : List HostValue}

lemma sameAll_iff : sameAll vs ws = true ↔ List.Forall₂ (fun v w => v.same w = true) vs ws := by
  induction vs generalizing ws with
  | nil => cases ws <;> simp [sameAll]
  | cons v vs ih => cases ws <;> simp [sameAll, ih]

lemma sameAll_swap (swap : ∀ v ∈ vs, ∀ w, v.same w = w.same v) :
    sameAll vs ws = sameAll ws vs := by
  induction vs generalizing ws with
  | nil => cases ws <;> rfl
  | cons v vs ih =>
    cases ws with
    | nil => rfl
    | cons w ws =>
      rw [sameAll, sameAll, swap v List.mem_cons_self,
        ih fun v mem => swap v (List.mem_cons_of_mem _ mem)]

/-- Equality is symmetric. -/
theorem same_swap (v w : HostValue) : v.same w = w.same v := by
  induction v using nesting generalizing w with
  | array items swap =>
    cases w with
    | array items' => exact sameAll_swap swap
    | _ => rfl
  | plain v plain =>
    cases v with
    | array items => exact absurd rfl (plain items)
    | float x => cases w <;> first | rfl | exact Number.beq_swap _ _
    | type t => cases w <;> first | rfl | exact t.equal_swap _
    | _ => cases w <;> first | rfl | exact BEq.comm

/-- A value equals itself unless there is a NaN in it. -/
theorem same_self (numbers : ∀ x, float x ∈ v.parts → Number.isNaN x = false) :
    v.same v = true := by
  induction v using nesting with
  | array items ih =>
    refine sameAll_iff.2 (List.forall₂_same.2 fun v mem => ih v mem fun x part => ?_)
    exact numbers x (mem_parts_of_mem mem part)
  | plain v plain =>
    cases v with
    | array items => exact absurd rfl (plain items)
    | float x => exact Number.beq_self (numbers x (self_mem_parts _))
    | type t => exact t.equal_self
    | _ => first | rfl | exact beq_self_eq_true _

end Symmetry

/-- What two equal values look like from outside. -/
inductive Paired : HostValue → HostValue → Prop
  | nil : Paired nil nil
  | bool (b : Bool) : Paired (bool b) (bool b)
  | int (i : Int64) : Paired (int i) (int i)
  | unsigned (u : UInt64) : Paired (unsigned u) (unsigned u)
  | intUnsigned {i : Int64} {u : UInt64} (number : i.toInt = u.toNat) : Paired (int i) (unsigned u)
  | unsignedInt {i : Int64} {u : UInt64} (number : i.toInt = u.toNat) : Paired (unsigned u) (int i)
  | float {x y : Float} (equal : (x == y) = true) : Paired (float x) (float y)
  | big (n : Int) : Paired (big n) (big n)
  | str (s : String) : Paired (str s) (str s)
  | array {vs ws : List HostValue} (each : List.Forall₂ (fun v w => v.same w = true) vs ws) :
      Paired (array vs) (array ws)
  | table (id : Nat) : Paired (table id) (table id)
  | function (r : Routine) : Paired (function r) (function r)
  | thread (id : Nat) : Paired (thread id) (thread id)
  | object {o o' : HostObject} (identity : o.id = o'.id) : Paired (object o) (object o')
  | type {t t' : HostType} (equal : t.equal t' = true) : Paired (type t) (type t')

/-- Why values are equal. -/
inductive Same : HostValue → HostValue → Prop
  | itself {v : HostValue} (equal : v.same v = true) : Same v v
  | integer {v w : HostValue} {n : Int} (left : v.integer? = some n) (right : w.integer? = some n) :
      Same v w
  | float {x y : Float} (equal : (x == y) = true) : Same (float x) (float y)
  | array {vs ws : List HostValue} (each : List.Forall₂ Same vs ws) : Same (array vs) (array ws)
  | type {t t' : HostType} (named : t.fullName = t'.fullName) : Same (type t) (type t')

section Transitivity

variable {ids : Identities} {u v w : HostValue} {vs ws : List HostValue}

lemma Identified.item (known : (array vs).Identified ids) (mem : v ∈ vs) : v.Identified ids :=
  ⟨fun o part => known.1 o (mem_parts_of_mem mem part),
    fun t part => known.2 t (mem_parts_of_mem mem part)⟩

lemma int_or_unsigned {n : Int} (reading : v.integer? = some n) :
    (∃ i, v = int i) ∨ ∃ u, v = unsigned u := by
  cases v with
  | int i => exact Or.inl ⟨i, rfl⟩
  | unsigned u => exact Or.inr ⟨u, rfl⟩
  | _ => cases reading

/-- Values that are integers, signed or not, are equal when their numbers are. -/
lemma same_of_integer? {n : Int} (left : v.integer? = some n) (right : w.integer? = some n) :
    v.same w = true := by
  have number := left.trans right.symm
  cases v with
  | int i =>
    cases w with
    | int j => exact beq_iff_eq.2 (Int64.toInt_inj.1 (Option.some.inj number))
    | unsigned b => exact beq_iff_eq.2 (Option.some.inj number)
    | _ => cases right
  | unsigned a =>
    cases w with
    | int j => exact beq_iff_eq.2 (Option.some.inj number).symm
    | unsigned b =>
      exact beq_iff_eq.2 (UInt64.toNat_inj.1 (Int.ofNat.inj (Option.some.inj number)))
    | _ => cases right
  | _ => cases left

theorem Paired.of_same (equal : v.same w = true) : Paired v w := by
  cases v with
  | nil => cases w with
    | nil => exact .nil
    | _ => cases equal
  | bool b => cases w with
    | bool b' =>
      cases beq_iff_eq.1 equal
      exact .bool b
    | _ => cases equal
  | int i => cases w with
    | int j =>
      cases beq_iff_eq.1 equal
      exact .int i
    | unsigned u => exact .intUnsigned (beq_iff_eq.1 equal)
    | _ => cases equal
  | unsigned u => cases w with
    | int i => exact .unsignedInt (beq_iff_eq.1 equal)
    | unsigned u' =>
      cases beq_iff_eq.1 equal
      exact .unsigned u
    | _ => cases equal
  | float x => cases w with
    | float y => exact .float equal
    | _ => cases equal
  | big n => cases w with
    | big n' =>
      cases beq_iff_eq.1 equal
      exact .big n
    | _ => cases equal
  | str s => cases w with
    | str s' =>
      cases beq_iff_eq.1 equal
      exact .str s
    | _ => cases equal
  | array vs => cases w with
    | array ws => exact .array (sameAll_iff.1 equal)
    | _ => cases equal
  | table id => cases w with
    | table id' =>
      cases beq_iff_eq.1 equal
      exact .table id
    | _ => cases equal
  | function r => cases w with
    | function r' =>
      cases beq_iff_eq.1 equal
      exact .function r
    | _ => cases equal
  | thread id => cases w with
    | thread id' =>
      cases beq_iff_eq.1 equal
      exact .thread id
    | _ => cases equal
  | object o => cases w with
    | object o' => exact .object (beq_iff_eq.1 equal)
    | _ => cases equal
  | type t => cases w with
    | type t' => exact .type equal
    | _ => cases equal

lemma Paired.integer? (paired : Paired v w) : v.integer? = w.integer? := by
  cases paired with
  | intUnsigned number => exact congrArg some number
  | unsignedInt number => exact congrArg some number.symm
  | _ => rfl

lemma integer?_of_same {n : Int} (equal : v.same w = true) (left : v.integer? = some n) :
    w.integer? = some n :=
  (Paired.of_same equal).integer?.symm.trans left

/-- Where identities are known, equality has one of the reasons. -/
theorem Same.of_same (known : v.Identified ids) (known' : w.Identified ids)
    (equal : v.same w = true) : Same v w := by
  induction v using nesting generalizing w with
  | array vs ih =>
    cases Paired.of_same equal with
    | array each =>
      exact .array (forall₂_imp_mem each fun v mem w mem' equal =>
        ih v mem (known.item mem) (known'.item mem') equal)
  | plain v plain =>
    cases Paired.of_same equal with
    | array each => exact absurd rfl (plain _)
    | intUnsigned number => exact .integer rfl (congrArg some number.symm)
    | unsignedInt number => exact .integer rfl (congrArg some number)
    | float equal => exact .float equal
    | @object o o' identity =>
      -- the identity tells the class, so there is one instance only
      have cls : o.cls = o'.cls := by
        rw [known.1 o (self_mem_parts _), known'.1 o' (self_mem_parts _), identity]
      obtain rfl : o = o' := by
        cases o
        cases o'
        cases identity
        cases cls
        rfl
      exact .itself equal
    | @type t t' equal =>
      refine .type ?_
      rcases Bool.or_eq_true_iff.1 equal with identity | named
      · rw [known.2 t (self_mem_parts _), known'.2 t' (self_mem_parts _), beq_iff_eq.1 identity]
      · exact beq_iff_eq.1 named
    | _ => exact .itself equal

theorem Same.same (equal : Same v w) : v.same w = true := by
  induction v using nesting generalizing w with
  | array vs ih =>
    cases equal with
    | itself equal => exact equal
    | integer left _ => cases left
    | array each =>
      exact sameAll_iff.2 (forall₂_imp_mem each fun v mem _ _ equal => ih v mem equal)
  | plain v plain =>
    cases equal with
    | itself equal => exact equal
    | integer left right => exact same_of_integer? left right
    | float equal => exact equal
    | array each => exact absurd rfl (plain _)
    | type named => exact Bool.or_eq_true_iff.2 (Or.inr (beq_iff_eq.2 named))

lemma Same.integer? {n : Int} (equal : Same v w) (left : v.integer? = some n) :
    w.integer? = some n :=
  integer?_of_same equal.same left

lemma Same.nil_iff (equal : Same v w) : v = .nil ↔ w = .nil := by
  cases equal with
  | itself _ => rfl
  | integer left right =>
    constructor
    · rintro rfl
      cases left
    · rintro rfl
      cases right
  | _ => simp

theorem Same.trans (first : Same u v) (second : Same v w) : Same u w := by
  induction u using nesting generalizing v w with
  | array us ih =>
    cases first with
    | itself _ => exact second
    | integer left _ => cases left
    | array each =>
      cases second with
      | itself _ => exact .array each
      | integer left _ => cases left
      | array each' =>
        exact .array
          (forall₂_trans_mem each each' fun u mem _ _ first second => ih u mem first second)
  | plain u plain =>
    cases first with
    | itself _ => exact second
    | integer left right => exact .integer left (second.integer? right)
    | float equal =>
      cases second with
      | itself _ => exact .float equal
      | integer left _ => cases left
      | float equal' => exact .float (Number.beq_trans equal equal')
    | array each => exact absurd rfl (plain _)
    | type named =>
      cases second with
      | itself _ => exact .type named
      | integer left _ => cases left
      | type named' => exact .type (named.trans named')

/-- Equality is transitive where identities are known. -/
theorem same_trans (known : u.Identified ids) (known' : v.Identified ids)
    (known'' : w.Identified ids) (first : u.same v = true) (second : v.same w = true) :
    u.same w = true :=
  ((Same.of_same known known' first).trans (Same.of_same known' known'' second)).same

end Transitivity

end HostValue

end ScriptBridge
