import ScriptBridge.Proofs.Coercion
import ScriptBridge.Proofs.Overload
import ScriptBridge.Proofs.SameValue

/-!
# Equal arguments

No kind tells equal values apart: both are coerced to it, with equal results, or neither is. So
arguments that are equal one by one select the same overload, for as many points and with equal
slots.
-/

namespace ScriptBridge

namespace HostValue

/-- Equality of results: a NaN counts as equal to a NaN. -/
inductive Alike : HostValue → HostValue → Prop
  | same {v w : HostValue} (equal : v.same w = true) : Alike v w
  | nan {x y : Float} (left : Number.isNaN x = true) (right : Number.isNaN y = true) :
      Alike (float x) (float y)
  | array {vs ws : List HostValue} (each : List.Forall₂ Alike vs ws) : Alike (array vs) (array ws)

lemma Alike.refl (v : HostValue) : Alike v v := by
  induction v using nesting with
  | array items ih => exact .array (List.forall₂_same.2 ih)
  | plain v plain =>
    by_cases number : ∀ x, v = float x → Number.isNaN x = false
    · refine .same (same_self fun x part => number x ?_)
      rw [parts_plain plain] at part
      exact (List.mem_singleton.1 part).symm
    · push Not at number
      obtain ⟨x, rfl, nan⟩ := number
      exact .nan (Bool.of_not_eq_false nan) (Bool.of_not_eq_false nan)

end HostValue

namespace Bridge

open Script HostValue

section Kinds

variable {kind : Kind} {v w : HostValue}

lemma ofFloat?_alike {x y : Float} (equal : (x == y) = true) :
    Option.Rel Alike (ofFloat? kind x) (ofFloat? kind y) := by
  obtain ⟨-, rfl | ⟨zero, zero'⟩⟩ := Number.beq_iff.1 equal
  · exact rel_refl Alike.refl _
  · have single : Alike (float (Number.toSingle x)) (float (Number.toSingle y)) :=
      .same (Number.beq_of_isZero (Number.isZero_toSingle zero) (Number.isZero_toSingle zero'))
    cases kind with
    | f32 => exact .some single
    | f64 => exact .some (.same equal)
    | bigint =>
      rw [ofFloat?, ofFloat?, Number.integerPart?_of_isZero zero,
        Number.integerPart?_of_isZero zero']
      exact rel_refl Alike.refl _
    | int width =>
      rw [ofFloat?, ofFloat?, Number.integer?_of_isZero zero, Number.integer?_of_isZero zero']
      exact rel_refl Alike.refl _
    | _ => exact .none

lemma coerceNumeric?_alike (equal : Same v w) :
    Option.Rel Alike (coerceNumeric? kind v) (coerceNumeric? kind w) := by
  cases equal with
  | itself _ => exact rel_refl Alike.refl _
  | integer left right =>
    rw [coerceNumeric?_of_integer? left, coerceNumeric?_of_integer? right]
    exact rel_refl Alike.refl _
  | float equal => exact ofFloat?_alike equal
  | array _ => exact .none
  | type _ => exact .none

end Kinds

section Coercion

variable {limit : Nat} {h : Heap} {kind : Kind} {depth : Nat} {v w : HostValue}

lemma coerceAt_numeric_alike (numeric : kind.isNumeric = true) (equal : Same v w) :
    Agree Alike (coerceAt limit h kind depth v) (coerceAt limit h kind depth w) := by
  rw [coerceAt_numeric numeric, coerceAt_numeric numeric]
  exact ofOption_agree (coerceNumeric?_alike equal)

lemma coerceAt_integer_alike {n : Int} (left : v.integer? = some n) (right : w.integer? = some n) :
    Agree Alike (coerceAt limit h kind depth v) (coerceAt limit h kind depth w) := by
  cases kind with
  | any | placeholder => exact .ok (.same (same_of_integer? left right))
  | int | f32 | f64 | bigint => exact coerceAt_numeric_alike rfl (.integer left right)
  | _ =>
    obtain ⟨i, rfl⟩ | ⟨a, rfl⟩ := int_or_unsigned left <;>
      obtain ⟨j, rfl⟩ | ⟨b, rfl⟩ := int_or_unsigned right <;> exact .error _ _

lemma coerceAt_float_alike {x y : Float} (equal : (x == y) = true) :
    Agree Alike (coerceAt limit h kind depth (.float x))
      (coerceAt limit h kind depth (.float y)) := by
  cases kind with
  | any | placeholder => exact .ok (.same equal)
  | int | f32 | f64 | bigint => exact coerceAt_numeric_alike rfl (.float equal)
  | _ => exact .error _ _

lemma coerceAt_type_alike {t t' : HostType} (named : t.fullName = t'.fullName) :
    Agree Alike (coerceAt limit h kind depth (.type t))
      (coerceAt limit h kind depth (.type t')) := by
  cases kind with
  | any | placeholder | type => exact .ok (.same (Same.type named).same)
  | _ => exact .error _ _

/-- Equal values are coerced to equal values, or neither is coerced. -/
theorem coerceAt_alike (equal : Same v w) :
    Agree Alike (coerceAt limit h kind depth v) (coerceAt limit h kind depth w) := by
  induction v using nesting generalizing kind depth w with
  | array vs ih =>
    cases equal with
    | itself _ => exact .refl Alike.refl _
    | integer left _ => cases left
    | @array _ ws each =>
      cases kind with
      | any | placeholder => exact .ok (.same (Same.array each).same)
      | array element =>
        exact coerceAt_array_agree (forall₂_imp_mem each fun v mem w _ equal => ih v mem equal)
          fun _ _ => .array
      | _ => exact .error _ _
  | plain v plain =>
    cases equal with
    | itself _ => exact .refl Alike.refl _
    | integer left right => exact coerceAt_integer_alike left right
    | float equal => exact coerceAt_float_alike equal
    | array _ => exact absurd rfl (plain _)
    | type named => exact coerceAt_type_alike named

end Coercion

section Arguments

variable {limit : Nat} {h : Heap} {args args' : List HostValue} {v w : HostValue}

/-- As many points, and slots that are equal one by one. -/
structure Binding.Alike (b b' : Binding) : Prop where
  score : b.score = b'.score
  slots : List.Forall₂ HostValue.Alike b.slots b'.slots

lemma Binding.Alike.behind {b b' : Option Binding} (alike : Option.Rel Binding.Alike b b')
    (points : Nat) {slot slot' : HostValue} (slots : HostValue.Alike slot slot') :
    Option.Rel Binding.Alike (b.map (.behind points slot)) (b'.map (.behind points slot')) :=
  rel_map alike fun _ _ rest => ⟨congrArg (points + ·) rest.score, .cons slots rest.slots⟩

lemma coerce_alike (equal : Same v w) (kind : Kind) :
    Option.Rel HostValue.Alike (coerce limit h v kind).toOption (coerce limit h w kind).toOption :=
  (coerceAt_alike equal).toOption

theorem bindParams_alike (params : List Param) (equal : List.Forall₂ Same args args') :
    Option.Rel Binding.Alike (bindParams (coerce limit h) params args)
      (bindParams (coerce limit h) params args') := by
  induction params generalizing args args' with
  | nil =>
    cases equal with
    | nil => exact .some ⟨rfl, .nil⟩
    | cons _ _ => exact .none
  | cons p params ih =>
    rcases takesArgument_or p with out | variadic | takes
    · rw [bindParams_out out, bindParams_out out]
      exact Binding.Alike.behind (ih equal) 0 (.refl _)
    · rw [bindParams_variadic variadic, bindParams_variadic variadic]
      refine rel_bind (rel_mapM (equal.imp fun _ _ equal => coerce_alike equal p.kind)) ?_
      intro items items' alike
      have empty : items.isEmpty = items'.isEmpty := by cases alike <;> rfl
      rw [empty]
      exact Binding.Alike.behind (ih .nil) _ (.array alike)
    · cases equal with
      | nil => exact rel_refl (fun b => ⟨rfl, List.forall₂_same.2 fun v _ => .refl v⟩) _
      | @cons a a' args args' head others =>
        -- Nothing but nil equals nil, so the same rule applies to both arguments.
        by_cases given : a = .nil → p.default = none
        · rw [bindParams_given takes given,
            bindParams_given takes fun nil => given (head.nil_iff.2 nil)]
          exact rel_bind (coerce_alike head p.kind) fun slot slot' alike =>
            Binding.Alike.behind (ih others) 2 alike
        · obtain ⟨nil, default⟩ := Classical.not_imp.1 given
          obtain ⟨d, default⟩ := Option.ne_none_iff_exists'.1 default
          rw [nil, head.nil_iff.1 nil, bindParams_default takes default,
            bindParams_default takes default]
          exact Binding.Alike.behind (ih others) 1 (.refl _)

theorem bind_alike (m : Method) (equal : List.Forall₂ Same args args')
    (receiver : Option HostObject) :
    Option.Rel Binding.Alike (bind (coerce limit h) m args receiver)
      (bind (coerce limit h) m args' receiver) := by
  unfold bind
  split
  · exact Binding.Alike.behind (bindParams_alike _ equal) 0 (.refl _)
  · exact bindParams_alike _ equal

/-- The same overload, for as many points and with equal slots. -/
structure Resolved.Alike (found found' : Resolved) : Prop where
  member : found.member = found'.member
  typeArgs : found.typeArgs = found'.typeArgs
  score : found.score = found'.score
  slots : List.Forall₂ HostValue.Alike found.slots found'.slots

/-- Which candidate is the best is told by the points. -/
lemma best_alike {found found' : List Resolved} (alike : List.Forall₂ Resolved.Alike found found') :
    Option.Rel Resolved.Alike (best found) (best found') := by
  induction alike with
  | nil => exact .none
  | @cons r r' rest rest' head _ ih =>
    rw [best, best]
    cases eq : best rest <;> cases eq' : best rest' <;> rw [eq, eq'] at ih <;> cases ih
    · exact .some head
    · -- the later candidates come first only with more points, which both sides count alike
      rename_i s s' later
      dsimp only
      rw [head.score, later.score]
      split
      · exact .some later
      · exact .some head

theorem resolve_alike (candidates : List (Declared Method)) (receiver : Option HostObject)
    (equal : List.Forall₂ Same args args') :
    Option.Rel Resolved.Alike (resolve (coerce limit h) candidates args receiver)
      (resolve (coerce limit h) candidates args' receiver) := by
  refine best_alike (List.rel_filterMap ?_ (List.forall₂_same.2 fun _ _ => rfl))
  rintro m _ rfl
  exact rel_map (bind_alike m.item equal receiver) fun b b' alike =>
    ⟨rfl, rfl, alike.score, alike.slots⟩

end Arguments

/-- Equality is symmetric and, where identities are known, transitive. Kinds do not tell equal
values apart, and overloads do not tell equal arguments apart. -/
theorem same_indistinguishable (ids : Identities) (limit : Nat) (h : Heap) :
    (∀ v w : HostValue, v.same w = w.same v) ∧
    (∀ u v w : HostValue, u.Identified ids → v.Identified ids → w.Identified ids →
      u.same v = true → v.same w = true → u.same w = true) ∧
    (∀ v w : HostValue, v.Identified ids → w.Identified ids → v.same w = true → ∀ kind : Kind,
      Agree HostValue.Alike (coerce limit h v kind) (coerce limit h w kind)) ∧
    ∀ args args' : List HostValue, (∀ v ∈ args, v.Identified ids) →
      (∀ v ∈ args', v.Identified ids) → List.Forall₂ (fun v w => v.same w = true) args args' →
      ∀ (candidates : List (Declared Method)) (receiver : Option HostObject),
        Option.Rel Resolved.Alike (resolve (coerce limit h) candidates args receiver)
          (resolve (coerce limit h) candidates args' receiver) := by
  refine ⟨same_swap, fun u v w => same_trans, fun v w known known' equal kind => ?_,
    fun args args' known known' equal candidates receiver => ?_⟩
  · exact coerceAt_alike (.of_same known known' equal)
  · exact resolve_alike candidates receiver (forall₂_imp_mem equal fun v mem w mem' equal =>
      .of_same (known v mem) (known' w mem') equal)

/-- Draws a point, given by its coordinates in a unit. -/
def draw : Declared Method where
  owner := default
  index := 0
  item :=
    { name := "draw"
      params := [⟨"point", .array .f64, .input, none⟩, ⟨"unit", .type, .input, none⟩]
      returns := none
      isStatic := true
      hidden := false
      isExtension := false
      typeParams := 0
      label := "draw"
      body := .idle }

/-- The same unit, defined any number of times. -/
def metre (identity : Nat) : HostType :=
  .ofKind identity "Metre" .f64 none

/-- One point in two ways. -/
def point : HostValue := .array [.int 7, .float 0.0]

def point' : HostValue := .array [.unsigned 7, .float (-0.0)]

/-- A point is drawn alike whether its first coordinate is signed or not, the other one is zero or
negative zero, and whichever definition of its unit is given. -/
theorem draw_indistinguishable :
    ((point.same point' = true ∧ point'.same point = true) ∧ point.same point = true) ∧
    Agree HostValue.Alike (coerce 8 {} point (.array .bigint))
        (coerce 8 {} point' (.array .bigint)) ∧
    ∃ found found', resolve (coerce 8 {}) [draw] [point, .type (metre 1)] none = some found ∧
      resolve (coerce 8 {}) [draw] [point', .type (metre 2)] none = some found' ∧
      Resolved.Alike found found' := by
  let ids : Identities := ⟨fun _ => default, fun _ => "Metre"⟩
  have known : ∀ v ∈ [point, .type (metre 1)], v.Identified ids := by
    simp [Identified, point, metre, HostType.ofKind, HostType.fullName, parts, partsAll, ids]
  have known' : ∀ v ∈ [point', .type (metre 2)], v.Identified ids := by
    simp [Identified, point', metre, HostType.ofKind, HostType.fullName, parts, partsAll, ids]
  have first : point.Identified ids := known _ List.mem_cons_self
  have second : point'.Identified ids := known' _ List.mem_cons_self
  obtain ⟨symmetric, transitive, coerced, resolved⟩ := same_indistinguishable ids 8 {}
  have equal : point.same point' = true := by decide
  have equal' : point'.same point = true := (symmetric point' point).trans equal
  refine ⟨⟨⟨equal, equal'⟩, transitive _ _ _ first second first equal equal'⟩,
    coerced _ _ first second equal _, ?_⟩
  have alike := resolved _ _ known known' (.cons equal (.cons (by decide) .nil)) [draw] none
  cases found : resolve (coerce 8 {}) [draw] [point, .type (metre 1)] none with
  | none => cases found
  | some r =>
    rw [found] at alike
    cases alike with
    | some related => exact ⟨_, _, rfl, rfl, related⟩

end Bridge

end ScriptBridge
