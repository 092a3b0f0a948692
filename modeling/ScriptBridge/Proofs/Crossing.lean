import Mathlib.Logic.Relation
import Mathlib.Tactic.Lemma
import ScriptBridge.Error

/-!
# Errors that cross the boundary

An error goes back and forth between the host and the script engine and is wrapped on the way. The
bridge error at the bottom of all wrappers stays the root of what arrives at the host; an error of
the script engine that no bridge error caused is its own root.
-/

namespace ScriptBridge

/-- An error on its way: with the host, or with the script engine. -/
inductive Carried
  | bridge (e : BridgeError)
  | script (e : ScriptError)

/-- One stage of the way. -/
inductive Crosses : Carried → Carried → Prop
  /-- The host raises its error into a script. -/
  | raised (e : BridgeError) : Crosses (.bridge e) (.script e.raise)
  | calledBack (e : ScriptError) : Crosses (.script e) (.script (.callback e))
  | inContext (text : String) (e : ScriptError) : Crosses (.script e) (.script (.context text e))
  /-- The error comes up at the host again. -/
  | surfaced (e : ScriptError) : Crosses (.script e) (.bridge (.script e))

/-- A bridge error is at the bottom of what an error of the script engine wraps. -/
inductive ScriptError.CausedBy : ScriptError → BridgeError → Prop
  | external (e : BridgeError) : CausedBy (.external e) e
  | callback {c : ScriptError} {e : BridgeError} (h : CausedBy c e) : CausedBy (.callback c) e
  | context {text : String} {c : ScriptError} {e : BridgeError} (h : CausedBy c e) :
      CausedBy (.context text c) e
  | badArgument {c : ScriptError} {e : BridgeError} (h : CausedBy c e) :
      CausedBy (.badArgument c) e

/-- The root is found wherever the error is. -/
def Carried.Keeps (b : BridgeError) : Carried → Prop
  | .bridge e => e.root = b
  | .script e => e.bridgeRoot? = some b

section Roots

variable {b e : BridgeError} {c : ScriptError} {x y : Carried}

lemma BridgeError.root_of_ne_script (own : ∀ c, b ≠ .script c) : b.root = b := by
  cases b with
  | script c => exact absurd rfl (own c)
  | _ => rfl

lemma BridgeError.root_script (c : ScriptError) :
    (BridgeError.script c).root = c.bridgeRoot?.getD (.script c) :=
  rfl

/-- Raising an error into a script keeps its root in sight. -/
lemma bridgeRoot?_raise (own : ∀ c, b ≠ .script c) (root : e.root = b) :
    e.raise.bridgeRoot? = some b := by
  cases e with
  | script c =>
    rw [BridgeError.root_script] at root
    cases found : c.bridgeRoot? with
    | none =>
      rw [found] at root
      exact absurd root.symm (own c)
    | some inner =>
      rw [found] at root
      exact found.trans (congrArg some root)
  | _ => exact congrArg some root

/-- No stage of the way loses the root. -/
lemma Crosses.keeps (own : ∀ c, b ≠ .script c) (crosses : Crosses x y) (keeps : x.Keeps b) :
    y.Keeps b := by
  cases crosses with
  | raised e => exact bridgeRoot?_raise own keeps
  | calledBack e => exact keeps
  | inContext text e => exact keeps
  | surfaced e =>
    show (BridgeError.script e).root = b
    rw [BridgeError.root_script, show e.bridgeRoot? = some b from keeps]
    rfl

/-- Nor does the whole way. -/
lemma keeps_of_crossings (own : ∀ c, b ≠ .script c)
    (way : Relation.ReflTransGen Crosses (.bridge b) x) : x.Keeps b := by
  induction way with
  | refl => exact BridgeError.root_of_ne_script own
  | tail _ crosses keeps => exact crosses.keeps own keeps

lemma ScriptError.bridgeRoot?_eq_none (c : ScriptError) (alone : ∀ e, ¬ c.CausedBy e) :
    c.bridgeRoot? = none := by
  cases c with
  | callback c => exact bridgeRoot?_eq_none c fun e caused => alone e (.callback caused)
  | context text c => exact bridgeRoot?_eq_none c fun e caused => alone e (.context caused)
  | external e => exact absurd (.external e) (alone e)
  | _ => rfl

-- The two functions go down the two kinds of errors in turn, and so do these.
mutual

lemma BridgeError.root_root (e : BridgeError) : e.root.root = e.root := by
  cases e with
  | script c =>
    rw [BridgeError.root_script]
    cases found : c.bridgeRoot? with
    | none =>
      rw [Option.getD_none, BridgeError.root_script, found]
      rfl
    | some inner => exact ScriptError.root_of_bridgeRoot? c found
  | _ => rfl

lemma ScriptError.root_of_bridgeRoot? (c : ScriptError) {inner : BridgeError}
    (found : c.bridgeRoot? = some inner) : inner.root = inner := by
  cases c with
  | callback c => exact ScriptError.root_of_bridgeRoot? c found
  | context text c => exact ScriptError.root_of_bridgeRoot? c found
  | external e =>
    cases found
    exact BridgeError.root_root e
  | _ => cases found

end

/-- A bridge error that is no error of a script is the root of whatever it comes up as, and so keeps
its category. An error of the script engine that no bridge error caused is its own root, and the
root of a root is that root. -/
theorem innermost_survives :
    (∀ b e : BridgeError, (∀ c, b ≠ .script c) →
      Relation.ReflTransGen Crosses (.bridge b) (.bridge e) →
        e.root = b ∧ e.root.category = b.category) ∧
    (∀ c : ScriptError, (∀ e, ¬ c.CausedBy e) → (BridgeError.script c).root = .script c) ∧
    ∀ e : BridgeError, e.root.root = e.root := by
  refine ⟨fun b e own way => ?_, fun c alone => ?_, BridgeError.root_root⟩
  · have root : e.root = b := keeps_of_crossings own way
    exact ⟨root, congrArg BridgeError.category root⟩
  · rw [BridgeError.root_script, c.bridgeRoot?_eq_none alone]
    rfl

/-- A constant was assigned. -/
def assigningMax : BridgeError :=
  .readOnlyMember "Counter" "MAX"

/-- The error after it passed through two callbacks of scripts. -/
def resurfaced : BridgeError :=
  .script (.callback (.context "in set" (.callback (.external assigningMax))))

lemma crossings_resurfaced :
    Relation.ReflTransGen Crosses (.bridge assigningMax) (.bridge resurfaced) := by
  have first : Relation.ReflTransGen Crosses (.bridge assigningMax)
      (.bridge (.script (.context "in set" (.callback (.external assigningMax))))) :=
    (((Relation.ReflTransGen.single (.raised _)).tail (.calledBack _)).tail
      (.inContext "in set" _)).tail (.surfaced _)
  exact ((first.tail (.raised _)).tail (.calledBack _)).tail (.surfaced _)

/-- The assignment is found again; an error of other host code stays what it is. -/
theorem assigningMax_survives :
    Relation.ReflTransGen Crosses (.bridge assigningMax) (.bridge resurfaced) ∧
    resurfaced.root = assigningMax ∧ resurfaced.root.category = .coercion ∧
    (∀ e, ¬ (ScriptError.callback (.foreign "disk full")).CausedBy e) ∧
    (BridgeError.script (.callback (.foreign "disk full"))).root
      = .script (.callback (.foreign "disk full")) := by
  have own : ∀ c, assigningMax ≠ .script c := fun _ => BridgeError.noConfusion
  have alone : ∀ e, ¬ (ScriptError.callback (.foreign "disk full")).CausedBy e := by
    intro e caused
    cases caused with
    | callback caused => cases caused
  obtain ⟨root, category⟩ := innermost_survives.1 _ _ own crossings_resurfaced
  exact ⟨crossings_resurfaced, root, category, alone, innermost_survives.2.1 _ alone⟩

end Roots

end ScriptBridge
