import ScriptBridge.Bridge.Coercion

/-!
# Overload resolution

A method binds arguments to its parameters or rejects them. Binding earns points: two for an
argument that was coerced, one for a default, two or one for a variadic that takes something or
nothing. The overload with the most points is selected, the first one of several.
-/

namespace ScriptBridge.Bridge

/-- How arguments are brought to a kind. -/
abbrev Coercer := HostValue → Kind → Except BridgeError HostValue

/-- The points of a binding and one slot for each parameter. -/
structure Binding where
  score : Nat
  slots : List HostValue
deriving Inhabited

def Binding.behind (points : Nat) (slot : HostValue) (b : Binding) : Binding :=
  ⟨points + b.score, slot :: b.slots⟩

/-- Binds arguments to parameters in order; surplus arguments reject. -/
def bindParams (c : Coercer) : List Param → List HostValue → Option Binding
  | [], [] => some ⟨0, []⟩
  | [], _ :: _ => none
  | p :: params, args =>
    match p.mode with
    | .out => (bindParams c params args).map (.behind 0 .nil)
    | .variadic => do
      let items ← args.mapM fun a => (c a p.kind).toOption
      (← bindParams c params []).behind (if items.isEmpty then 1 else 2) (.array items)
    | .input | .ref =>
      match args, p.default with
      | [], none => none
      | [], some d => (bindParams c params []).map (.behind 1 d.value)
      | .nil :: args, some d => (bindParams c params args).map (.behind 1 d.value)
      | a :: args, _ => do
        let slot ← (c a p.kind).toOption
        (← bindParams c params args).behind 2 slot

/-- Binds the arguments of a call. An extension function called on an instance takes the instance
as its first parameter, whatever the kind of that parameter. -/
def bind (c : Coercer) (m : Method) (args : List HostValue) (receiver : Option HostObject) :
    Option Binding :=
  match m.isExtension, receiver, m.params with
  | true, some o, _ :: params => (bindParams c params args).map (.behind 0 (.object o))
  | _, _, params => bindParams c params args

/-- An overload that accepted the arguments, with its type parameters replaced. -/
structure Resolved where
  member : Declared Method
  typeArgs : List HostType
  slots : List HostValue
  score : Nat

/-- The first candidate with the most points. -/
def best : List Resolved → Option Resolved
  | [] => none
  | r :: rest =>
    match best rest with
    | some s => if r.score < s.score then some s else some r
    | none => some r

/-- Selects an overload that has no type parameters. -/
def resolve (c : Coercer) (candidates : List (Declared Method)) (args : List HostValue)
    (receiver : Option HostObject) : Option Resolved :=
  best ((candidates.filter (!·.item.isGeneric)).filterMap fun m =>
    (bind c m.item args receiver).map fun b => ⟨m, [], b.slots, b.score⟩)

/-- The types that a list of values starts with. -/
def leadingTypes : List HostValue → List HostType
  | .type t :: rest => t :: leadingTypes rest
  | _ => []

/-- A candidate closed over its explicit type arguments and bound to the rest; an open generic type
is no type argument. -/
def bindGeneric (c : Coercer) (m : Declared Method) (args : List HostValue)
    (receiver : Option HostObject) : Option Resolved :=
  let typeArgs := (leadingTypes args).take m.item.typeParams
  if typeArgs.length < m.item.typeParams || typeArgs.any (·.isOpen) then none
  else
    let closed := m.item.instantiate (typeArgs.map (·.kind))
    (bind c closed (args.drop m.item.typeParams) receiver).map fun b =>
      ⟨{ m with item := closed }, typeArgs, b.slots, b.score⟩

/-- Selects an overload whose type parameters are given by leading arguments. -/
def resolveGeneric (c : Coercer) (candidates : List (Declared Method)) (args : List HostValue)
    (receiver : Option HostObject) : Option Resolved :=
  best ((candidates.filter (·.item.isGeneric)).filterMap fun m => bindGeneric c m args receiver)

/-- Overloads without type parameters come first. -/
def select (c : Coercer) (candidates : List (Declared Method)) (args : List HostValue)
    (receiver : Option HostObject) : Option Resolved :=
  (resolve c candidates args receiver).or (resolveGeneric c candidates args receiver)

end ScriptBridge.Bridge
