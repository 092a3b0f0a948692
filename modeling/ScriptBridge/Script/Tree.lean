/-!
# Script trees

Expressions and statements of the script language, and the variables that a function takes from
around it: these are what a closure keeps alive.
-/

namespace ScriptBridge.Script

/-- Operators that evaluate both operands. -/
inductive BinaryOp
  | add | sub | mul | div | concat | eq | ne | lt | gt | le | ge
deriving DecidableEq, Repr

/-- Operators that evaluate the second operand only when the first does not decide. -/
inductive Junction
  | and | or
deriving DecidableEq, Repr

inductive UnaryOp
  | neg | not | length
deriving DecidableEq, Repr

mutual

inductive Expr
  | nil
  | bool (b : Bool)
  | int (i : Int64)
  | float (x : Float)
  | str (bytes : ByteArray)
  | name (n : String)
  | varargs
  /-- Cuts an expression down to one value. -/
  | single (e : Expr)
  | index (e key : Expr)
  | call (f : Expr) (args : List Expr)
  /-- Calls a member with the receiver as first argument. -/
  | invoke (receiver : Expr) (method : String) (args : List Expr)
  | binary (op : BinaryOp) (a b : Expr)
  | junction (op : Junction) (a b : Expr)
  | unary (op : UnaryOp) (a : Expr)
  | table (entries : List (Expr × Expr))
  | sequence (items : List Expr)
  | function (params : List String) (isVariadic : Bool) (body : List Stmt)

inductive Stmt
  | locals (names : List String) (values : List Expr)
  | assign (name : String) (value : Expr)
  | store (e key value : Expr)
  /-- Evaluates an expression for its effects. -/
  | run (e : Expr)
  | ret (values : List Expr)
  | ifElse (condition : Expr) (then_ else_ : List Stmt)
  | for_ (name : String) (first last : Expr) (body : List Stmt)
  | while_ (condition : Expr) (body : List Stmt)

end

instance : Inhabited Expr := ⟨.nil⟩

instance : Inhabited Stmt := ⟨.ret []⟩

mutual

/-- The names an expression takes from around it, those in `bound` left out. -/
def Expr.freeNames (bound : List String) : Expr → List String
  | .name n => if bound.contains n then [] else [n]
  | .single e => e.freeNames bound
  | .index e key => e.freeNames bound ++ key.freeNames bound
  | .call f args => f.freeNames bound ++ freeNamesOfAll bound args
  | .invoke receiver _ args => receiver.freeNames bound ++ freeNamesOfAll bound args
  | .binary _ a b => a.freeNames bound ++ b.freeNames bound
  | .junction _ a b => a.freeNames bound ++ b.freeNames bound
  | .unary _ a => a.freeNames bound
  | .table entries => freeNamesOfEntries bound entries
  | .sequence items => freeNamesOfAll bound items
  | .function params _ body => freeNamesOfBlock (params ++ bound) body
  | _ => []

def freeNamesOfAll (bound : List String) : List Expr → List String
  | [] => []
  | e :: rest => e.freeNames bound ++ freeNamesOfAll bound rest

def freeNamesOfEntries (bound : List String) : List (Expr × Expr) → List String
  | [] => []
  | (key, value) :: rest =>
    key.freeNames bound ++ value.freeNames bound ++ freeNamesOfEntries bound rest

/-- The names a block takes from around it; a local is bound in the statements that follow. -/
def freeNamesOfBlock (bound : List String) : List Stmt → List String
  | [] => []
  | .locals names values :: rest =>
    freeNamesOfAll bound values ++ freeNamesOfBlock (names ++ bound) rest
  | .assign name value :: rest =>
    (if bound.contains name then [] else [name]) ++ value.freeNames bound
      ++ freeNamesOfBlock bound rest
  | .store e key value :: rest =>
    e.freeNames bound ++ key.freeNames bound ++ value.freeNames bound
      ++ freeNamesOfBlock bound rest
  | .run e :: rest => e.freeNames bound ++ freeNamesOfBlock bound rest
  | .ret values :: rest => freeNamesOfAll bound values ++ freeNamesOfBlock bound rest
  | .ifElse condition yes no :: rest =>
    condition.freeNames bound ++ freeNamesOfBlock bound yes ++ freeNamesOfBlock bound no
      ++ freeNamesOfBlock bound rest
  | .for_ name first last body :: rest =>
    first.freeNames bound ++ last.freeNames bound ++ freeNamesOfBlock (name :: bound) body
      ++ freeNamesOfBlock bound rest
  | .while_ condition body :: rest =>
    condition.freeNames bound ++ freeNamesOfBlock bound body ++ freeNamesOfBlock bound rest

end

/-- The names a function takes from around it. -/
def freeNames (params : List String) (body : List Stmt) : List String :=
  freeNamesOfBlock params body

/-- A chunk that is a single call gives the results of the call. -/
def asExpression : List Stmt → List Stmt
  | [.run e] => [.ret [e]]
  | stmts => stmts

end ScriptBridge.Script
