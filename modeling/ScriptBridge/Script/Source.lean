import ScriptBridge.Script.Tree
import ScriptBridge.Number.Reader

/-!
# Sources of scripts

A script is written down as a tree of lists, texts and numbers. A statement is a list that starts
with its keyword; an expression is a constant, or one field whose name says what it is.
-/

namespace ScriptBridge.Script

inductive Source
  | null
  | bool (b : Bool)
  | number (n : Int)
  | text (s : String)
  | list (items : List Source)
  | fields (fields : List (String × Source))
deriving Inhabited

inductive Chunk
  | block (stmts : List Stmt)
  | malformed

namespace Source

/-- A double by its bits in sixteen hexadecimal digits, most significant first. -/
def float? (s : String) : Option Float :=
  if s == "nan" then some (Float.ofBits 0x7ff8000000000000)
  else (Number.readHexDigits? s.toList).map fun n => Float.ofBits (UInt64.ofNat n)

/-- Bytes by two hexadecimal digits each. -/
def bytes? : List Char → Option (List UInt8)
  | [] => some []
  | a :: b :: rest => do
    let high ← Number.hexValue? a
    let low ← Number.hexValue? b
    return UInt8.ofNat (16 * high + low) :: (← bytes? rest)
  | _ => none

def binaryOp? : String → Option BinaryOp
  | "+" => some .add
  | "-" => some .sub
  | "*" => some .mul
  | "/" => some .div
  | ".." => some .concat
  | "==" => some .eq
  | "~=" => some .ne
  | "<" => some .lt
  | ">" => some .gt
  | "<=" => some .le
  | ">=" => some .ge
  | _ => none

def junction? : String → Option Junction
  | "and" => some .and
  | "or" => some .or
  | _ => none

def unaryOp? : String → Option UnaryOp
  | "neg" => some .neg
  | "not" => some .not
  | "#" => some .length
  | _ => none

/-- Names, each a text. -/
def names? (items : List Source) : Option (List String) :=
  items.mapM fun
    | .text s => some s
    | _ => none

/-- Parameters; the last one may stand for all surplus arguments. -/
def params? (items : List Source) : Option (List String × Bool) := do
  let names ← names? items
  return (names.filter (· != "..."), names.contains "...")

/-- A constant or name, by its tag and text. -/
def leaf? (tag text : String) : Option Expr :=
  match tag with
  | "v" => some (if text == "..." then .varargs else .name text)
  | "i" => (Number.readInteger? text.toList).bind fun n => (Number.toInt64? n).map .int
  | "f" => (float? text).map .float
  | "bytes" => (bytes? text.toList).map fun bytes => .str ⟨bytes.toArray⟩
  | _ => none

mutual

def expr? : Source → Option Expr
  | .null => some .nil
  | .bool b => some (.bool b)
  | .number n => (Number.toInt64? n).map .int
  | .text s => some (.str s.toUTF8)
  | .list _ => none
  | .fields [("p", e)] => e.expr?.map .single
  | .fields [(tag, .text s)] => leaf? tag s
  | .fields [("g", .list [e, key])] => do return .index (← e.expr?) (← key.expr?)
  | .fields [("c", .list (f :: args))] => do return .call (← f.expr?) (← exprs? args)
  | .fields [("m", .list (e :: .text name :: args))] => do
    return .invoke (← e.expr?) name (← exprs? args)
  | .fields [("o", .list [.text op, a])] => do return .unary (← unaryOp? op) (← a.expr?)
  | .fields [("o", .list [.text op, a, b])] => do
    let a ← a.expr?
    let b ← b.expr?
    match binaryOp? op, junction? op with
    | some op, _ => return .binary op a b
    | none, some op => return .junction op a b
    | none, none => none
  | .fields [("t", .list entries)] => do return .table (← entries? entries)
  | .fields [("s", .list items)] => do return .sequence (← exprs? items)
  | .fields [("fn", .list [.list params, .list body])] => do
    let (params, isVariadic) ← params? params
    return .function params isVariadic (← block? body)
  | .fields _ => none

def exprs? : List Source → Option (List Expr)
  | [] => some []
  | e :: rest => do return (← e.expr?) :: (← exprs? rest)

def entries? : List Source → Option (List (Expr × Expr))
  | [] => some []
  | .list [key, value] :: rest => do return (← key.expr?, ← value.expr?) :: (← entries? rest)
  | _ => none

def block? : List Source → Option (List Stmt)
  | [] => some []
  | s :: rest => do return (← s.stmt?) :: (← block? rest)

def stmt? : Source → Option Stmt
  | .list [.text "local", .list names, .list values] => do
    return .locals (← names? names) (← exprs? values)
  | .list [.text "set", .fields [("v", .text name)], value] => do
    return .assign name (← value.expr?)
  | .list [.text "set", .fields [("g", .list [e, key])], value] => do
    return .store (← e.expr?) (← key.expr?) (← value.expr?)
  | .list [.text "do", e] => do return .run (← e.expr?)
  | .list (.text "ret" :: values) => do return .ret (← exprs? values)
  | .list [.text "err", e] => do return .run (.call (.name "error") [← e.expr?, .int 0])
  | .list [.text "if", condition, .list yes] => do
    return .ifElse (← condition.expr?) (← block? yes) []
  | .list [.text "if", condition, .list yes, .list no] => do
    return .ifElse (← condition.expr?) (← block? yes) (← block? no)
  | .list [.text "for", .text name, first, last, .list body] => do
    return .for_ name (← first.expr?) (← last.expr?) (← block? body)
  | .list [.text "while", condition, .list body] => do
    return .while_ (← condition.expr?) (← block? body)
  | _ => none

end

def chunk : Source → Chunk
  | .list stmts =>
    match block? stmts with
    | some stmts => .block stmts
    | none => .malformed
  | _ => .malformed

/-- The chunk that returns the values of some expressions. -/
def expressions (items : List Source) : Chunk :=
  match exprs? items with
  | some es => .block [.ret es]
  | none => .malformed

end Source

end ScriptBridge.Script
