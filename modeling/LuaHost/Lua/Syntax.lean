import LuaHost.Number.Binary64

/-!
# Syntax of Lua chunks

Expressions and statements as the parser builds them. Where running a construct can fail, it
carries the line that the failure is reported under. `freeNames` lists the names that a body
uses and does not declare; a function keeps hold of the variables of those names only.
-/

namespace LuaHost.Lua

/-- A name in a chunk. Names are made of ASCII letters, digits and underscores. -/
abbrev Name := String

/-- Binary operators that evaluate both operands. -/
inductive BinaryOp where
  | add | sub | mul | div | floorDiv | mod | pow
  | concat
  | eq | ne | lt | le | gt | ge
  deriving DecidableEq

/-- Unary operators. -/
inductive UnaryOp where
  | negate | not | length
  deriving DecidableEq

mutual

/-- An expression. -/
inductive Expr where
  | nil
  | bool (b : Bool)
  | int (i : Int64)
  | float (x : Binary64)
  | str (s : ByteArray)
  /-- The extra arguments of the function. -/
  | varargs
  | function (body : Body)
  | name (line : Nat) (x : Name)
  | index (line : Nat) (object key : Expr)
  | call (line : Nat) (callee : Expr) (arguments : List Expr)
  | method (line : Nat) (object : Expr) (x : Name) (arguments : List Expr)
  /-- An expression in parentheses, which has exactly one value. -/
  | group (e : Expr)
  | table (line : Nat) (fields : List Field)
  | binary (line : Nat) (op : BinaryOp) (left right : Expr)
  | unary (line : Nat) (op : UnaryOp) (operand : Expr)
  | both (left right : Expr)
  | either (left right : Expr)

/-- A field of a table constructor. -/
inductive Field where
  | item (e : Expr)
  | entry (key value : Expr)

/-- A statement. -/
inductive Stmt where
  | locals (names : List Name) (values : List Expr)
  | localFunction (x : Name) (body : Body)
  | assign (line : Nat) (targets values : List Expr)
  | call (e : Expr)
  | block (body : List Stmt)
  | loop (condition : Expr) (body : List Stmt)
  | branch (condition : Expr) (yes no : List Stmt)
  | count (line : Nat) (x : Name) (start stop : Expr) (step : Option Expr) (body : List Stmt)
  | each (line : Nat) (names : List Name) (values : List Expr) (body : List Stmt)
  | leave
  | give (values : List Expr)

/-- The parameters and statements of a function. -/
inductive Body where
  | mk (parameters : List Name) (isVariadic : Bool) (statements : List Stmt)

end

instance : Inhabited Expr := ⟨.nil⟩
instance : Inhabited Stmt := ⟨.leave⟩

/-- The parameters of a function. -/
def Body.parameters : Body → List Name
  | .mk parameters _ _ => parameters

/-- Whether a function takes extra arguments. -/
def Body.isVariadic : Body → Bool
  | .mk _ isVariadic _ => isVariadic

/-- The statements of a function. -/
def Body.statements : Body → List Stmt
  | .mk _ _ statements => statements

mutual

/-- The names an expression uses. -/
def Expr.freeNames : Expr → List Name
  | .nil | .bool _ | .int _ | .float _ | .str _ | .varargs => []
  | .function body => body.freeNames
  | .name _ x => [x]
  | .index _ object key => object.freeNames ++ key.freeNames
  | .call _ callee arguments => callee.freeNames ++ exprsFreeNames arguments
  | .method _ object _ arguments => object.freeNames ++ exprsFreeNames arguments
  | .group e => e.freeNames
  | .table _ fields => fieldsFreeNames fields
  | .binary _ _ left right => left.freeNames ++ right.freeNames
  | .unary _ _ operand => operand.freeNames
  | .both left right => left.freeNames ++ right.freeNames
  | .either left right => left.freeNames ++ right.freeNames

/-- The names a list of expressions uses. -/
def exprsFreeNames : List Expr → List Name
  | [] => []
  | e :: es => e.freeNames ++ exprsFreeNames es

/-- The names the fields of a table use. -/
def fieldsFreeNames : List Field → List Name
  | [] => []
  | .item e :: fs => e.freeNames ++ fieldsFreeNames fs
  | .entry key value :: fs => key.freeNames ++ value.freeNames ++ fieldsFreeNames fs

/-- The names an optional expression uses. -/
def optionFreeNames : Option Expr → List Name
  | none => []
  | some e => e.freeNames

/-- The names a statement uses, given those used after it in its block. -/
def Stmt.freeNames (after : List Name) : Stmt → List Name
  | .locals names values => exprsFreeNames values ++ after.filter (· ∉ names)
  | .localFunction x body => (body.freeNames ++ after).filter (· ≠ x)
  | .assign _ targets values => exprsFreeNames targets ++ exprsFreeNames values ++ after
  | .call e => e.freeNames ++ after
  | .block body => blockFreeNames body ++ after
  | .loop condition body => condition.freeNames ++ blockFreeNames body ++ after
  | .branch condition yes no =>
    condition.freeNames ++ blockFreeNames yes ++ blockFreeNames no ++ after
  | .count _ x start stop step body =>
    start.freeNames ++ stop.freeNames ++ optionFreeNames step ++
      (blockFreeNames body).filter (· ≠ x) ++ after
  | .each _ names values body =>
    exprsFreeNames values ++ (blockFreeNames body).filter (· ∉ names) ++ after
  | .leave => after
  | .give values => exprsFreeNames values ++ after

/-- The names a block uses. -/
def blockFreeNames : List Stmt → List Name
  | [] => []
  | s :: rest => s.freeNames (blockFreeNames rest)

/-- The names a function uses and does not declare. -/
def Body.freeNames : Body → List Name
  | .mk parameters _ statements => (blockFreeNames statements).filter (· ∉ parameters)

end

end LuaHost.Lua
