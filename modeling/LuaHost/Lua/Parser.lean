import LuaHost.Lua.Syntax
import LuaHost.Lua.Token.Lexer

/-!
# Parsing chunks

A recursive-descent parser with one token of sight, and a second one only to tell the fields of
a table apart. The first fault ends it: one met by the lexer as soon as the token is reached,
one met by the parser at the token that does not fit. Each function spends one unit of fuel on
every call; the fuel given by `parse` is more than the tokens of a chunk can use up.
-/

namespace LuaHost.Lua

/-- Why a chunk does not compile, and the line it was noticed on. -/
structure SyntaxError where
  line : Nat
  message : List UInt8
  deriving DecidableEq

namespace Parser

/-- Where the parser stands. -/
structure State where
  current : Lexeme
  rest : List Lexeme
  /-- The line of the token read last. -/
  lastLine : Nat
  /-- The function being read takes extra arguments. -/
  isVariadic : Bool
  /-- The number of loops of the function being read that are open. -/
  loops : Nat
  /-- A jump of the function being read that leads nowhere, with its message. -/
  stray : Option (List UInt8)

/-- A piece of a parser. -/
abbrev Parse := StateT State (Except SyntaxError)

/-- Fail at the current token. -/
def failNear {α : Type} (message : List UInt8) : Parse α := do
  let s ← get
  throw ⟨s.current.line, message ++ ascii " near " ++ s.current.shown⟩

/-- Fail at the current token. -/
def fail {α : Type} (message : String) : Parse α := failNear (ascii message)

/-- Go to the next token. -/
def advance : Parse Unit := do
  let s ← get
  match s.rest with
  | [] => pure ()
  | next :: rest =>
    match next.token with
    | .fault message => throw ⟨next.line, message⟩
    | _ => set { s with current := next, rest := rest, lastLine := s.current.line }

/-- The current token. -/
def peek : Parse Token := do return (← get).current.token

/-- The line of the current token. -/
def line : Parse Nat := do return (← get).current.line

/-- Whether the current token is an operator or a reserved word. -/
def at? (s : String) : Parse Bool := do return (← peek) = .fixed s

/-- Go past an operator or a reserved word if it is the current token. -/
def accept (s : String) : Parse Bool := do
  if ← at? s then
    advance
    return true
  else return false

/-- Go past an operator or a reserved word that has to be here. -/
def expect (s : String) : Parse Unit := do
  unless ← accept s do fail s!"'{s}' expected"

/-- Go past the word that closes a construct opened by another one on a line. -/
def close (what opener : String) (openLine : Nat) : Parse Unit := do
  unless ← accept what do
    if (← line) = openLine then fail s!"'{what}' expected"
    else fail s!"'{what}' expected (to close '{opener}' at line {openLine})"

/-- Read a name. -/
def name : Parse Name := do
  match ← peek with
  | .name x =>
    advance
    return x
  | _ => fail "<name> expected"

/-- Whether the current token ends a block. -/
def endsBlock : Parse Bool := do
  match ← peek with
  | .done => return true
  | .fixed s => return s ∈ ["else", "elseif", "end", "until"]
  | _ => return false

/-- The priorities of a binary operator to its left and right, and the operator; a connective
has no operator of its own. -/
def binary? : Token → Option (Nat × Nat × Option BinaryOp)
  | .fixed "or" => some (1, 1, none)
  | .fixed "and" => some (2, 2, none)
  | .fixed "<" => some (3, 3, some .lt)
  | .fixed ">" => some (3, 3, some .gt)
  | .fixed "<=" => some (3, 3, some .le)
  | .fixed ">=" => some (3, 3, some .ge)
  | .fixed "~=" => some (3, 3, some .ne)
  | .fixed "==" => some (3, 3, some .eq)
  | .fixed ".." => some (9, 8, some .concat)
  | .fixed "+" => some (10, 10, some .add)
  | .fixed "-" => some (10, 10, some .sub)
  | .fixed "*" => some (11, 11, some .mul)
  | .fixed "/" => some (11, 11, some .div)
  | .fixed "//" => some (11, 11, some .floorDiv)
  | .fixed "%" => some (11, 11, some .mod)
  | .fixed "^" => some (14, 13, some .pow)
  | _ => none

/-- The unary operator a token stands for. -/
def unary? : Token → Option UnaryOp
  | .fixed "not" => some .not
  | .fixed "-" => some .negate
  | .fixed "#" => some .length
  | _ => none

/-- The priority of unary operators. -/
def unaryPriority : Nat := 12

/-- Join two operands. -/
def joined (line : Nat) (token : Token) (op : Option BinaryOp) (left right : Expr) : Expr :=
  match op with
  | some op => .binary line op left right
  | none => if token = .fixed "and" then .both left right else .either left right

/-- A call can stand alone as a statement. -/
def isCall : Expr → Bool
  | .call .. | .method .. => true
  | _ => false

/-- A name or an indexed expression can be assigned to. -/
def isTarget : Expr → Bool
  | .name .. | .index .. => true
  | _ => false

/-- Fail when the chunk nests more deeply than the fuel allows. -/
def exhausted {α : Type} : Parse α := fail "chunk has too many syntax levels"

/-- Read parameter names up to the closing parenthesis; the result tells whether extra arguments
are taken. -/
def parameters : Nat → Parse (List Name × Bool)
  | 0 => exhausted
  | fuel + 1 => do
    match ← peek with
    | .name x =>
      advance
      if ← accept "," then
        let (xs, variadic) ← parameters fuel
        return (x :: xs, variadic)
      else return ([x], false)
    | .fixed "..." =>
      advance
      return ([], true)
    | _ => fail "<name> or '...' expected"

/-- Read names separated by commas, the first of which was read. -/
def moreNames (first : Name) : Nat → Parse (List Name)
  | 0 => exhausted
  | fuel + 1 => do
    if ← accept "," then
      let x ← name
      return first :: (← moreNames x fuel)
    else return [first]

/-- Run a parser inside one more loop. -/
def inLoop {α : Type} (p : Parse α) : Parse α := do
  modify fun s => { s with loops := s.loops + 1 }
  let a ← p
  modify fun s => { s with loops := s.loops - 1 }
  return a

mutual

/-- Read an expression whose binary operators bind more tightly than `limit`. -/
def expression (limit : Nat) : Nat → Parse Expr
  | 0 => exhausted
  | fuel + 1 => do
    let l ← line
    match unary? (← peek) with
    | some op =>
      advance
      let operand ← expression unaryPriority fuel
      operators limit (.unary l op operand) fuel
    | none =>
      let left ← simple fuel
      operators limit left fuel
termination_by structural n => n

/-- Read the operators behind a left operand that bind more tightly than `limit`. -/
def operators (limit : Nat) (left : Expr) : Nat → Parse Expr
  | 0 => exhausted
  | fuel + 1 => do
    let token ← peek
    match binary? token with
    | some (before, after, op) =>
      if before > limit then
        let l ← line
        advance
        let right ← expression after fuel
        operators limit (joined l token op left right) fuel
      else return left
    | none => return left
termination_by structural n => n

/-- Read an expression without operators. -/
def simple : Nat → Parse Expr
  | 0 => exhausted
  | fuel + 1 => do
    match ← peek with
    | .number (.int i) => advance; return .int i
    | .number (.float x) => advance; return .float x
    | .str s => advance; return .str s
    | .fixed "nil" => advance; return .nil
    | .fixed "true" => advance; return .bool true
    | .fixed "false" => advance; return .bool false
    | .fixed "..." =>
      unless (← get).isVariadic do fail "cannot use '...' outside a vararg function"
      advance
      return .varargs
    | .fixed "\x7b" => table fuel
    | .fixed "function" =>
      let l ← line
      advance
      return .function (← body [] l fuel)
    | _ => suffixed fuel
termination_by structural n => n

/-- Read a name or an expression in parentheses, and what is attached to it. -/
def suffixed : Nat → Parse Expr
  | 0 => exhausted
  | fuel + 1 => do
    let l ← line
    match ← peek with
    | .name x =>
      advance
      suffixes (.name l x) fuel
    | .fixed "(" =>
      advance
      let e ← expression 0 fuel
      close ")" "(" l
      suffixes (.group e) fuel
    | _ => fail "unexpected symbol"
termination_by structural n => n

/-- Read the fields, indices and calls behind an expression. -/
def suffixes (e : Expr) : Nat → Parse Expr
  | 0 => exhausted
  | fuel + 1 => do
    match ← peek with
    | .fixed "." =>
      advance
      let l ← line
      let x ← name
      suffixes (.index l e (.str x.toUTF8)) fuel
    | .fixed "[" =>
      advance
      let key ← expression 0 fuel
      let l ← line
      expect "]"
      suffixes (.index l e key) fuel
    | .fixed ":" =>
      advance
      let x ← name
      let (l, arguments) ← arguments fuel
      suffixes (.method l e x arguments) fuel
    | .fixed "(" | .fixed "\x7b" | .str _ =>
      let (l, arguments) ← arguments fuel
      suffixes (.call l e arguments) fuel
    | _ => return e
termination_by structural n => n

/-- Read the arguments of a call, and the line they begin on. -/
def arguments : Nat → Parse (Nat × List Expr)
  | 0 => exhausted
  | fuel + 1 => do
    let l ← line
    match ← peek with
    | .fixed "(" =>
      advance
      if ← accept ")" then return (l, [])
      else
        let es ← expressions fuel
        close ")" "(" l
        return (l, es)
    | .fixed "\x7b" => return (l, [← table fuel])
    | .str s =>
      advance
      return (l, [.str s])
    | _ => fail "function arguments expected"
termination_by structural n => n

/-- Read expressions separated by commas. -/
def expressions : Nat → Parse (List Expr)
  | 0 => exhausted
  | fuel + 1 => do
    let e ← expression 0 fuel
    if ← accept "," then return e :: (← expressions fuel)
    else return [e]
termination_by structural n => n

/-- Read a table constructor. -/
def table : Nat → Parse Expr
  | 0 => exhausted
  | fuel + 1 => do
    let l ← line
    expect "\x7b"
    let fs ← fields fuel
    close "\x7d" "\x7b" l
    return .table l fs
termination_by structural n => n

/-- Read the fields of a table. -/
def fields : Nat → Parse (List Field)
  | 0 => exhausted
  | fuel + 1 => do
    if ← at? "\x7d" then return []
    else
      let f ← field fuel
      if ← accept "," then return f :: (← fields fuel)
      else if ← accept ";" then return f :: (← fields fuel)
      else return [f]
termination_by structural n => n

/-- Read one field of a table. -/
def field : Nat → Parse Field
  | 0 => exhausted
  | fuel + 1 => do
    let s ← get
    match s.current.token with
    | .name x =>
      match s.rest with
      | next :: _ =>
        match next.token with
        | .fault message => throw ⟨next.line, message⟩
        | .fixed "=" =>
          advance
          advance
          return .entry (.str x.toUTF8) (← expression 0 fuel)
        | _ => return .item (← expression 0 fuel)
      | [] => return .item (← expression 0 fuel)
    | .fixed "[" =>
      advance
      let key ← expression 0 fuel
      expect "]"
      expect "="
      return .entry key (← expression 0 fuel)
    | _ => return .item (← expression 0 fuel)
termination_by structural n => n

/-- Read the parameters and the statements of a function that begins on a line. -/
def body (first : List Name) (openLine : Nat) : Nat → Parse Body
  | 0 => exhausted
  | fuel + 1 => do
    expect "("
    let (names, variadic) ← if ← at? ")" then pure ([], false) else parameters fuel
    expect ")"
    let outer ← get
    set { outer with isVariadic := variadic, loops := 0, stray := none }
    let statements ← block fuel
    close "end" "function" openLine
    let inner ← get
    match inner.stray with
    | some message => throw ⟨inner.current.line, message⟩
    | none =>
      set { inner with isVariadic := outer.isVariadic, loops := outer.loops, stray := outer.stray }
      return .mk (first ++ names) variadic statements
termination_by structural n => n

/-- Read statements up to the end of a block. -/
def block : Nat → Parse (List Stmt)
  | 0 => exhausted
  | fuel + 1 => do
    if ← endsBlock then return []
    else if ← accept "return" then
      let values ←
        if ← endsBlock then pure []
        else if ← at? ";" then pure []
        else expressions fuel
      let _ ← accept ";"
      return [.give values]
    else if ← accept ";" then block fuel
    else
      let s ← statement fuel
      return s :: (← block fuel)
termination_by structural n => n

/-- Read one statement other than a return. -/
def statement : Nat → Parse Stmt
  | 0 => exhausted
  | fuel + 1 => do
    let l ← line
    match ← peek with
    | .fixed "if" =>
      advance
      branches l fuel
    | .fixed "while" =>
      advance
      let condition ← expression 0 fuel
      expect "do"
      let statements ← inLoop (block fuel)
      close "end" "while" l
      return .loop condition statements
    | .fixed "do" =>
      advance
      let statements ← block fuel
      close "end" "do" l
      return .block statements
    | .fixed "for" =>
      advance
      forLoop l fuel
    | .fixed "repeat" =>
      advance
      let statements ← inLoop (block fuel)
      close "until" "repeat" l
      let condition ← expression 0 fuel
      return .loop (.bool true) (statements ++ [.branch condition [.leave] []])
    | .fixed "function" =>
      advance
      let nameLine ← line
      let x ← name
      functionName l (.name nameLine x) fuel
    | .fixed "local" =>
      advance
      if ← accept "function" then
        let l ← line
        let x ← name
        return .localFunction x (← body [] l fuel)
      else
        let x ← name
        let names ← moreNames x fuel
        let values ← if ← accept "=" then expressions fuel else pure []
        return .locals names values
    | .fixed "break" =>
      advance
      modify fun s =>
        if s.loops = 0 && s.stray.isNone then
          { s with stray := some (ascii s!"break outside a loop at line {l}") }
        else s
      return .leave
    | .fixed "goto" =>
      advance
      let x ← name
      modify fun s =>
        if s.stray.isNone then
          { s with stray := some (ascii s!"no visible label '{x}' for <goto> at line {l}") }
        else s
      return .leave
    | _ =>
      let e ← suffixed fuel
      if (← at? "=") || (← at? ",") then assignment [e] fuel
      else if isCall e then return .call e
      else fail "syntax error"
termination_by structural n => n

/-- Read the other targets and the values of an assignment; the targets read so far are given in
reverse. -/
def assignment (targets : List Expr) : Nat → Parse Stmt
  | 0 => exhausted
  | fuel + 1 => do
    unless targets.head?.any isTarget do fail "syntax error"
    if ← accept "," then
      let e ← suffixed fuel
      assignment (e :: targets) fuel
    else
      expect "="
      let values ← expressions fuel
      return .assign (← get).lastLine targets.reverse values
termination_by structural n => n

/-- Read the condition and the branches of an `if` that begins on a line. -/
def branches (openLine : Nat) : Nat → Parse Stmt
  | 0 => exhausted
  | fuel + 1 => do
    let condition ← expression 0 fuel
    expect "then"
    let yes ← block fuel
    if ← accept "elseif" then return .branch condition yes [← branches openLine fuel]
    else
      let no ← if ← accept "else" then block fuel else pure []
      close "end" "if" openLine
      return .branch condition yes no
termination_by structural n => n

/-- Read a `for` loop that begins on a line. -/
def forLoop (openLine : Nat) : Nat → Parse Stmt
  | 0 => exhausted
  | fuel + 1 => do
    let x ← name
    match ← peek with
    | .fixed "=" =>
      advance
      let start ← expression 0 fuel
      expect ","
      let stop ← expression 0 fuel
      let step ← if ← accept "," then some <$> expression 0 fuel else pure none
      expect "do"
      let statements ← inLoop (block fuel)
      close "end" "for" openLine
      return .count openLine x start stop step statements
    | .fixed "," | .fixed "in" =>
      let names ← moreNames x fuel
      expect "in"
      let values ← expressions fuel
      expect "do"
      let statements ← inLoop (block fuel)
      close "end" "for" openLine
      return .each openLine names values statements
    | _ => fail "'=' or 'in' expected"
termination_by structural n => n

/-- Read the rest of the name of a function, and the function, which begins on a line. -/
def functionName (openLine : Nat) (e : Expr) : Nat → Parse Stmt
  | 0 => exhausted
  | fuel + 1 => do
    if ← accept "." then
      let l ← line
      let x ← name
      functionName openLine (.index l e (.str x.toUTF8)) fuel
    else if ← accept ":" then
      let l ← line
      let x ← name
      let b ← body ["self"] openLine fuel
      return .assign openLine [.index l e (.str x.toUTF8)] [.function b]
    else
      let b ← body [] openLine fuel
      return .assign openLine [e] [.function b]
termination_by structural n => n

end

/-- Read a whole chunk, a function that takes extra arguments. -/
def chunk (fuel : Nat) : Parse Body := do
  let statements ← block fuel
  unless (← peek) = .done do fail "<eof> expected"
  let s ← get
  match s.stray with
  | some message => throw ⟨s.current.line, message⟩
  | none => return .mk [] true statements

end Parser

/-- Parse the text of a chunk. -/
def parse (source : List UInt8) : Except SyntaxError Body :=
  let lexemes := Lexer.tokens source
  match lexemes with
  | [] => .ok (.mk [] true [])
  | first :: rest =>
    match first.token with
    | .fault message => .error ⟨first.line, message⟩
    | _ =>
      (Parser.chunk (16 * (lexemes.length + 4))).run' ⟨first, rest, first.line, true, 0, none⟩

/-- The place in a chunk that a message is about. -/
def placeText (chunk : List UInt8) (line : Nat) : List UInt8 :=
  chunk ++ ascii s!":{line}: "

/-- The message of a fault in a chunk. -/
def SyntaxError.text (chunk : List UInt8) (e : SyntaxError) : List UInt8 :=
  placeText chunk e.line ++ e.message

/-- A chunk that was compiled before begins with this byte. -/
def binaryMark : UInt8 := 27

/-- Compile a chunk under a name. Compiled chunks are refused. -/
def compile (chunk : List UInt8) (source : List UInt8) : Except (List UInt8) Body :=
  if source.head? = some binaryMark then
    .error (chunk ++ ascii ": bad binary format (truncated chunk)")
  else match parse source with
    | .ok body => .ok body
    | .error e => .error (e.text chunk)

end LuaHost.Lua
