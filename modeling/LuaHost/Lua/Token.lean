import LuaHost.Lua.ChunkName
import LuaHost.Lua.Numeral

/-!
# Tokens of a chunk
-/

namespace LuaHost.Lua

/-- A token. -/
inductive Token where
  /-- The end of the chunk. -/
  | done
  /-- A reserved word or an operator. -/
  | fixed (s : String)
  /-- A byte that begins no other token. -/
  | byte (b : UInt8)
  | name (x : String)
  | number (n : Numeral)
  | str (s : ByteArray)
  /-- Text that is no token, with the message that says why. -/
  | fault (message : List UInt8)
  deriving DecidableEq

/-- A token with the text it was read from and the line it ends on. -/
structure Lexeme where
  token : Token
  text : List UInt8
  line : Nat
  deriving DecidableEq

namespace Token

/-- The reserved words. -/
def reserved : List String :=
  ["and", "break", "do", "else", "elseif", "end", "false", "for", "function", "goto", "if", "in",
    "local", "nil", "not", "or", "repeat", "return", "then", "true", "until", "while"]

/-- A text between single quotes, cut at a NUL. -/
def quoted (s : List UInt8) : List UInt8 := 39 :: s.takeWhile (· ≠ 0) ++ [39]

end Token

/-- How a token is shown in a message. -/
def Lexeme.shown (l : Lexeme) : List UInt8 :=
  match l.token with
  | .done => ascii "<eof>"
  | .fixed s => Token.quoted (ascii s)
  | .byte b =>
    if 32 ≤ b && b < 127 then Token.quoted [b]
    else Token.quoted (ascii s!"<\\{b.toNat}>")
  | _ => Token.quoted l.text

end LuaHost.Lua
