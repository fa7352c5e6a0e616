/-!
# Command directives in typed text

Text sent to a buffer is a command when it starts with a slash. A doubled slash stands for a
literal one; a comment opener and a path, whose second slash comes before any space, are
plain text.
-/

namespace LuaHost.Directive

/-- What a text means as plain input, or `none` when it is a command. -/
def plainChars? (s : List Char) : Option (List Char) :=
  match s with
  | '/' :: rest =>
    match rest with
    | '/' :: _ => some rest
    | '*' :: _ => some s
    | _ => if rest.find? (fun c => c == '/' || c == ' ') = some '/' then some s else none
  | _ => some s

/-- What a text means as plain input, or `none` when it is a command. -/
def plain? (text : String) : Option String := (plainChars? text.toList).map String.ofList

/-- Double the first character, so that a directive is read as the text it shows. An empty
text becomes one space. -/
def escape (text : String) : String :=
  match text.toList with
  | [] => " "
  | c :: cs => String.ofList (c :: c :: cs)

end LuaHost.Directive
