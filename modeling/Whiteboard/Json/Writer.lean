import Whiteboard.Json.Value

/-!
# Writing JSON

A value is written on one line without spaces, or over several lines, each level indented by two spaces more. An empty
array or object is written without a line break either way.
-/

namespace Whiteboard.Json

open Text

/-- The lower-case hexadecimal digit of a number below sixteen. -/
def hexDigit (n : Nat) : Char := if n < 10 then Char.ofNat (48 + n) else Char.ofNat (87 + n)

/-- A character inside a string: quotes, backslashes and control characters are escaped. -/
def escapeChar (c : Char) : List Char :=
  match c with
  | '"' => ['\\', '"']
  | '\\' => ['\\', '\\']
  | '\x08' => ['\\', 'b']
  | '\x0c' => ['\\', 'f']
  | '\n' => ['\\', 'n']
  | '\r' => ['\\', 'r']
  | '\t' => ['\\', 't']
  | _ => if c.toNat < 0x20 then ['\\', 'u', '0', '0', hexDigit (c.toNat / 16), hexDigit (c.toNat % 16)] else [c]

/-- A string between quotes. -/
def quote (s : String) : List Char := '"' :: s.toList.flatMap escapeChar ++ ['"']

/-- A string that stands for itself, or for the replacement character if it is broken. -/
def quoteName (name? : Option String) : List Char := quote (name?.getD "\uFFFD")

/-- What separates the parts of a value: nothing, or line breaks and spaces. -/
inductive Style where
  | compact
  | pretty
  deriving DecidableEq, Repr

namespace Style

/-- A line break, and the spaces before a part at the given depth. -/
def lineBreak : Style → Nat → List Char
  | compact, _ => []
  | pretty, depth => '\n' :: List.replicate (2 * depth) ' '

/-- What stands between a name and its value. -/
def colon : Style → List Char
  | compact => [':']
  | pretty => [':', ' ']

end Style

mutual

/-- A value at the given depth. -/
def write (style : Style) (depth : Nat) : Json → List Char
  | null => "null".toList
  | bool true => "true".toList
  | bool false => "false".toList
  | number n => n.text.toList
  | string s => quote s
  | brokenString => quoteName none
  | array [] => "[]".toList
  | array (item :: items) =>
    '[' :: style.lineBreak (depth + 1) ++ write style (depth + 1) item ++ writeItems style (depth + 1) items ++
    style.lineBreak depth ++ [']']
  | object [] => ['\x7b', '\x7d']
  | object ((name?, value) :: members) =>
    '\x7b' :: style.lineBreak (depth + 1) ++ quoteName name? ++ style.colon ++ write style (depth + 1) value ++
    writeMembers style (depth + 1) members ++ style.lineBreak depth ++ ['\x7d']

/-- Further items of an array, each after a comma. -/
def writeItems (style : Style) (depth : Nat) : List Json → List Char
  | [] => []
  | item :: items => ',' :: style.lineBreak depth ++ write style depth item ++ writeItems style depth items

/-- Further members of an object, each after a comma. -/
def writeMembers (style : Style) (depth : Nat) : List (Option String × Json) → List Char
  | [] => []
  | (name?, value) :: members =>
    ',' :: style.lineBreak depth ++ quoteName name? ++ style.colon ++ write style depth value ++
    writeMembers style depth members

end

/-- The value on one line. -/
def compact (v : Json) : String := String.ofList (write .compact 0 v)

/-- The value over several lines. -/
def pretty (v : Json) : String := String.ofList (write .pretty 0 v)

end Whiteboard.Json
