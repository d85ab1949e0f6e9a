import Whiteboard.Json.Token
import Whiteboard.Json.Writer

/-!
# Escapes in addresses

A character that must not stand for itself is written as the hexadecimal digits of its bytes, each byte after a percent
sign.
-/

namespace Whiteboard.Address

/-- A byte as an escape. -/
def escapeByte (b : UInt8) : List Char :=
  ['%', (Json.hexDigit (b.toNat / 16)).toUpper, (Json.hexDigit (b.toNat % 16)).toUpper]

/-- A character that is escaped everywhere. -/
def isUnprintable (c : Char) : Bool := c.toNat < 0x20 || 0x7F ≤ c.toNat

/-- A text with the unprintable characters and those in `extra` escaped. -/
def escape (extra : String) (text : List Char) : List Char :=
  text.flatMap fun c =>
    if isUnprintable c || extra.toList.contains c then c.toString.toUTF8.toList.flatMap escapeByte else [c]

/-- What is escaped in a fragment. -/
def fragmentSet : String := " \"<>\x60"

/-- What is escaped in a path. -/
def pathSet : String := fragmentSet ++ "#?\x7b\x7d"

/-- What is escaped in a name or a password. -/
def credentialSet : String := pathSet ++ "/:;=@[\\]^|"

/-- What is escaped in a query. -/
def querySet (special : Bool) : String := if special then " \"#<>'" else " \"#<>"

/-- The bytes of a text in which every escape stands for its byte. -/
def unescape : List Char → List UInt8
  | '%' :: a :: b :: rest =>
    match Json.Token.hexValue? a, Json.Token.hexValue? b with
    | some hi, some lo => UInt8.ofNat (16 * hi + lo) :: unescape rest
    | _, _ => '%'.toString.toUTF8.toList ++ unescape (a :: b :: rest)
  | c :: rest => c.toString.toUTF8.toList ++ unescape rest
  | [] => []

/-- The parts of a text between dots, or between other separators. -/
def splitAt (isSeparator : Char → Bool) : List Char → List (List Char)
  | [] => [[]]
  | c :: rest =>
    if isSeparator c then [] :: splitAt isSeparator rest
    else
      match splitAt isSeparator rest with
      | [] => [[c]]
      | first :: others => (c :: first) :: others

/-- The text before the first character of a kind, and the rest. -/
def cutAt (p : Char → Bool) (text : List Char) : List Char × List Char :=
  (text.takeWhile (!p ·), text.dropWhile (!p ·))

end Whiteboard.Address
