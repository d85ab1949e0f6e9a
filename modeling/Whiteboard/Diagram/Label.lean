import Whiteboard.Text.Blank
import Whiteboard.Text.Search

/-!
# Labels in diagram text

A label stands between double quotes on one line, so a quote and a line break inside it are written as tokens: `#quot;`
and `<br/>`. An edge label stands between pipes and loses the pipes it contains.
-/

namespace Whiteboard.Label

open Text

/-- The token for a line break. -/
def breakToken : List Char := "<br/>".toList

/-- The token for a double quote. -/
def quoteToken : List Char := "#quot;".toList

/-- Every line break, be it a line feed, a carriage return or the two together, is written as the break token. -/
def breaksToTokens : List Char → List Char
  | [] => []
  | '\r' :: '\n' :: cs => breakToken ++ breaksToTokens cs
  | c :: cs => if c = '\n' ∨ c = '\r' then breakToken ++ breaksToTokens cs else c :: breaksToTokens cs

/-- The form of a label between double quotes. -/
def escape (label : String) : String :=
  String.ofList (breaksToTokens (replaceAll ['"'] quoteToken label.toList))

/-- The form of an edge label between pipes: pipes are left out and the ends trimmed. -/
def sanitize (label : String) : String :=
  String.ofList (breaksToTokens (trim (label.toList.filter (· != '|'))))

/-- The label that a written form stands for. -/
def decodeChars (raw : List Char) : List Char :=
  trim (replaceAll "<br>".toList ['\n'] (replaceAll breakToken ['\n'] (replaceAll quoteToken ['"'] raw)))

/-- The label that a written form stands for: tokens give way to what they stand for, and the ends are trimmed. -/
def decode (raw : String) : String := String.ofList (decodeChars raw.toList)

end Whiteboard.Label
