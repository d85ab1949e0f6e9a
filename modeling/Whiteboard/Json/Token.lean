import Whiteboard.Json.Value

/-!
# JSON tokens

A text is cut into punctuation marks, words, strings and numbers. Spaces, tabs and line ends between them do not count.
-/

namespace Whiteboard.Json

open Text

/-- A token; a string that holds an unpaired surrogate has no text. -/
inductive Token where
  | openBrace
  | closeBrace
  | openBracket
  | closeBracket
  | colon
  | comma
  | null
  | bool (b : Bool)
  | number (n : Numeral)
  | string (text? : Option String)
  deriving DecidableEq, Repr

namespace Token

/-- A character that may stand between tokens. -/
def isSpace (c : Char) : Bool := c == ' ' || c == '\n' || c == '\t' || c == '\r'

/-- The value of a hexadecimal digit. -/
def hexValue? (c : Char) : Option Nat :=
  if '0' ≤ c && c ≤ '9' then some (c.toNat - '0'.toNat)
  else if 'a' ≤ c && c ≤ 'f' then some (c.toNat - 'a'.toNat + 10)
  else if 'A' ≤ c && c ≤ 'F' then some (c.toNat - 'A'.toNat + 10)
  else none

/-- The value of four hexadecimal digits. -/
def hexUnit? (a b c d : Char) : Option Nat := do
  return 4096 * (← hexValue? a) + 256 * (← hexValue? b) + 16 * (← hexValue? c) + (← hexValue? d)

/-- The character that an escape of one letter stands for. -/
def escaped? : Char → Option Char
  | '"' => some '"'
  | '\\' => some '\\'
  | '/' => some '/'
  | 'b' => some '\x08'
  | 'f' => some '\x0c'
  | 'n' => some '\n'
  | 'r' => some '\r'
  | 't' => some '\t'
  | _ => none

/-- The codes of a string up to its closing quote, and what follows. An escape of four digits stands for its code, be it
a surrogate; control characters must be escaped. -/
def readString? : List Char → Option (List Nat × List Char)
  | '"' :: rest => some ([], rest)
  | '\\' :: 'u' :: a :: b :: c :: d :: rest =>
    match hexUnit? a b c d, readString? rest with
    | some unit, some (units, rest) => some (unit :: units, rest)
    | _, _ => none
  | '\\' :: c :: rest =>
    match escaped? c, readString? rest with
    | some e, some (units, rest) => some (e.toNat :: units, rest)
    | _, _ => none
  | [] => none
  | c :: rest =>
    if c.toNat < 0x20 || c == '\\' then none
    else (readString? rest).map fun (units, rest) => (c.toNat :: units, rest)

/-- A first half of a surrogate pair. -/
def isHighSurrogate (unit : Nat) : Bool := 0xD800 ≤ unit && unit < 0xDC00

/-- A second half of a surrogate pair. -/
def isLowSurrogate (unit : Nat) : Bool := 0xDC00 ≤ unit && unit < 0xE000

/-- The text of a list of codes, in which surrogates have to come in pairs. -/
def textOf? : List Nat → Option (List Char)
  | [] => some []
  | [unit] => if isHighSurrogate unit || isLowSurrogate unit then none else some [Char.ofNat unit]
  | high :: low :: rest =>
    if isHighSurrogate high then
      if isLowSurrogate low then
        (textOf? rest).map (Char.ofNat (0x10000 + (high - 0xD800) * 0x400 + (low - 0xDC00)) :: ·)
      else none
    else if isLowSurrogate high then none
    else (textOf? (low :: rest)).map (Char.ofNat high :: ·)

/-- The digits behind a point, if one comes next; at least one has to follow it. -/
def readFraction? : List Char → Option (List Char × List Char)
  | '.' :: rest =>
    let digits := rest.takeWhile Char.isDigit
    if digits.isEmpty then none else some (digits, rest.drop digits.length)
  | rest => some ([], rest)

/-- The exponent, if one comes next; it has at least one digit. -/
def readExponent? : List Char → Option (Option Int × List Char)
  | c :: rest =>
    if c == 'e' || c == 'E' then
      let (negative, rest) := match rest with
        | '-' :: rest => (true, rest)
        | '+' :: rest => (false, rest)
        | rest => (false, rest)
      let digits := rest.takeWhile Char.isDigit
      if digits.isEmpty then none
      else
        let n : Int := natOfDigits digits
        some (some (if negative then -n else n), rest.drop digits.length)
    else some (none, c :: rest)
  | [] => some (none, [])

/-- A numeral after its sign. A zero in front of other digits is a numeral of its own. -/
def readNumeral? (negative : Bool) (s : List Char) : Option (Numeral × List Char) :=
  let digits := s.takeWhile Char.isDigit
  let whole := if digits.head? == some '0' then ['0'] else digits
  if whole.isEmpty then none
  else do
    let (fraction, rest) ← readFraction? (s.drop whole.length)
    let (exponent?, rest) ← readExponent? rest
    return ({ negative, whole, fraction, exponent? }, rest)

/-- The token at the head of a text that starts with none of the spaces, and what follows it. -/
def read? : List Char → Option (Token × List Char)
  | '\x7b' :: rest => some (openBrace, rest)
  | '\x7d' :: rest => some (closeBrace, rest)
  | '[' :: rest => some (openBracket, rest)
  | ']' :: rest => some (closeBracket, rest)
  | ':' :: rest => some (colon, rest)
  | ',' :: rest => some (comma, rest)
  | 'n' :: 'u' :: 'l' :: 'l' :: rest => some (null, rest)
  | 't' :: 'r' :: 'u' :: 'e' :: rest => some (bool true, rest)
  | 'f' :: 'a' :: 'l' :: 's' :: 'e' :: rest => some (bool false, rest)
  | '"' :: rest => (readString? rest).map fun (units, rest) => (string ((textOf? units).map String.ofList), rest)
  | '-' :: rest => (readNumeral? true rest).map fun (n, rest) => (number n, rest)
  | rest => (readNumeral? false rest).map fun (n, rest) => (number n, rest)

/-- The tokens of a text. Each round takes up at least one character. -/
def readAll? : Nat → List Char → Option (List Token)
  | 0, s => if (s.dropWhile isSpace).isEmpty then some [] else none
  | rounds + 1, s =>
    let s := s.dropWhile isSpace
    if s.isEmpty then some []
    else
      match read? s with
      | none => none
      | some (token, rest) => (readAll? rounds rest).map (token :: ·)

/-- The tokens of a text, if it can be cut into tokens. -/
def ofText? (text : String) : Option (List Token) := readAll? text.toList.length text.toList

end Token

end Whiteboard.Json
