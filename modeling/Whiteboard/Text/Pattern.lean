import Whiteboard.Text.Numeral

/-!
# Patterns

Regular expressions of a small kind: characters, classes, alternatives, repetitions and the two anchors. A text matches
a pattern if the pattern fits somewhere in it, so only anchors tie it to the ends.
-/

namespace Whiteboard.Text

/-- A pattern. -/
inductive Pattern where
  /-- Fits the empty text anywhere. -/
  | empty
  /-- Fits the empty text at the very start. -/
  | atStart
  /-- Fits the empty text at the very end. -/
  | atEnd
  /-- Fits one character in one of the closed ranges, or in none of them if negated. -/
  | oneOf (negated : Bool) (ranges : List (Char × Char))
  | seq (first second : Pattern)
  | alt (left right : Pattern)
  /-- Fits as many copies in a row as lie within the bounds. -/
  | repeated (p : Pattern) (least : Nat) (most : Option Nat)
  deriving DecidableEq, Repr

namespace Pattern

/-- Whether a character lies in one of the closed ranges. -/
def inClass (negated : Bool) (ranges : List (Char × Char)) (c : Char) : Bool :=
  (ranges.any fun (lo, hi) => lo.toNat ≤ c.toNat && c.toNat ≤ hi.toNat) != negated

/-- The places reached by exactly `n` steps. -/
def iterate (step : Nat → List Nat) : Nat → List Nat → List Nat
  | 0, places => places
  | n + 1, places => iterate step n (places.flatMap step).eraseDups

/-- The places reached by at most `n` steps. -/
def upTo (step : Nat → List Nat) : Nat → List Nat → List Nat
  | 0, places => places
  | n + 1, places => (places ++ upTo step n (places.flatMap step).eraseDups).eraseDups

/-- The places in `text` where a fit of the pattern that starts at place `i` can end. -/
def ends (text : List Char) : Pattern → Nat → List Nat
  | empty, i => [i]
  | atStart, i => if i = 0 then [i] else []
  | atEnd, i => if i = text.length then [i] else []
  | oneOf negated ranges, i => if text[i]?.any (inClass negated ranges) then [i + 1] else []
  | seq p q, i => (ends text p i).flatMap (ends text q)
  | alt p q, i => ends text p i ++ ends text q i
  | repeated p least most, i =>
    upTo (ends text p) (most.elim text.length (· - least)) (iterate (ends text p) least [i])

/-- Whether the pattern fits somewhere in the text. -/
def isIn (p : Pattern) (text : List Char) : Bool :=
  (List.range (text.length + 1)).any fun i => !(ends text p i).isEmpty

/-- The pattern of one character. -/
def char (c : Char) : Pattern := oneOf false [(c, c)]

/-- Any character but a line feed. -/
def anyChar : Pattern := oneOf true [('\n', '\n')]

/-! ## Reading a pattern -/

/-- An open parenthesis with what has been read since: the finished alternatives and, in reverse, the parts of the last
one. -/
structure Frame where
  finished : Option Pattern := none
  parts : List Pattern := []

namespace Frame

/-- The sequence of the parts of the last alternative. -/
def sequence (f : Frame) : Pattern := f.parts.foldl (fun later p => seq p later) empty

/-- The alternatives read so far as one pattern. -/
def close (f : Frame) : Pattern := f.finished.elim f.sequence fun p => alt p f.sequence

/-- One more part. -/
def push (p : Pattern) (f : Frame) : Frame := { f with parts := p :: f.parts }

/-- The start of a further alternative. -/
def split (f : Frame) : Frame := ⟨some f.close, []⟩

/-- The last part under a repetition; none if there is no part. -/
def repeatLast? (least : Nat) (most : Option Nat) (f : Frame) : Option Frame :=
  match f.parts with
  | [] => none
  | p :: ps => some { f with parts := repeated p least most :: ps }

end Frame

/-- A question mark behind a repetition asks for the shortest fit and changes nothing about whether there is one. -/
def dropLazyMark : List Char → List Char
  | '?' :: rest => rest
  | rest => rest

/-- The bounds of a repetition and what follows the closing brace. -/
def readBounds? (s : List Char) : Option (Nat × Option Nat × List Char) :=
  let low := s.takeWhile Char.isDigit
  if low.isEmpty then none
  else
    match s.drop low.length with
    | '\x7d' :: rest => some (natOfDigits low, some (natOfDigits low), rest)
    | ',' :: '\x7d' :: rest => some (natOfDigits low, none, rest)
    | ',' :: rest =>
      let high := rest.takeWhile Char.isDigit
      if high.isEmpty || natOfDigits high < natOfDigits low then none
      else
        match rest.drop high.length with
        | '\x7d' :: rest => some (natOfDigits low, some (natOfDigits high), rest)
        | _ => none
    | _ => none

/-- The ranges of a class up to its closing bracket, and what follows it. Classes inside classes and escapes are not
of this kind of pattern. -/
def readRanges? : List Char → Option (List (Char × Char) × List Char)
  | ']' :: rest => some ([], rest)
  | '[' :: _ | '\\' :: _ | [] => none
  | lo :: '-' :: ']' :: rest => some ([(lo, lo), ('-', '-')], rest)
  | lo :: '-' :: hi :: rest =>
    if hi.toNat < lo.toNat || hi == '[' || hi == '\\' then none
    else (readRanges? rest).map fun (ranges, rest) => ((lo, hi) :: ranges, rest)
  | c :: rest => (readRanges? rest).map fun (ranges, rest) => ((c, c) :: ranges, rest)

/-- A class after its opening bracket. A closing bracket that comes first is one of the characters. -/
def readClass? (s : List Char) : Option (Pattern × List Char) :=
  let (negated, body) := match s with
    | '^' :: rest => (true, rest)
    | rest => (false, rest)
  let (first, body) := match body with
    | ']' :: rest => ([(']', ']')], rest)
    | rest => ([], rest)
  (readRanges? body).map fun (ranges, rest) => (oneOf negated (first ++ ranges), rest)

/-- Reading on, with the parentheses that are open outside the innermost one. Each round takes up at least one
character, so as many rounds as there are characters, and one for the end, are enough. -/
def readOn : Nat → List Frame → Frame → List Char → Option Pattern
  | 0, _, _, _ => none
  | rounds + 1, outer, top, s =>
    match s with
    | [] => if outer.isEmpty then some top.close else none
    | '(' :: rest => readOn rounds (top :: outer) {} rest
    | ')' :: rest =>
      match outer with
      | [] => none
      | frame :: outer => readOn rounds outer (frame.push top.close) rest
    | '|' :: rest => readOn rounds outer top.split rest
    | '^' :: rest => readOn rounds outer (top.push atStart) rest
    | '$' :: rest => readOn rounds outer (top.push atEnd) rest
    | '.' :: rest => readOn rounds outer (top.push anyChar) rest
    | '*' :: rest => (top.repeatLast? 0 none).bind (readOn rounds outer · (dropLazyMark rest))
    | '+' :: rest => (top.repeatLast? 1 none).bind (readOn rounds outer · (dropLazyMark rest))
    | '?' :: rest => (top.repeatLast? 0 (some 1)).bind (readOn rounds outer · (dropLazyMark rest))
    | '\x7b' :: rest =>
      match readBounds? rest with
      | none => none
      | some (least, most, rest) => (top.repeatLast? least most).bind (readOn rounds outer · (dropLazyMark rest))
    | '[' :: rest =>
      match readClass? rest with
      | none => none
      | some (p, rest) => readOn rounds outer (top.push p) rest
    | '\\' :: c :: rest =>
      if c.toNat < 0x80 && !c.isAlphanum && !c.isWhitespace then readOn rounds outer (top.push (char c)) rest else none
    | ['\\'] => none
    | c :: rest => readOn rounds outer (top.push (char c)) rest

/-- The pattern that a text spells, if it spells one. -/
def parse? (text : String) : Option Pattern := readOn (text.toList.length + 1) [] {} text.toList

end Pattern

end Whiteboard.Text
