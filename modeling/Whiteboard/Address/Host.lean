import Whiteboard.Address.Escape
import Whiteboard.Text.Search

/-!
# Hosts

A host is a name, an address of four bytes, or an address of eight numbers between brackets. A name that is not ASCII is
encoded label by label.
-/

namespace Whiteboard

/-- The host of an address. -/
inductive Host where
  | name (text : List Char)
  | ipv4 (address : Nat)
  /-- An address of eight numbers of 16 bits. -/
  | ipv6 (pieces : List Nat)
  deriving DecidableEq, Repr

namespace Address

/-- The number that digits of a base spell. -/
def numberInBase? (base : Nat) (digits : List Char) : Option Nat :=
  digits.foldlM (fun n c => (Json.Token.hexValue? c).bind fun d => if d < base then some (base * n + d) else none) 0

/-- The number that a part of an address of four bytes spells: hexadecimal after `0x`, octal after a zero. -/
def ipv4Number? : List Char → Option Nat
  | [] => none
  | '0' :: 'x' :: rest => numberInBase? 16 rest
  | '0' :: 'X' :: rest => numberInBase? 16 rest
  | ['0'] => some 0
  | '0' :: rest => numberInBase? 8 rest
  | digits => numberInBase? 10 digits

/-- The parts of a host, without an empty last one. -/
def hostParts (host : List Char) : List (List Char) :=
  let parts := splitAt (· == '.') host
  if parts.length > 1 && parts.getLast? == some [] then parts.dropLast else parts

/-- The last part of a host looks like a number, so the host has to be an address. -/
def endsInNumber (host : List Char) : Bool :=
  match (hostParts host).getLast? with
  | some [] | none => false
  | some part => part.all Char.isDigit || ((part.take 2 == ['0', 'x'] || part.take 2 == ['0', 'X']) &&
      (ipv4Number? part).isSome)

/-- The address that parts with dots between them spell; the last part fills all bytes that are left. -/
def ipv4? (host : List Char) : Option Nat := do
  let numbers ← (hostParts host).mapM ipv4Number?
  let last ← numbers.getLast?
  let firsts := numbers.dropLast
  if 3 < firsts.length || firsts.any (255 < ·) || pow2 (8 * (4 - firsts.length)) ≤ last then none
  else some (firsts.zipIdx.foldl (fun sum (n, i) => sum + n * pow2 (8 * (3 - i))) last)

/-- The eight numbers that a text spells, some of which two colons may stand for. The last two may be given as an
address of four bytes. -/
def ipv6? (text : List Char) : Option (List Nat) := do
  let piece? (p : List Char) : Option (List Nat) :=
    if p.contains '.' then
      let bytes := splitAt (· == '.') p
      if bytes.length = 4 && bytes.all (fun b => b.all Char.isDigit && (b.length = 1 || b.head? != some '0')) then
        (ipv4? p).map fun n => [n / 65536, n % 65536]
      else none
    else if p.isEmpty || 4 < p.length then none
    else (numberInBase? 16 p).map ([·])
  let pieces? (ps : List (List Char)) : Option (List Nat) :=
    if ps.dropLast.any (·.contains '.') then none else (ps.mapM piece?).map List.flatten
  let side? (s : List Char) : Option (List Nat) := if s.isEmpty then some [] else pieces? (splitAt (· == ':') s)
  match Text.breakOn? [':', ':'] text with
  | none => (side? text).filter (·.length = 8)
  | some (before, after) =>
    let left ← side? before
    let right ← side? after
    if before.contains '.' || 7 < left.length + right.length then none
    else some (left ++ List.replicate (8 - left.length - right.length) 0 ++ right)

/-- A character in lower case, for the scripts in which the cases lie at a fixed distance. -/
def lowerCase (c : Char) : Char :=
  let n := c.toNat
  if (0xC0 ≤ n && n ≤ 0xDE && n != 0xD7) || (0x391 ≤ n && n ≤ 0x3A9) || (0x410 ≤ n && n ≤ 0x42F) then Char.ofNat (n + 32)
  else if 0x400 ≤ n && n ≤ 0x40F then Char.ofNat (n + 80)
  else if 0xFF01 ≤ n && n ≤ 0xFF5E then (Char.ofNat (n - 0xFEE0)).toLower
  else if n = 0x3002 || n = 0xFF61 then '.'
  else c.toLower

/-- The next bias of the encoding of a label. -/
def nextBias (delta points : Nat) (first : Bool) : Nat :=
  let delta := if first then delta / 700 else delta / 2
  go 64 (delta + delta / points) 0
where
  go : Nat → Nat → Nat → Nat
    | 0, _, k => k
    | rounds + 1, delta, k => if 455 < delta then go rounds (delta / 35) (k + 36) else k + 36 * delta / (delta + 38)

/-- The digit of the encoding of a label for a number below 36. -/
def labelDigit (n : Nat) : Char := if n < 26 then Char.ofNat (97 + n) else Char.ofNat (22 + n)

/-- A number as digits of variable weight. -/
def variableDigits (bias : Nat) : Nat → Nat → Nat → List Char
  | 0, _, _ => []
  | rounds + 1, k, q =>
    let t := if k ≤ bias then 1 else if bias + 26 ≤ k then 26 else k - bias
    if q < t then [labelDigit q]
    else labelDigit (t + (q - t) % (36 - t)) :: variableDigits bias rounds (k + 36) ((q - t) / (36 - t))

/-- The digits for the characters of a label that are not ASCII, from the least one on that is left. -/
def labelDigits (label : List Nat) (basic : Nat) : Nat → Nat → Nat → Nat → Nat → List Char
  | 0, _, _, _, _ => []
  | rounds + 1, n, delta, bias, handled =>
    match (label.filter (n ≤ ·)).min? with
    | none => []
    | some m =>
      let delta := delta + (m - n) * (handled + 1)
      let (out, delta, bias, handled) := label.foldl (fun (out, delta, bias, handled) c =>
        if c < m then (out, delta + 1, bias, handled)
        else if c = m then
          (out ++ variableDigits bias 64 36 delta, 0, nextBias delta (handled + 1) (handled = basic), handled + 1)
        else (out, delta, bias, handled)) (([] : List Char), delta, bias, handled)
      out ++ labelDigits label basic rounds (m + 1) (delta + 1) bias handled

/-- A label in ASCII: one that is not ASCII is encoded. -/
def asciiLabel (label : List Char) : List Char :=
  if label.all (·.toNat < 0x80) then label
  else
    let basic := label.filter (·.toNat < 0x80)
    "xn--".toList ++ (if basic.isEmpty then [] else basic ++ ['-']) ++
    labelDigits (label.map (·.toNat)) basic.length label.length 128 0 72 basic.length

/-- The host name that a text spells. -/
def hostName? (text : List Char) : Option (List Char) := do
  let decoded ← String.fromUTF8? ⟨(unescape text).toArray⟩
  let labels := (splitAt (· == '.') ((decoded.toList.filter (·.toNat != 0xAD)).map lowerCase)).map asciiLabel
  let name := ['.'].intercalate labels
  if name.isEmpty || name.any (fun c => isUnprintable c || " #%/:<>?@[\\]^|".toList.contains c) then none else some name

/-- The host that a text spells. A scheme that is not special takes it as it is. -/
def readHost? (special : Bool) (text : List Char) : Option Host :=
  match text with
  | '[' :: rest =>
    if rest.getLast? == some ']' then (ipv6? rest.dropLast).map .ipv6 else none
  | _ =>
    if special then
      (hostName? text).bind fun name => if endsInNumber name then (ipv4? name).map .ipv4 else some (.name name)
    else if text.any (fun c => c.toNat = 0 || " #/:<>?@[\\]^|".toList.contains c) then none
    else some (.name (escape "" text))

/-! ## Writing -/

/-- The longest run of at least two zeros, as its start and its length; the first of several. -/
def longestZeros (pieces : List Nat) : Option (Nat × Nat) :=
  let runs := (List.range pieces.length).map fun i => (i, ((pieces.drop i).takeWhile (· == 0)).length)
  runs.foldl (fun best run => if max 1 (best.elim 1 (·.2)) < run.2 then some run else best) none

/-- A number in hexadecimal digits. -/
def hexText (n : Nat) : List Char := Nat.toDigits 16 n

/-- Pieces with colons between them. -/
def colons (pieces : List Nat) : List Char := [':'].intercalate (pieces.map hexText)

/-- An address of eight numbers, its longest run of zeros shortened to two colons. -/
def ipv6Text (pieces : List Nat) : List Char :=
  match longestZeros pieces with
  | none => colons pieces
  | some (start, length) => colons (pieces.take start) ++ [':', ':'] ++ colons (pieces.drop (start + length))

/-- The text of a host. -/
def hostText : Host → List Char
  | .name text => text
  | .ipv4 n => ['.'].intercalate (([16777216, 65536, 256, 1].map fun d => n / d % 256).map Text.digitsOfNat)
  | .ipv6 pieces => '[' :: ipv6Text pieces ++ [']']

end Address

end Whiteboard
