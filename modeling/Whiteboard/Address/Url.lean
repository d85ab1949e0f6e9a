import Whiteboard.Address.Host
import Whiteboard.Text.Blank

/-!
# Addresses

An absolute address is read and written in its normal form: scheme and host in lower case, no number that the scheme
implies, no dot segments, and everything escaped that must not stand for itself.
-/

namespace Whiteboard

/-- What follows the host of an address. -/
inductive UrlPath where
  /-- Segments, each after a slash. -/
  | segments (all : List (List Char))
  /-- A path that does not start with a slash. -/
  | rootless (text : List Char)
  deriving DecidableEq, Repr

/-- An absolute address in its normal form. -/
structure Url where
  scheme : List Char
  username : List Char := []
  password : List Char := []
  host? : Option Host := none
  portNumber? : Option Nat := none
  path : UrlPath
  query? : Option (List Char) := none
  fragment? : Option (List Char) := none
  deriving DecidableEq, Repr

namespace Url

open Address

/-- The number that a scheme implies behind the host, for the special schemes with one. -/
def impliedNumber? (scheme : List Char) : Option Nat :=
  match String.ofList scheme with
  | "http" | "ws" => some 80
  | "https" | "wss" => some 443
  | "ftp" => some 21
  | _ => none

/-- A segment that stands for the one before it. -/
def isDoubleDot (segment : List Char) : Bool :=
  ["..", ".%2e", "%2e.", "%2e%2e"].contains (String.ofList (segment.map Char.toLower))

/-- A segment that stands for nothing. -/
def isSingleDot (segment : List Char) : Bool := [".", "%2e"].contains (String.ofList (segment.map Char.toLower))

/-- The segments without those that are dots, after those in `done`. The last segment is never left out. -/
def resolveDots (done : List (List Char)) : List (List Char) → List (List Char)
  | [] => done
  | segment :: rest =>
    let isLast := rest.isEmpty
    let done :=
      if isDoubleDot segment then done.dropLast ++ (if isLast then [[]] else [])
      else if isSingleDot segment then (if isLast then done ++ [[]] else done)
      else done ++ [escape pathSet segment]
    resolveDots done rest

/-- The path that starts with a slash, or is empty. -/
def pathOf (special : Bool) (text : List Char) : UrlPath :=
  let isSlash c := c == '/' || (special && c == '\\')
  match text with
  | [] => .segments (if special then [[]] else [])
  | c :: rest => .segments (resolveDots [] (splitAt isSlash (if isSlash c then rest else c :: rest)))

/-- The number that a text spells, without the one that the scheme implies; an empty text is none. -/
def readNumber? (implied? : Option Nat) (digits : List Char) : Option (Option Nat) :=
  if !digits.all Char.isDigit then none
  else
    let n := Text.natOfDigits digits
    if 65535 < n then none else some (if digits.isEmpty || some n == implied? then none else some n)

/-- The host and what follows it; a colon within brackets belongs to the host. -/
def cutHost (text : List Char) : List Char × List Char :=
  match text with
  | '[' :: _ =>
    let (before, after) := cutAt (· == ']') text
    let (more, rest) := cutAt (· == ':') after
    (before ++ more, rest)
  | _ => cutAt (· == ':') text

/-- The last `@` of a text divides the credentials from the host. -/
def cutCredentials (text : List Char) : List Char × List Char :=
  match (splitAt (· == '@') text).reverse with
  | [] => ([], text)
  | host :: before => (['@'].intercalate before.reverse, host)

/-- The address with the given scheme, host, and path, all of them still to be read. -/
def withHost? (scheme : List Char) (special : Bool) (text : List Char) : Option Url := do
  let (authority, path) := cutAt (fun c => c == '/' || (special && c == '\\')) text
  let (credentials, place) := cutCredentials authority
  let (place, numberText) := cutHost place
  let (username, password) := cutAt (· == ':') credentials
  if place.isEmpty && (special || !numberText.isEmpty || !credentials.isEmpty) then none
  else
    return {
      scheme
      username := escape credentialSet username
      password := escape credentialSet (password.drop 1)
      host? := some (← readHost? special place)
      portNumber? := ← readNumber? (impliedNumber? scheme) (numberText.drop 1)
      path := pathOf special path }

/-- An address of a file. A local host is left out. -/
def fileUrl? (scheme text : List Char) : Option Url := do
  let isSlash c := c == '/' || c == '\\'
  let (host, path) := match text with
    | a :: b :: rest => if isSlash a && isSlash b then cutAt isSlash rest else ([], text)
    | _ => ([], text)
  let host ← if host.isEmpty then some (.name []) else readHost? true host
  return { scheme, host? := some (if host = .name "localhost".toList then .name [] else host), path := pathOf true path }

/-- The address with the given scheme, without query and fragment. -/
def ofScheme? (scheme text : List Char) : Option Url :=
  if scheme = "file".toList then fileUrl? scheme text
  else if (impliedNumber? scheme).isSome then
    withHost? scheme true (text.dropWhile fun c => c == '/' || c == '\\')
  else
    match text with
    | '/' :: '/' :: rest => withHost? scheme false rest
    | '/' :: _ => some { scheme, path := pathOf false text }
    | _ => some { scheme, path := .rootless (escape "" text) }

/-- The characters of a text that count: none of the line ends and tabs, and no blanks around it. -/
def significant (text : List Char) : List Char :=
  (Text.dropEndWhile (·.toNat ≤ 0x20) (text.dropWhile (·.toNat ≤ 0x20))).filter fun c =>
    c != '\t' && c != '\n' && c != '\r'

/-- The address that a text spells; it has to start with a scheme. -/
def parse? (text : String) : Option Url := do
  let all := significant text.toList
  let (scheme, rest) := cutAt (· == ':') all
  let first ← scheme.head?
  if rest.isEmpty || !first.isAlpha || !scheme.all (fun c => c.isAlphanum || "+-.".toList.contains c) then none
  else
    let (rest, fragment) := cutAt (· == '#') (rest.drop 1)
    let (rest, query) := cutAt (· == '?') rest
    let scheme := scheme.map Char.toLower
    let url ← ofScheme? scheme rest
    let special := (impliedNumber? scheme).isSome || scheme = "file".toList
    return { url with
      query? := if query.isEmpty then none else some (escape (querySet special) (query.drop 1))
      fragment? := if fragment.isEmpty then none else some (escape fragmentSet (fragment.drop 1)) }

/-- The text of a path; without a host it does not start with two slashes. -/
def pathText (hasHost : Bool) : UrlPath → List Char
  | .rootless text => text
  | .segments all =>
    (if !hasHost && all.length > 1 && all.head? == some [] then ['/', '.'] else []) ++ all.flatMap ('/' :: ·)

/-- The credentials before a host. -/
def credentialText (u : Url) : List Char :=
  if u.username.isEmpty && u.password.isEmpty then []
  else u.username ++ (if u.password.isEmpty then [] else ':' :: u.password) ++ ['@']

/-- The normal form of an address. -/
def text (u : Url) : String := String.ofList <|
  u.scheme ++ [':'] ++
  (match u.host? with
    | none => []
    | some host =>
      ['/', '/'] ++ u.credentialText ++ hostText host ++ u.portNumber?.elim [] fun n => ':' :: Text.digitsOfNat n) ++
  pathText u.host?.isSome u.path ++
  u.query?.elim [] ('?' :: ·) ++ u.fragment?.elim [] ('#' :: ·)

end Url

end Whiteboard
