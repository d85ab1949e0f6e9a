import Whiteboard.Json.Token

/-!
# Reading JSON

The tokens of a text are put together one by one, with the arrays and objects that are still open on a stack.
-/

namespace Whiteboard.Json

/-- An array or an object that is still open, with what has been read of it in reverse. -/
inductive Open where
  | items (done : List Json)
  /-- The member with this name is being read. -/
  | members (done : List (Option String × Json)) (name? : Option String)

/-- What has to come next. -/
inductive Expect where
  /-- A value. -/
  | value
  /-- The first item of an array, or its end. -/
  | firstItem
  /-- The first name of an object, or its end. -/
  | firstName
  /-- A further name, after these members. -/
  | name (done : List (Option String × Json))
  /-- A colon after this name. -/
  | colon (done : List (Option String × Json)) (name? : Option String)
  /-- What may follow this value. -/
  | after (v : Json)

/-- The value that a single token is. -/
def ofToken? : Token → Option Json
  | .null => some .null
  | .bool b => some (.bool b)
  | .number n => some (.number n)
  | .string (some s) => some (.string s)
  | .string none => some .brokenString
  | _ => none

/-- The value that the tokens spell, from a state that has been reached. -/
def build? : List Open → Expect → List Token → Option Json
  | [], .after v, [] => some v
  | _, _, [] => none
  | outer, .value, token :: rest =>
    match token with
    | .openBracket => build? outer .firstItem rest
    | .openBrace => build? outer .firstName rest
    | _ => (ofToken? token).bind fun v => build? outer (.after v) rest
  | outer, .firstItem, token :: rest =>
    match token with
    | .closeBracket => build? outer (.after (.array [])) rest
    | .openBracket => build? (.items [] :: outer) .firstItem rest
    | .openBrace => build? (.items [] :: outer) .firstName rest
    | _ => (ofToken? token).bind fun v => build? (.items [] :: outer) (.after v) rest
  | outer, .firstName, token :: rest =>
    match token with
    | .closeBrace => build? outer (.after (.object [])) rest
    | .string name? => build? outer (.colon [] name?) rest
    | _ => none
  | outer, .name done, token :: rest =>
    match token with
    | .string name? => build? outer (.colon done name?) rest
    | _ => none
  | outer, .colon done name?, token :: rest =>
    match token with
    | .colon => build? (.members done name? :: outer) .value rest
    | _ => none
  | .items done :: outer, .after v, token :: rest =>
    match token with
    | .comma => build? (.items (v :: done) :: outer) .value rest
    | .closeBracket => build? outer (.after (.array (v :: done).reverse)) rest
    | _ => none
  | .members done name? :: outer, .after v, token :: rest =>
    match token with
    | .comma => build? outer (.name ((name?, v) :: done)) rest
    | .closeBrace => build? outer (.after (.object ((name?, v) :: done).reverse)) rest
    | _ => none
  | [], .after _, _ :: _ => none

/-- The value that a text spells. -/
def parse? (text : String) : Option Json := (Token.ofText? text).bind (build? [] .value)

end Whiteboard.Json
