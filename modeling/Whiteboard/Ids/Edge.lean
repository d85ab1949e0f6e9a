/-!
# Edge ids

An edge from `a` to `b` gets the id `a_b`, and the n-th such edge the id `a_b_n`. If that id is taken, the least of one
hundred numbered variants that is free takes its place.
-/

namespace Whiteboard

/-- The number of variants of an edge id that are tried. -/
def maxEdgeIdVariants : Nat := 100

/-- A way to hand out edge ids: what must not be given, what has been given, and which pairs have been asked for. -/
structure EdgeIds where
  used : List String
  issued : List String := []
  asked : List (String × String) := []
  deriving DecidableEq, Repr

/-- An edge for which no id is free. -/
structure UnresolvableEdge where
  source : String
  target : String
  deriving DecidableEq, Repr

namespace UnresolvableEdge

/-- The id that the edge would have. -/
def id (e : UnresolvableEdge) : String := e.source ++ "_" ++ e.target

/-- What is said of such an edge. -/
def message (e : UnresolvableEdge) : String :=
  "no free id for edge " ++ e.source ++ " -> " ++ e.target ++ " after " ++ toString maxEdgeIdVariants ++ " attempts"

end UnresolvableEdge

namespace EdgeIds

/-- An id that may be given. -/
def isFree (ids : EdgeIds) (id : String) : Bool := !ids.used.contains id && !ids.issued.contains id

/-- The id of the n-th edge of a pair, before it is made unique. -/
def candidate (source target : String) (n : Nat) : String :=
  let base := source ++ "_" ++ target
  if n = 1 then base else base ++ "_" ++ toString n

/-- The variants of a taken candidate, in the order in which they are tried. -/
def variants (candidate : String) : List String :=
  (List.range maxEdgeIdVariants).map fun k => candidate ++ "_" ++ toString (k + 1)

/-- The id for one more edge, if one is free. The request counts either way. -/
def allocate (ids : EdgeIds) (source target : String) : Option String × EdgeIds :=
  let ids := { ids with asked := (source, target) :: ids.asked }
  let wanted := candidate source target (ids.asked.count (source, target))
  match (wanted :: variants wanted).find? ids.isFree with
  | some id => (some id, { ids with issued := id :: ids.issued })
  | none => (none, ids)

/-- What each of the edges gets, in order. -/
def allocateEach (ids : EdgeIds) : List (String × String) → List (Option String)
  | [] => []
  | (source, target) :: rest =>
    let (id?, ids) := ids.allocate source target
    id? :: ids.allocateEach rest

end EdgeIds

/-- An id for every edge, none of them in `used`, or the first edge that can have none. -/
def allocateEdgeIds (used : List String) (pairs : List (String × String)) : Except UnresolvableEdge (List String) :=
  go ⟨used, [], []⟩ pairs
where
  go (ids : EdgeIds) : List (String × String) → Except UnresolvableEdge (List String)
    | [] => .ok []
    | (source, target) :: rest =>
      match ids.allocate source target with
      | (none, _) => .error ⟨source, target⟩
      | (some id, ids) => (go ids rest).map (id :: ·)

end Whiteboard
