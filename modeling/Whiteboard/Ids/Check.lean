import Whiteboard.Diagram.Document
import Whiteboard.Ids.Edge
import Whiteboard.Text.Pattern

/-!
# Checking ids

The ids of a document are checked against their pattern, the reserved words, each other, and the nodes that are already
on the canvas. New names and edge ids are suggested; nothing here changes the document.
-/

namespace Whiteboard

open Text

namespace Ids

/-- Words of the grammar that no node may be named by. -/
def defaultReserved : List String :=
  ["end", "subgraph", "graph", "flowchart", "direction", "style", "classDef", "class", "click", "linkStyle", "default"]

/-- What the ids of a document are checked against. -/
structure Options where
  /-- The ids of the nodes on the canvas. -/
  usedNodeIds : List String := []
  /-- The ids of the edges on the canvas. -/
  usedEdgeIds : List String := []
  /-- The id that each remembered label stands for. -/
  labelToId : List (String × String) := []
  reserved : List String := defaultReserved
  /-- The pattern that every id has to fit; text that spells no pattern stands for the semantic one. -/
  pattern : String := semanticIdPattern
  synthesizeEdgeIds : Bool := false
  /-- Whether a declared id must not be on the canvas. -/
  checkExisting : Bool := true
  deriving DecidableEq, Repr

/-- A class of errors. -/
inductive Code where
  | invalidFormat
  | duplicateLocal
  | collisionExisting
  | reserved
  | ambiguousLabel
  | missingNode
  | unresolvable
  deriving DecidableEq, Repr

/-- The name of a code in a report. -/
def Code.name : Code → String
  | invalidFormat => "INVALID_ID_FORMAT"
  | duplicateLocal => "ID_DUPLICATE_LOCAL"
  | collisionExisting => "ID_COLLISION_EXISTING"
  | reserved => "RESERVED_ID"
  | ambiguousLabel => "AMBIGUOUS_LABEL_MAPPING"
  | missingNode => "MISSING_NODE_FOR_EDGE"
  | unresolvable => "UNRESOLVABLE_ID"

/-- One of the two ends of an edge. -/
inductive EdgeEnd where
  | source
  | target
  deriving DecidableEq, Repr

/-- The name of an end. -/
def EdgeEnd.name : EdgeEnd → String
  | source => "source"
  | target => "target"

/-- What is wrong with an id. -/
inductive Fault where
  | invalidFormat (pattern : String)
  | reserved
  /-- A declared id is on the canvas; `rename` is free for a new node. -/
  | onCanvas (rename : String)
  | declaredTwice
  /-- The label belongs to another id, which may still be on the canvas. -/
  | labelTaken (label remembered : String) (live : Bool)
  | missingEndpoint (source target : String) (side : EdgeEnd)
  | noFreeEdgeId (edge : UnresolvableEdge)
  deriving DecidableEq, Repr

/-- An id, the line it is found on, and what is wrong with it. -/
structure Error where
  id : String
  line : Nat
  fault : Fault
  deriving DecidableEq, Repr

namespace Error

/-- The class of an error. -/
def code (e : Error) : Code :=
  match e.fault with
  | .invalidFormat _ => .invalidFormat
  | .reserved => .reserved
  | .onCanvas _ => .collisionExisting
  | .declaredTwice => .duplicateLocal
  | .labelTaken _ _ _ => .ambiguousLabel
  | .missingEndpoint _ _ _ => .missingNode
  | .noFreeEdgeId _ => .unresolvable

/-- The sentence that describes an error. -/
def message (e : Error) : String :=
  match e.fault with
  | .invalidFormat pattern => "id `" ++ e.id ++ "` must match " ++ pattern
  | .reserved => "id `" ++ e.id ++ "` is a reserved keyword"
  | .onCanvas rename =>
    "id `" ++ e.id ++ "` already exists on the canvas; use `" ++ rename ++ "` for a new node or reference `" ++ e.id ++
    "` without redeclaring it"
  | .declaredTwice => "id `" ++ e.id ++ "` is declared more than once"
  | .labelTaken label remembered true =>
    "label \"" ++ label ++ "\" belongs to existing node `" ++ remembered ++ "`; reference `" ++ remembered ++
    "` instead of declaring `" ++ e.id ++ "`"
  | .labelTaken label remembered false =>
    "label \"" ++ label ++ "\" was previously `" ++ remembered ++ "`, which is no longer on the canvas; reuse `" ++
    remembered ++ "` or change the label of `" ++ e.id ++ "`"
  | .missingEndpoint source target side =>
    "edge " ++ source ++ " -> " ++ target ++ ": " ++ side.name ++ " `" ++ e.id ++
    "` is not a node in this diagram or on the canvas"
  | .noFreeEdgeId edge => edge.message

end Error

/-- A way to read patterns: the ids that a pattern accepts, for a text that spells one. -/
abbrev PatternReader := String → Option (String → Bool)

/-- The patterns of a small kind that are read here. -/
def readPattern : PatternReader := fun text => (Pattern.parse? text).map fun p id => p.isIn id.toList

/-- Whether an id fits a pattern as it is read; a text that spells no pattern stands for the semantic one. -/
def fitsBy (read : PatternReader) (pattern id : String) : Bool :=
  match read pattern with
  | some accepts => accepts id
  | none => isSemanticId id

/-- Whether an id fits a pattern. -/
def fits (pattern id : String) : Bool := fitsBy readPattern pattern id

/-- A text with its ASCII letters in lower case. -/
def lowered (s : String) : String := String.ofList (s.toList.map Char.toLower)

/-- An id is reserved whatever the case of its letters. -/
def isReserved (reserved : List String) (id : String) : Bool := (reserved.map lowered).contains (lowered id)

/-- The numbered variant of an id. -/
def renamed (id : String) (n : Nat) : String := id ++ "_" ++ toString n

/-- The variant `id_n` with the least `n` from two on that is not taken. One more number than there are taken names is
always enough. -/
def freshName (taken : List String) (id : String) : String :=
  (((List.range (taken.length + 1)).map fun k => renamed id (k + 2)).find? (!taken.contains ·)).getD (id ++ "_new")

/-- The errors at the nodes of a document and, for every node that is on the canvas already, its suggested name. `names`
are the names suggested for the nodes before. -/
def checkNodes (read : PatternReader) (options : Options) (nodeIds : List String) (names : List (String × String)) :
    List Document.Node → List Error × List (String × String)
  | [] => ([], names)
  | node :: rest =>
    let format := if fitsBy read options.pattern node.id then [] else
      [⟨node.id, node.line, .invalidFormat options.pattern⟩]
    let reserved := if isReserved options.reserved node.id then [⟨node.id, node.line, .reserved⟩] else []
    if options.checkExisting && node.isDeclared && options.usedNodeIds.contains node.id then
      let name := freshName (options.usedNodeIds ++ nodeIds ++ names.map (·.2)) node.id
      let (errors, all) := checkNodes read options nodeIds (names ++ [(node.id, name)]) rest
      (format ++ reserved ++ ⟨node.id, node.line, .onCanvas name⟩ :: errors, all)
    else
      let (errors, all) := checkNodes read options nodeIds names rest
      (format ++ reserved ++ errors, all)

/-- The declarations of ids that are declared before. -/
def duplicateErrors (before : List String) : List Document.Declaration → List Error
  | [] => []
  | d :: rest =>
    (if before.contains d.id then [⟨d.id, d.line, .declaredTwice⟩] else []) ++ duplicateErrors (d.id :: before) rest

/-- The declarations whose label stands for another id, each pair of label and id once. -/
def labelErrors (options : Options) (before : List (String × String)) : List Document.Declaration → List Error
  | [] => []
  | d :: rest =>
    match options.labelToId.lookup d.label with
    | none => labelErrors options before rest
    | some remembered =>
      if remembered == d.id || before.contains (d.label, d.id) then labelErrors options before rest
      else
        ⟨d.id, d.line, .labelTaken d.label remembered (options.usedNodeIds.contains remembered)⟩ ::
        labelErrors options ((d.label, d.id) :: before) rest

/-- The endpoints of an edge that are neither nodes of the document nor on the canvas. -/
def endpointErrors (options : Options) (doc : Document) (e : Document.Edge) : List Error :=
  let check (side : EdgeEnd) (id : String) : List Error :=
    if (doc.node? id).isSome || options.usedNodeIds.contains id then []
    else [⟨id, e.line, .missingEndpoint e.source e.target side⟩]
  check .source e.source ++ check .target e.target

/-- The ids for the edges that can have one, and an error for each that cannot. -/
def synthesize (ids : EdgeIds) : List Document.Edge → List String × List Error
  | [] => ([], [])
  | e :: rest =>
    match ids.allocate e.source e.target with
    | (some id, ids) =>
      let (given, errors) := synthesize ids rest
      (id :: given, errors)
    | (none, ids) =>
      let (given, errors) := synthesize ids rest
      let edge : UnresolvableEdge := ⟨e.source, e.target⟩
      (given, ⟨edge.id, e.line, .noFreeEdgeId edge⟩ :: errors)

/-- What a check finds: errors, names for nodes that collide, and ids for the edges. -/
structure Report where
  errors : List Error
  renames : List (String × String) := []
  edgeIds : List String := []
  deriving DecidableEq, Repr

/-- The report on a document, with patterns read in the given way. -/
def checkDocumentBy (read : PatternReader) (options : Options) (doc : Document) : Report :=
  let (nodeErrors, renames) := checkNodes read options doc.nodeIds [] doc.nodes
  let (edgeIds, edgeErrors) :=
    if options.synthesizeEdgeIds then synthesize ⟨options.usedEdgeIds, [], []⟩ doc.edges else ([], [])
  { errors :=
      nodeErrors ++ duplicateErrors [] doc.declarations ++ labelErrors options [] doc.declarations ++
      doc.edges.flatMap (endpointErrors options doc) ++ edgeErrors
    renames, edgeIds }

/-- The report on a document. -/
def checkDocument (options : Options) (doc : Document) : Report := checkDocumentBy readPattern options doc

/-- The report on a text, with patterns read in the given way. -/
def checkBy (read : PatternReader) (options : Options) (text : String) : Report :=
  checkDocumentBy read options (Document.parse text)

/-- The report on a text. -/
def check (options : Options) (text : String) : Report := checkBy readPattern options text

namespace Report

/-- There is no error. -/
def isOk (r : Report) : Bool := r.errors.isEmpty

/-- Some id is on the canvas already. -/
def hasCollision (r : Report) : Bool := r.errors.any (·.code == .collisionExisting)

/-- Something is suggested. -/
def hasSuggestions (r : Report) : Bool := !r.renames.isEmpty || !r.edgeIds.isEmpty

/-- The suggested names in the order of the ids they replace. -/
def sortedRenames (r : Report) : List (String × String) := r.renames.mergeSort fun a b => !(b.1 < a.1)

/-- The errors, phrased for whoever wrote the text, and the suggested names if there is a collision. -/
def feedback (r : Report) : String :=
  "The diagram ids have these problems:\n" ++
  String.join (r.errors.map fun e =>
    "- [" ++ e.code.name ++ "] line " ++ toString e.line ++ ": " ++ e.message ++ "\n") ++
  if r.hasCollision then
    "Collision avoidance is needed: these ids already exist on the canvas.\n" ++
    String.join (r.sortedRenames.map fun (old, new) => "- rename `" ++ old ++ "` to `" ++ new ++ "`\n")
  else "No collision avoidance is needed.\n"

end Report

end Ids

end Whiteboard
