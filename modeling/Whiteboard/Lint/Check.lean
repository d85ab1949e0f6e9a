import Whiteboard.Diagram.Document
import Whiteboard.Lint.Fault
import Whiteboard.Text.Keyword

/-!
# Linting diagram text

Every check runs on its own and adds to the report; nothing cuts the others short. Keywords are looked for on every line
of the text, fences and prose included; all other checks read the body.
-/

namespace Whiteboard.Lint

open Text

/-- Keywords that are not allowed unless the options say otherwise. -/
def defaultForbidden : List String := [
  "sequenceDiagram", "classDiagram", "stateDiagram", "stateDiagram-v2", "erDiagram", "gantt", "pie", "journey",
  "gitGraph", "mindmap", "timeline", "quadrantChart", "requirementDiagram", "C4Context",
  "classDef", "class", "style", "linkStyle", ":::",
  "click", "callback", "href",
  "accTitle", "accDescr"]

/-- Keywords that are objected to twice. -/
def entityOrGanttKeywords : List String := ["erDiagram", "gantt"]

/-- The greatest numbers of nodes and edges. -/
structure Limits where
  nodes : Nat
  edges : Nat
  deriving DecidableEq, Repr

/-- What the linter looks for. -/
structure Options where
  forbidden : List String := defaultForbidden
  limits? : Option Limits := none
  /-- The direction that hints propose. -/
  direction : Direction := .topDown
  deriving DecidableEq, Repr

/-- A violation that concerns a whole line. -/
def atLine (line : Nat) (fault : Fault) : Violation := ⟨fault, some ⟨line, none⟩⟩

/-- A violation at a column of a line. -/
def atColumn (line column : Nat) (fault : Fault) : Violation := ⟨fault, some ⟨line, some column⟩⟩

/-- What is wrong with the header: the first line that is not blank has to be one with a direction. -/
def headerViolations (suggested : Direction) (body : Body) : List Violation :=
  match body.lines.find? (!·.isBlank) with
  | none => [⟨.emptyText suggested, none⟩]
  | some line =>
    match Line.classify line.text with
    | .header keyword direction? =>
      if Line.isFlowchartKeyword keyword then
        match direction? with
        | none => [atLine line.number (.headerWithoutDirection suggested)]
        | some token =>
          if (Direction.ofToken? token).isNone then [atLine line.number (.unknownDirection token)] else []
      else [atLine line.number (.otherKind keyword suggested)]
    | _ => [atLine line.number (.noHeader suggested)]

/-- What one keyword draws on one line. -/
def keywordViolations (line : NumberedLine) (keyword : String) : List Violation :=
  match Keyword.find? keyword.toList line.text with
  | none => []
  | some passed =>
    atColumn line.number (passed + 1) (.forbidden keyword) ::
    if entityOrGanttKeywords.contains keyword then [atColumn line.number (passed + 1) (.entityOrGantt keyword)] else []

/-- The forbidden keywords on every line of the whole text; an empty keyword occurs nowhere. -/
def forbiddenViolations (forbidden : List String) (text : List Char) : List Violation :=
  (numberedLines text).flatMap fun line => (forbidden.filter (· != "")).flatMap (keywordViolations line)

/-- What is wrong with a text that is no statement. -/
def faultOfStatement (text : List Char) : StatementFault → Fault
  | .unknownBracket opener | .unclosedBracket opener => .badBracket opener
  | .nodeExpected => if text.contains '&' then .loneAmpersand else .notAStatement (String.ofList text)
  | .unexpected rest => .trailingText rest

/-- What is wrong with the label of a reference. -/
def labelFaults (ref : NodeRef) : List Fault :=
  match ref.span? with
  | none => []
  | some span =>
    let length := (Label.decode span.label).length
    (if !span.quoted && span.label.contains '|' then [.barePipe ref.id] else []) ++
    (if span.label.contains '\x60' then [.backticks ref.id] else []) ++
    (if length > longestQuietLabel then [.longLabel ref.id length] else [])

/-- Whether a text begins with exactly one blank, and that a space. -/
def beginsWithOneSpace : List Char → Bool
  | ' ' :: rest => !rest.head?.any isBlank
  | _ => false

/-- Whether the `&` at a column of a statement has exactly one space on each side. -/
def isSpacedAmpersand (text : List Char) (column : Nat) : Bool :=
  beginsWithOneSpace (text.take (column - 1)).reverse && beginsWithOneSpace (text.drop column)

/-- What is wrong with a statement; columns are counted in its line, in which `indent` characters stand before it. -/
def statementViolations (line indent : Nat) (text : List Char) : List Violation :=
  match Statement.parse text with
  | .error e => [atColumn line (indent + e.column) (faultOfStatement text e.fault)]
  | .ok statement =>
    statement.refs.flatMap (fun ref => (labelFaults ref).map (atColumn line (indent + ref.column))) ++
    if statement.links.isEmpty then []
    else (statement.ampersands.filter (!isSpacedAmpersand text ·)).map fun column =>
      atColumn line (indent + column) .crampedAmpersand

/-- What is wrong with the statements of a body. -/
def statementsViolations (body : Body) : List Violation :=
  body.lines.flatMap fun line =>
    match Line.classify line.text with
    | .statement text => statementViolations line.number (line.text.takeWhile isBlank).length text
    | _ => []

/-- What is wrong with the groups of the lines, given the lines of the groups that are open, the innermost first. -/
def groupViolations (opened : List Nat) : List NumberedLine → List Violation
  | [] => opened.reverse.map (atLine · .groupNotClosed)
  | line :: rest =>
    match Line.classify line.text with
    | .groupOpen title =>
      (if title.isEmpty then [atLine line.number .groupWithoutName] else []) ++
      groupViolations (line.number :: opened) rest
    | .groupClose =>
      (if opened.isEmpty then [atLine line.number .groupNotOpen] else []) ++ groupViolations opened.tail rest
    | .direction token =>
      (if (Direction.ofToken? token).isNone then [atLine line.number (.unknownGroupDirection token)] else []) ++
      groupViolations opened rest
    | _ => groupViolations opened rest

/-- The counts of a document that are over a limit. -/
def sizeViolations (limits : Limits) (doc : Document) : List Violation :=
  (if doc.nodes.length > limits.nodes then [⟨.tooManyNodes doc.nodes.length limits.nodes, none⟩] else []) ++
  (if doc.edges.length > limits.edges then [⟨.tooManyEdges doc.edges.length limits.edges, none⟩] else [])

/-- Stray fences and text outside the fenced block. -/
def extraTextViolations (body : Body) : List Violation :=
  body.strayFences.map (atLine · .strayFence) ++
  match body.outside with
  | [] => []
  | first :: _ => [atLine first (.textOutside body.outside.length)]

/-- Everything the linter objects to in a text, in the order of the checks. -/
def violations (options : Options) (text : String) : List Violation :=
  let body := Body.ofText text.toList
  headerViolations options.direction body ++
  forbiddenViolations options.forbidden text.toList ++
  statementsViolations body ++
  groupViolations [] body.lines ++
  options.limits?.elim [] (sizeViolations · (Document.ofLines body.lines)) ++
  extraTextViolations body

end Whiteboard.Lint
