import Whiteboard.Diagram.Printer

/-!
# What the linter objects to

Each `Lint.Fault` has a code, a severity, a sentence that describes it and often a hint how to mend it. Warnings never
block acceptance.
-/

namespace Whiteboard.Lint

/-- A class of faults. -/
inductive Code where
  | missingHeader
  | nonFlowchart
  | badDirection
  | forbiddenFeature
  | erOrGantt
  | badShape
  | unescapedPipe
  | badLabel
  | subgraphBlock
  | inlineLinkSyntax
  | sizeCap
  | extraText
  deriving DecidableEq, Repr

/-- The name of a code in a report. -/
def Code.name : Code → String
  | missingHeader => "MISSING_HEADER"
  | nonFlowchart => "NON_FLOWCHART"
  | badDirection => "BAD_DIRECTION"
  | forbiddenFeature => "FORBIDDEN_FEATURE"
  | erOrGantt => "ER_OR_GANTT"
  | badShape => "BAD_SHAPE"
  | unescapedPipe => "UNESCAPED_PIPE"
  | badLabel => "BAD_LABEL"
  | subgraphBlock => "SUBGRAPH_BLOCK"
  | inlineLinkSyntax => "INLINE_LINK_SYNTAX"
  | sizeCap => "SIZE_CAP"
  | extraText => "EXTRA_TEXT"

/-- An error blocks acceptance, a warning does not. -/
inductive Severity where
  | error
  | warning
  deriving DecidableEq, Repr

/-- The name of a severity in a report. -/
def Severity.name : Severity → String
  | error => "error"
  | warning => "warn"

/-- Something the linter objects to. Where a header is at fault, `suggested` is the direction to propose. -/
inductive Fault where
  | emptyText (suggested : Direction)
  | headerWithoutDirection (suggested : Direction)
  | unknownDirection (token : String)
  | otherKind (keyword : String) (suggested : Direction)
  | noHeader (suggested : Direction)
  | forbidden (keyword : String)
  | entityOrGantt (keyword : String)
  | badBracket (opener : String)
  | loneAmpersand
  | notAStatement (text : String)
  | trailingText (rest : String)
  | barePipe (id : String)
  | backticks (id : String)
  | longLabel (id : String) (length : Nat)
  | crampedAmpersand
  | groupWithoutName
  | groupNotOpen
  | groupNotClosed
  | unknownGroupDirection (token : String)
  | tooManyNodes (count limit : Nat)
  | tooManyEdges (count limit : Nat)
  | strayFence
  | textOutside (lines : Nat)
  deriving DecidableEq, Repr

/-- A label of at most this many characters draws no warning. -/
def longestQuietLabel : Nat := 60

namespace Fault

/-- The class of a fault. -/
def code : Fault → Code
  | emptyText _ | noHeader _ => .missingHeader
  | headerWithoutDirection _ | unknownDirection _ | unknownGroupDirection _ => .badDirection
  | otherKind _ _ => .nonFlowchart
  | forbidden _ => .forbiddenFeature
  | entityOrGantt _ => .erOrGantt
  | badBracket _ => .badShape
  | loneAmpersand | crampedAmpersand => .inlineLinkSyntax
  | notAStatement _ | trailingText _ | strayFence | textOutside _ => .extraText
  | barePipe _ => .unescapedPipe
  | backticks _ | longLabel _ _ => .badLabel
  | groupWithoutName | groupNotOpen | groupNotClosed => .subgraphBlock
  | tooManyNodes _ _ | tooManyEdges _ _ => .sizeCap

/-- How much a fault matters. -/
def severity : Fault → Severity
  | backticks _ | longLabel _ _ | tooManyNodes _ _ | tooManyEdges _ _ => .warning
  | _ => .error

/-- A text between backticks. -/
def quoted (text : String) : String := "`" ++ text ++ "`"

/-- The sentence that describes a fault. -/
def message : Fault → String
  | emptyText _ => "diagram text is empty"
  | headerWithoutDirection _ => "header has no direction"
  | unknownDirection token => "unsupported direction " ++ quoted token
  | otherKind keyword _ => quoted keyword ++ " diagrams are not supported"
  | noHeader _ => "first line is not a diagram header"
  | forbidden keyword => quoted keyword ++ " is not allowed"
  | entityOrGantt keyword => quoted keyword ++ " diagrams cannot be drawn here"
  | badBracket opener => "unsupported or unclosed shape bracket " ++ quoted opener
  | loneAmpersand => "`&` must join two node ids"
  | notAStatement text => quoted text ++ " is not a node or edge statement"
  | trailingText rest => "unexpected " ++ quoted rest ++ " after a node"
  | barePipe id => "label of " ++ quoted id ++ " contains `|`"
  | backticks id => "label of " ++ quoted id ++ " contains backticks"
  | longLabel id length => "label of " ++ quoted id ++ " is " ++ toString length ++ " characters"
  | crampedAmpersand => "multi-target `&` must be written as ` & `"
  | groupWithoutName => "subgraph has no name"
  | groupNotOpen => "`end` without a subgraph"
  | groupNotClosed => "subgraph is never closed"
  | unknownGroupDirection token => "unsupported group direction " ++ quoted token
  | tooManyNodes count limit => toString count ++ " nodes exceeds the limit of " ++ toString limit
  | tooManyEdges count limit => toString count ++ " edges exceeds the limit of " ++ toString limit
  | strayFence => "stray code fence"
  | textOutside lines => toString lines ++ " line(s) of text outside the diagram block"

/-- How to mend a fault. -/
def hint? : Fault → Option String
  | emptyText suggested | noHeader suggested => some ("start with " ++ quoted (headerLine suggested))
  | headerWithoutDirection suggested => some ("use " ++ quoted (headerLine suggested))
  | unknownDirection _ | unknownGroupDirection _ => some "use one of TD, LR, BT, RL"
  | otherKind _ suggested => some ("rewrite as a flowchart starting with " ++ quoted (headerLine suggested))
  | forbidden _ => some "remove it; only plain nodes, edges and subgraphs are supported"
  | entityOrGantt _ => some "model the entities or tasks as flowchart nodes"
  | badBracket _ =>
    some "use [\"…\"], (\"…\"), ([\"…\"]), \x7b\"…\"\x7d, ((\"…\")) or \x7b\x7b\"…\"\x7d\x7d"
  | loneAmpersand | crampedAmpersand => some "write `a & b --> c`"
  | notAStatement _ | strayFence | textOutside _ => some "return only the diagram text"
  | trailingText _ => some "write one statement per line using `-->` or `-.->`"
  | barePipe _ => some "wrap the label in double quotes"
  | backticks _ => none
  | longLabel _ _ => some ("keep labels under " ++ toString longestQuietLabel ++ " characters")
  | groupWithoutName => some "write `subgraph id[\"Label\"]`"
  | groupNotOpen => some "remove the stray `end`"
  | groupNotClosed => some "add a matching `end`"
  | tooManyNodes _ _ | tooManyEdges _ _ => none

end Fault

/-- A place in a text: a line, and a column where one is known, both counted from one. -/
structure Location where
  line : Nat
  column? : Option Nat := none
  deriving DecidableEq, Repr

/-- A fault and where it was found. -/
structure Violation where
  fault : Fault
  location? : Option Location := none
  deriving DecidableEq, Repr

/-- The violation blocks acceptance. -/
def Violation.isError (v : Violation) : Bool := v.fault.severity == .error

end Whiteboard.Lint
