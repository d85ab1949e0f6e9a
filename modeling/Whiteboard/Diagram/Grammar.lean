import Whiteboard.Diagram.Document

/-!
# The strict grammar

`checkSyntax` is the last gate before a diagram is accepted: every line has to belong to the grammar, where
`Document.parse` would pass over it.
-/

namespace Whiteboard

open Text

/-- What is wrong with a line. -/
inductive SyntaxFault where
  | outsideFence
  | headerWithoutDirection
  | headerExpected
  | headerMissing
  | headerRepeated
  | strayFence
  | directive (keyword : String)
  | groupWithoutName
  | groupNotOpen
  | groupNotClosed
  | badGroupDirection (token : String)
  | badStatement (error : StatementError)
  | unsupportedArrow (column : Nat)
  | unquotedPipe (label : String)
  /-- A fault that some other check reports, in its own words. -/
  | reported (message : String)
  deriving DecidableEq, Repr

/-- What is said of a text that is not a statement. -/
def StatementFault.message : StatementFault → String
  | unknownBracket opener => "unsupported shape bracket `" ++ opener ++ "`"
  | unclosedBracket opener => "unclosed shape `" ++ opener ++ "`"
  | nodeExpected => "expected node identifier"
  | unexpected rest => "unexpected `" ++ rest ++ "`"

/-- What is said of a fault. -/
def SyntaxFault.message : SyntaxFault → String
  | outsideFence => "content outside a single fenced block"
  | headerWithoutDirection => "header needs a direction of TD, LR, BT or RL"
  | headerExpected => "expected `flowchart <direction>` header"
  | headerMissing => "missing header"
  | headerRepeated => "duplicate header"
  | strayFence => "unexpected fence"
  | directive keyword => "`" ++ keyword ++ "` is not supported"
  | groupWithoutName => "subgraph needs a name"
  | groupNotOpen => "`end` without open subgraph"
  | groupNotClosed => "unclosed subgraph"
  | badGroupDirection token => "invalid direction `" ++ token ++ "`"
  | badStatement error => "column " ++ toString error.column ++ ": " ++ error.fault.message
  | unsupportedArrow column => "column " ++ toString column ++ ": only `-->` and `-.->` arrows are supported"
  | unquotedPipe label => "unquoted label `" ++ label ++ "` contains `|`"
  | reported message => message

/-- A fault and the number of its line. -/
structure SyntaxError where
  line : Nat
  fault : SyntaxFault
  deriving DecidableEq, Repr

/-- What is said of an error. -/
def SyntaxError.message (e : SyntaxError) : String := "line " ++ toString e.line ++ ": " ++ e.fault.message

/-- A label without quotes that holds a pipe. -/
def ShapeSpan.hasBarePipe (span : ShapeSpan) : Bool := !span.quoted && span.label.contains '|'

/-- The first thing wrong with a statement: that it is none, an arrow of another style, or a bare pipe in a label. -/
def Statement.check (text : List Char) : Except SyntaxFault Unit :=
  match Statement.parse text with
  | .error e => .error (.badStatement e)
  | .ok statement =>
    match statement.links.find? (·.arrow == .other) with
    | some link => .error (.unsupportedArrow link.column)
    | none =>
      match (statement.refs.filterMap (·.span?)).find? (·.hasBarePipe) with
      | some span => .error (.unquotedPipe span.label)
      | none => .ok ()

/-- What has been read of a text that is right so far. -/
inductive Progress where
  | beforeHeader
  /-- The header has been read and as many groups are open. -/
  | inBody (openGroups : Nat)
  deriving DecidableEq, Repr

/-- Checking one more line. -/
def Progress.step (progress : Progress) (raw : List Char) : Except SyntaxFault Progress :=
  match progress, Line.classify raw with
  | progress, .blank => .ok progress
  | .beforeHeader, .header keyword direction? =>
    if !Line.isFlowchartKeyword keyword then .error .headerExpected
    else if (direction?.bind Direction.ofToken?).isNone then .error .headerWithoutDirection
    else .ok (.inBody 0)
  | .beforeHeader, _ => .error .headerExpected
  | .inBody n, .comment => .ok (.inBody n)
  | .inBody _, .fence => .error .strayFence
  | .inBody _, .header _ _ => .error .headerRepeated
  | .inBody _, .directive keyword => .error (.directive keyword)
  | .inBody n, .groupOpen title => if title.isEmpty then .error .groupWithoutName else .ok (.inBody (n + 1))
  | .inBody 0, .groupClose => .error .groupNotOpen
  | .inBody (n + 1), .groupClose => .ok (.inBody n)
  | .inBody n, .direction token =>
    if n = 0 || (Direction.ofToken? token).isNone then .error (.badGroupDirection token) else .ok (.inBody n)
  | .inBody n, .statement text => (Statement.check text).map fun _ => .inBody n

/-- Checking the lines of a body, from a state that has been reached, up to its end; `last` is the number of the line
before them. -/
def Progress.run (progress : Progress) (last : Nat) : List NumberedLine → Except SyntaxError Unit
  | [] =>
    match progress with
    | .beforeHeader => .error ⟨max last 1, .headerMissing⟩
    | .inBody 0 => .ok ()
    | .inBody (_ + 1) => .error ⟨last, .groupNotClosed⟩
  | line :: rest =>
    match progress.step line.text with
    | .error fault => .error ⟨line.number, fault⟩
    | .ok next => next.run line.number rest

/-- Whether every line of a text belongs to the grammar; otherwise the first error. -/
def checkSyntax (text : String) : Except SyntaxError Unit :=
  let body := Body.ofText text.toList
  match body.strayFences.head?.or body.outside.head? with
  | some line => .error ⟨line, .outsideFence⟩
  | none => Progress.beforeHeader.run 0 body.lines

end Whiteboard
