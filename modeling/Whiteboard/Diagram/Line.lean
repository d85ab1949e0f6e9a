import Whiteboard.Diagram.Printer
import Whiteboard.Text.Lines

/-!
# Lines of diagram text

`Line.classify` sorts a line by its first word, and `Body.ofText` takes the lines of a text out of the fenced block that
may wrap them. Line numbers always count the lines of the whole text, from one.
-/

namespace Whiteboard

open Text

/-- The second keyword that may begin a header line. -/
def graphKeyword : String := "graph"

/-- Kinds of diagrams that are recognized in a header line but cannot be drawn. -/
def otherDiagramKinds : List String := [
  "sequenceDiagram", "classDiagram", "classDiagram-v2", "stateDiagram", "stateDiagram-v2", "erDiagram", "gantt", "pie",
  "journey", "gitGraph", "mindmap", "timeline", "quadrantChart", "requirementDiagram", "sankey-beta", "xychart-beta",
  "block-beta", "C4Context", "C4Container", "C4Component"]

/-- First words of styling, interaction and accessibility lines, which carry no structure. -/
def directiveKeywords : List String :=
  ["classDef", "class", "style", "linkStyle", "click", "callback", "accTitle", "accDescr"]

/-- What a line of diagram text is, by its first word. -/
inductive Line where
  | blank
  | comment
  | fence
  | header (keyword : String) (direction? : Option String)
  | groupOpen (title : List Char)
  | groupClose
  | direction (token : String)
  | directive (keyword : String)
  | statement (text : List Char)
  deriving DecidableEq, Repr

namespace Line

/-- The mark that begins a comment. -/
def commentMark : List Char := "%%".toList

/-- The mark that begins a fence. -/
def fenceMark : List Char := "```".toList

/-- A word ends at a blank or at a semicolon. -/
def isWordEnd (c : Char) : Bool := isBlank c || c == ';'

/-- The characters up to the first blank or semicolon. -/
def firstWord (s : List Char) : List Char := s.takeWhile (!isWordEnd ·)

/-- What follows the first word, without blanks around it and semicolons behind it. -/
def afterFirstWord (s : List Char) : List Char :=
  trim (dropEndWhile (· == ';') (trim (s.drop (firstWord s).length)))

/-- Whether a keyword begins a header line, of whatever kind of diagram. -/
def isHeaderKeyword (word : String) : Bool :=
  word == headerKeyword || word == graphKeyword || otherDiagramKinds.contains word

/-- Whether a keyword begins the header line of a flowchart. -/
def isFlowchartKeyword (word : String) : Bool := word == headerKeyword || word == graphKeyword

/-- The line with the given first word and rest; `text` is the whole line without blanks around it. -/
def ofFirstWord (word : String) (rest text : List Char) : Line :=
  if word == groupCloseLine && rest.isEmpty then .groupClose
  else if word == "subgraph" then .groupOpen rest
  else if word == "direction" then .direction (String.ofList rest)
  else if isHeaderKeyword word then
    let token := firstWord rest
    .header word (if token.isEmpty then none else some (String.ofList token))
  else if directiveKeywords.contains word then .directive word
  else .statement (dropEndWhile (· == ';') text)

/-- What a line is: blank, a comment, a fence, or what its first word says. -/
def classify (raw : List Char) : Line :=
  let text := trim raw
  if text.isEmpty then .blank
  else if commentMark.isPrefixOf text then .comment
  else if fenceMark.isPrefixOf text then .fence
  else ofFirstWord (String.ofList (firstWord text)) (afterFirstWord text) text

end Line

/-- A line with its number in the whole text, counted from one. -/
structure NumberedLine where
  number : Nat
  text : List Char
  deriving DecidableEq, Repr

/-- Whether a line is a fence. -/
def NumberedLine.isFence (line : NumberedLine) : Bool := Line.fenceMark.isPrefixOf (trimStart line.text)

/-- Whether a line has no character but blanks. -/
def NumberedLine.isBlank (line : NumberedLine) : Bool := (trim line.text).isEmpty

/-- The lines of a text with their numbers. -/
def numberedLines (text : List Char) : List NumberedLine :=
  (lines text).mapIdx fun i line => ⟨i + 1, line⟩

/-- A text after its fences are dealt with. -/
structure Body where
  /-- The lines that hold the diagram. -/
  lines : List NumberedLine
  /-- Numbers of the fence lines that do not form one wrapping pair. -/
  strayFences : List Nat := []
  /-- Numbers of the lines outside the wrapping pair that are not blank. -/
  outside : List Nat := []
  deriving DecidableEq, Repr

/-- The body of a text: without fences it is the whole text, with exactly two fences it is what stands between them, and
with any other number every fence is stray and the other lines remain. -/
def Body.ofText (text : List Char) : Body :=
  let all := numberedLines text
  match (all.filter (·.isFence)).map (·.number) with
  | [] => ⟨all, [], []⟩
  | [first, last] =>
    { lines := all.filter fun l => first < l.number && l.number < last
      outside := (all.filter fun l => (l.number < first || last < l.number) && !l.isBlank).map (·.number) }
  | fences =>
    { lines := all.filter (!·.isFence)
      strayFences := fences }

end Whiteboard
