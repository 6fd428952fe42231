import RelationNotation.Diagnostic.Basic
import RelationNotation.Path.Basic
import RelationNotation.Text.Numeral

/-!
Reports: a message under the place it is about, with the lines around the place and three carets
under the place itself.
-/

namespace RelationNotation

/-- The lines of a text around a line, up to a number of lines before and behind it. A last line
before the first line of the text counts from the end of the text. -/
def snippetAround (t : Text) (line : Int) (radius : Int := 2) : Text :=
  let lines := t.lines
  let count : Int := lines.length
  let first := max 1 (line - radius)
  let last := min count (line + radius)
  let stop := if last < 0 then last + count else last
  Text.joinLines ((lines.take stop.toNat).drop (first - 1).toNat)

/-- A place that a report points at. -/
structure ReportContext where
  file : Option Path
  line : Int
  column : Int
  /-- The lines from two before the place to two behind it, as far as there are such lines. -/
  snippet : Option Text
  deriving DecidableEq

namespace ReportContext

def gutter (line : Int) : Text := Text.flushRight 4 (Text.ofInt line) ++ [' ', '|', ' ']

def caretLine (line column : Int) : Text :=
  List.replicate (((gutter line).length : Int) + column - 1).toNat ' ' ++ ['^', '^', '^']

/-- Source lines behind their numbers, the first of which is given, with carets under the place. -/
def numbered (line column : Int) (number : Int) : List Text → List Text
  | [] => []
  | l :: ls =>
    let shown := gutter number ++ l
    if number = line then shown :: caretLine line column :: numbered line column (number + 1) ls
    else shown :: numbered line column (number + 1) ls

/-- The snippet of a place as it is shown; a missing or empty one is shown as nothing. -/
def snippetText (c : ReportContext) : Text :=
  match c.snippet with
  | none | some [] => []
  | some t => Text.joinLines (numbered c.line c.column (max 1 (c.line - 2)) t.lines)

def location (c : ReportContext) : Text :=
  ((c.file.map Path.toText).getD "<input>".toList) ++ ':' :: Text.ofInt c.line ++
    ':' :: Text.ofInt c.column

def toText (c : ReportContext) : Text :=
  match c.snippet with
  | none | some [] => c.location
  | some _ => c.location ++ '\n' :: c.snippetText

end ReportContext

def report (context : Option ReportContext) (message : Text) : Text :=
  match context with
  | none => message
  | some c => c.toText ++ '\n' :: message

/-- A diagnostic with its place in a file and, if the source is given, the lines around it. -/
def Diagnostic.report (d : Diagnostic) (source : Option Text) (file : Option Path) : Text :=
  let line := d.span.start.line
  RelationNotation.report
    (some ⟨file, line, d.span.start.column, source.map fun t => snippetAround t line⟩)
    (d.kind.text ++ ": " ++ d.message).toList

end RelationNotation
