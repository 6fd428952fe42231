import Mathlib.Data.List.GetD
import Mathlib.Data.List.Intervals
import RelationNotation.Diagnostic.Report
import RelationNotation.Proofs.Source.Line
import RelationNotation.Proofs.Tree.Spans

/-!
Reports point at what they are about. The lines that a report shows are cut out of the text by their
numbers, and then numbered once more from the first of them; both counts agree, so each line stands
behind its own number and the carets stand under the place of the diagnostic: `report_points`.
-/

namespace RelationNotation

/-! ### Lines behind their numbers -/

/-- The number of a line, flush right in four columns, and a bar. -/
def linePrefix (number : Nat) : Text :=
  List.leftpad 4 ' ' (toString number).toList ++ " | ".toList

/-- A line of a text behind its number. -/
def numberedLine (t : Text) (number : Nat) : Text :=
  linePrefix number ++ t.lines.getD (number - 1) []

/-- Carets under a line, behind a number of its characters. -/
def carets (line column : Nat) : Text :=
  List.replicate ((linePrefix line).length + column) ' ' ++ "^^^".toList

/-- A line of a text with carets under it, between up to two lines before it and up to two lines
behind it, as far as the text has such lines. -/
def shownLines (t : Text) (line column : Nat) : List Text :=
  (List.Ico (max 1 (line - 2)) line).map (numberedLine t) ++
    [numberedLine t line, carets line column] ++
    (List.Ico (line + 1) (min t.lines.length (line + 2) + 1)).map (numberedLine t)

namespace ReportContext

theorem gutter_natCast (number : Nat) : gutter number = linePrefix number := rfl

theorem caretLine_natCast (line column : Nat) :
    caretLine line (column + 1) = carets line column := by
  have width : ((gutter line).length + ((column : Int) + 1) - 1).toNat =
      (linePrefix line).length + column := by
    rw [gutter_natCast]
    omega
  rw [caretLine, width]
  rfl

variable (t : Text) {line : Nat} {column : Int}

theorem numbered_append (number : Int) (xs ys : List Text) :
    numbered line column number (xs ++ ys) =
      numbered line column number xs ++ numbered line column (number + xs.length) ys := by
  induction xs generalizing number with
  | nil => simp [numbered]
  | cons x xs ih =>
    have next : number + ((x :: xs).length : Int) = number + 1 + xs.length := by
      rw [List.length_cons]
      omega
    rw [List.cons_append, numbered, numbered, ih, next]
    split <;> rfl

theorem numbered_here (x : Text) :
    numbered line column line [x] = [linePrefix line ++ x, caretLine line column] := by
  rw [numbered, if_pos rfl]
  rfl

/-- Lines other than that of the place, from a line of the text on, stand behind their numbers. -/
theorem numbered_apart {first count : Nat} (hpos : 1 ≤ first)
    (hlast : first + count ≤ t.lines.length + 1) (apart : line < first ∨ first + count ≤ line) :
    numbered line column first ((t.lines.drop (first - 1)).take count) =
      (List.range' first count).map (numberedLine t) := by
  induction count generalizing first with
  | zero => rfl
  | succ count ih =>
    have hfirst : first - 1 < t.lines.length := by omega
    have elsewhere : ¬(first : Int) = line := by omega
    have shown : gutter first ++ t.lines[first - 1] = numberedLine t first := by
      rw [numberedLine, List.getD_eq_getElem _ _ hfirst]
      rfl
    have rest := @ih (first + 1) (by omega) (by omega) (by omega)
    rw [List.drop_eq_getElem_cons hfirst, List.take_succ_cons, numbered, if_neg elsewhere, shown,
      List.range'_succ, List.map_cons, ← rest]
    rw [show first + 1 - 1 = first - 1 + 1 by omega]
    rfl

end ReportContext

/-! ### The lines around a line -/

/-- The line and up to two lines before and behind it. -/
def linesAround (t : Text) (line : Nat) : List Text :=
  (t.lines.drop (max 1 (line - 2) - 1)).take (line - max 1 (line - 2)) ++
    [t.lines.getD (line - 1) []] ++
    (t.lines.drop line).take (min t.lines.length (line + 2) - line)

section
variable (t : Text) {line : Nat} (hpos : 1 ≤ line) (hline : line ≤ t.lines.length)
include hpos hline

theorem snippetAround_eq : snippetAround t line = Text.joinLines (linesAround t line) := by
  have first : (max 1 ((line : Int) - 2) - 1).toNat = max 1 (line - 2) - 1 := by omega
  have last : (min (t.lines.length : Int) (line + 2)).toNat = min t.lines.length (line + 2) := by
    omega
  have positive : ¬min (t.lines.length : Int) (line + 2) < 0 := by omega
  have hbefore : line - 1 < t.lines.length := by omega
  have cut : (t.lines.take (min t.lines.length (line + 2))).drop (max 1 (line - 2) - 1) =
      linesAround t line := by
    have hcount : min t.lines.length (line + 2) - (max 1 (line - 2) - 1) =
        line - max 1 (line - 2) + (min t.lines.length (line + 2) - line + 1) := by omega
    have hplace : max 1 (line - 2) - 1 + (line - max 1 (line - 2)) = line - 1 := by omega
    rw [List.drop_take, hcount, List.take_add, List.drop_drop, hplace,
      List.drop_eq_getElem_cons hbefore, List.take_succ_cons, Nat.sub_add_cancel hpos, linesAround,
      List.getD_eq_getElem _ _ hbefore, List.append_assoc]
    rfl
  simp only [snippetAround, first, if_neg positive, last, cut]

theorem linesAround_subset : linesAround t line ⊆ t.lines := by
  have hbefore : line - 1 < t.lines.length := by omega
  intro l hl
  simp only [linesAround, List.mem_append, List.mem_singleton, or_assoc] at hl
  rcases hl with hl | rfl | hl
  · exact List.mem_of_mem_drop (List.mem_of_mem_take hl)
  · rw [List.getD_eq_getElem _ _ hbefore]
    exact List.getElem_mem hbefore
  · exact List.mem_of_mem_drop (List.mem_of_mem_take hl)

/-- Only the text without characters has a snippet without characters. -/
theorem eq_nil_of_snippetAround (h : snippetAround t line = []) : t = [] := by
  have hne : linesAround t line ≠ [] := by simp [linesAround]
  rw [snippetAround_eq t hpos hline] at h
  have single := Text.eq_of_joinLines_eq_nil hne h
  have hlength := congrArg List.length single
  simp only [linesAround, List.length_append, List.length_take, List.length_drop, List.length_cons,
    List.length_nil] at hlength
  have hcount : t.lines.length = 1 := by omega
  obtain ⟨l, hl⟩ := List.length_eq_one_iff.1 hcount
  have hmem : [] ∈ t.lines := linesAround_subset t hpos hline (single ▸ List.mem_singleton_self _)
  rw [hl, List.mem_singleton] at hmem
  rw [← t.joinLines_lines, hl, ← hmem]
  rfl

theorem numbered_linesAround (column : Nat) :
    ReportContext.numbered line (column + 1) (max 1 ((line : Int) - 2)) (linesAround t line) =
      shownLines t line column := by
  have first : max 1 ((line : Int) - 2) = (max 1 (line - 2) : Nat) := by omega
  have above := @ReportContext.numbered_apart t line (column + 1) (max 1 (line - 2))
    (line - max 1 (line - 2)) (by omega) (by omega) (by omega)
  have below := @ReportContext.numbered_apart t line (column + 1) (line + 1)
    (min t.lines.length (line + 2) - line) (by omega) (by omega) (by omega)
  have here := @ReportContext.numbered_here line (column + 1) (t.lines.getD (line - 1) [])
  have reached : ((max 1 (line - 2) : Nat) : Int) +
      ((t.lines.drop (max 1 (line - 2) - 1)).take (line - max 1 (line - 2))).length = line := by
    rw [List.length_take, List.length_drop]
    omega
  have count : min t.lines.length (line + 2) + 1 - (line + 1) =
      min t.lines.length (line + 2) - line := by omega
  rw [Nat.add_sub_cancel] at below
  rw [first, linesAround, List.append_assoc, ReportContext.numbered_append, above, reached,
    ReportContext.numbered_append, here, List.length_singleton, ReportContext.caretLine_natCast,
    shownLines, List.Ico, List.Ico, count, ← below, numberedLine, List.append_assoc]
  rfl

end

/-! ### Reports -/

theorem diagnostics_nil (options : ParserOptions) :
    (parseDocument [] options).diagnostics = [] := by
  have hscan : scan [] = [.endOfInput .start] := by rw [scan, scanFrom]
  rw [diagnostics_eq_inOrder, Diagnostic.inOrder_eq_nil_iff, lexicalDiagnostics,
    grammaticalDiagnostics, startOf, hscan]
  rfl

/-- With a snippet that is not empty, every line of the snippet is shown below the place. -/
theorem ReportContext.toText_of_snippet (file : Option Path) (line column : Int) {t : Text}
    (h : t ≠ []) : toText ⟨file, line, column, some t⟩ = location ⟨file, line, column, some t⟩ ++
      '\n' :: Text.joinLines (numbered line column (max 1 (line - 2)) t.lines) := by
  unfold toText snippetText
  cases t with
  | nil => exact absurd rfl h
  | cons c t => rfl

/-- The place of a report. -/
def reportPlace (file : Option Path) (line column : Nat) : Text :=
  (file.map Path.toText).getD "<input>".toList ++ ':' :: (toString line).toList ++
    ':' :: (toString column).toList

/-- A diagnostic is on a line of the text. Its report names the place, shows that line and up to two
lines before and behind it, each behind its number, and ends with the message. The carets are right
under the line and start as far behind the number as the diagnostic does behind the line's start. -/
theorem report_points (source : Text) (options : ParserOptions) (file : Option Path) :
    ∀ d ∈ (parseDocument source options).diagnostics, ∃ line column : Nat,
      d.span.start.line = line ∧ 1 ≤ line ∧ line ≤ source.lines.length ∧
        d.span.start.offset = source.lineStart line + column ∧
        column ≤ (source.lines.getD (line - 1) []).length ∧
        d.report (some source) file = Text.joinLines
          (reportPlace file line (column + 1) :: (shownLines source line column ++
            [d.kind.text.toList ++ ": ".toList ++ d.message.toList])) := by
  intro d hd
  obtain ⟨line, column, on⟩ := (placed_diagnostics source options d hd).1.on_line
  refine ⟨line, column, on.line_eq, on.pos, on.le, on.offset_eq, on.within, ?_⟩
  have shown : snippetAround source line ≠ [] := by
    intro h
    obtain rfl := eq_nil_of_snippetAround source on.pos on.le h
    rw [diagnostics_nil] at hd
    exact List.not_mem_nil hd
  have further : linesAround source line ≠ [] := by simp [linesAround]
  have cut : (snippetAround source line).lines = linesAround source line := by
    rw [snippetAround_eq source on.pos on.le]
    exact Text.lines_joinLines further fun l hl =>
      Text.newline_notMem_of_mem_lines (linesAround_subset source on.pos on.le hl)
  have nonempty : shownLines source line column ≠ [] := by simp [shownLines]
  have place : ReportContext.location
      ⟨file, line, column + 1, some (snippetAround source line)⟩ =
        reportPlace file line (column + 1) := rfl
  have message : (d.kind.text ++ ": " ++ d.message).toList =
      d.kind.text.toList ++ ": ".toList ++ d.message.toList := by
    simp only [String.toList_append]
  rw [Diagnostic.report, on.line_eq, on.column_eq, Option.map_some, report,
    ReportContext.toText_of_snippet file line (column + 1) shown, cut, place, message,
    numbered_linesAround source on.pos on.le, Text.joinLines_cons_of_ne_nil _ (by simp),
    Text.joinLines_concat nonempty, List.append_assoc, List.cons_append]

/-- What is missing at the end of a text is reported on the empty line behind the last newline. -/
theorem report_points_behind_last_newline :
    let text : Text := "[a\n\n".toList
    let d : Diagnostic :=
      ⟨.grammatical, "Expected ']', got end of input", ⟨⟨4, 3, 1⟩, ⟨4, 3, 1⟩⟩, ["]"]⟩
    d ∈ (parseDocument text).diagnostics ∧ text.lines.length = 3 ∧ text.lineStart 3 = 4 ∧
      d.report (some text) none = Text.joinLines ["<input>:3:1".toList, "   1 | [a".toList,
        "   2 | ".toList, "   3 | ".toList, "       ^^^".toList,
        "SyntaxError: Expected ']', got end of input".toList] := by
  intro text d
  have hd : d ∈ (parseDocument text).diagnostics := by decide +kernel
  obtain ⟨line, column, hline, -, -, hoffset, -, hreport⟩ := report_points text {} none d hd
  obtain rfl : line = 3 := (Int.ofNat.inj hline).symm
  have hstart : text.lineStart 3 = 4 := by decide +kernel
  have hcolumn : column = 0 := by
    have offset : d.span.start.offset = 4 := rfl
    rw [hstart, offset] at hoffset
    omega
  rw [hcolumn] at hreport
  exact ⟨hd, by decide +kernel, hstart, hreport.trans (by decide +kernel)⟩

end RelationNotation
