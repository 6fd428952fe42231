import RelationNotation.Proofs.Canonical.Expressible
import RelationNotation.Proofs.Canonical.RoundTrip
import RelationNotation.Proofs.Diagnostic.Completeness

/-!
Documents written and read. The canonical text of a well-formed document, which need not have been
read from any text, is read as that document, and nothing is found wrong with it:
`Document.read_canonical`.
-/

namespace RelationNotation

open Token Cursor

/-- A statement whose canonical text spells it wherever the line ends behind the text. -/
def Statement.Writable (levels : Nat) (x : Statement) : Prop :=
  ∃ ts, Rewrites (Statement.SpelledBy levels) (Statement.mapOrigins .bare ()) Breaks x x.canonical ts

theorem Statement.writable {levels : Nat} {x : Statement} (h : x.isWellFormed)
    (shallow : x.nesting ≤ levels) : x.Writable levels := by
  obtain ⟨ts, y, setOut, spelled, erased⟩ := Statement.expressible h shallow
  obtain ⟨clean, again⟩ := statement_rewrites spelled setOut.fitting
  have same : y.canonical = x.canonical := by
    rw [← Statement.canonical_mapOrigins .bare () y, erased, Statement.canonical_mapOrigins]
  refine ⟨ts, clean, ?_⟩
  intro p v hv
  obtain ⟨us, z, written, hz, erased'⟩ := again p v hv
  rw [same] at written
  exact ⟨us, z, written, hz, erased'.trans erased⟩

section
variable {levels : Nat} {xs : List Statement}

/-- Lines of writable statements are scanned without errors. -/
theorem errors_of_writable (h : ∀ x ∈ xs, x.Writable levels) (p : Position) :
    errors (scanFrom {} p (Text.joinLines (xs.map (·.canonical)))) = [] := by
  induction xs generalizing p with
  | nil => simp [Text.joinLines, scanFrom, errors, endOfInput]
  | cons x xs ih =>
    obtain ⟨⟨ts, clean, again⟩, further⟩ := List.forall_mem_cons.1 h
    obtain ⟨us, y, written, -, -⟩ := again p (Session.furtherLines (xs.map (·.canonical)))
      (Session.breaks_furtherLines _)
    -- The line leaves the scanner as it was at the start, so the induction goes on behind it.
    rw [List.map_cons, Session.joinLines_cons, written.errors, clean]
    cases xs with
    | nil => simp [Session.furtherLines, scanFrom, errors, endOfInput]
    | cons z zs =>
      rw [List.map_cons, Session.furtherLines, errors_behind_blank _ _ isBlank_newline]
      exact ih further _

/-- A session over lines of writable statements reads these statements, and finds nothing wrong. -/
theorem Session.statements_of_writable {s : Session} {u : Text} (hlevels : s.nesting.levels = levels)
    (h : ∀ x ∈ xs, x.Writable levels)
    (hs : s.Reads u (Text.joinLines (xs.map (·.canonical)))) :
    s.statements.1.map (·.mapOrigins .bare ()) = xs.map (·.mapOrigins .bare ()) ∧
      s.statements.2.diagnostics = s.diagnostics := by
  induction xs generalizing s u with
  | nil =>
    have hup := hs.upcoming
    rw [show Text.joinLines (([] : List Statement).map (·.canonical)) = [] from rfl,
      significantFrom_nil] at hup
    have ha : s.cursor.ahead = [] := (List.append_eq_singleton_iff.1 hup).elim And.left
      fun h => absurd h.2 (List.cons_ne_nil _ _)
    rw [statements_of_nil ha]
    exact ⟨rfl, rfl⟩
  | cons x xs ih =>
    obtain ⟨⟨ts, clean, again⟩, further⟩ := List.forall_mem_cons.1 h
    rw [List.map_cons, joinLines_cons] at hs
    obtain ⟨us, y, written, spelled, erased⟩ := again (Position.start.after u)
      (furtherLines (xs.map (·.canonical))) (breaks_furtherLines _)
    rw [← hlevels] at spelled
    obtain ⟨d, pass, step, there⟩ := statement_of_written hs clean written spelled
    obtain ⟨w, there⟩ := there.furtherLines
    obtain ⟨hstatements, hdiagnostics⟩ := ih (s := { s with cursor := d }) hlevels further there
    have ha : s.cursor.ahead ≠ [] := by
      rw [pass.ahead]
      exact List.append_ne_nil_of_left_ne_nil spelled.ne_nil _
    rw [statements_of_ahead hs.endsOnce ha, step, List.map_cons, List.map_cons, erased, hstatements]
    exact ⟨rfl, hdiagnostics⟩

end

/-- A well-formed document that nests no deeper than the limit allows is read from its canonical
text, positions and trivia aside, and nothing is found wrong with the text. -/
theorem Document.read_canonical (d : Document) (options : ParserOptions) (formed : d.isWellFormed)
    (shallow : d.nesting ≤ options.maxDepth.toNat) :
    (parseDocument d.canonical options).diagnostics = [] ∧
      (parseDocument d.canonical options).document.bare = d.bare := by
  have writable : ∀ x ∈ d.statements, x.Writable options.maxDepth.toNat := by
    intro x hx
    exact Statement.writable (List.all_eq_true.1 formed x hx) (Document.nesting_le_iff.1 shallow x hx)
  have levels : (startOf d.canonical options.maxDepth).nesting.levels = options.maxDepth.toNat := by
    simp [startOf, Session.start, Nesting.levels]
  obtain ⟨statements, diagnostics⟩ :=
    Session.statements_of_writable levels writable (reads_startOf d.canonical options.maxDepth)
  have lexical : lexicalDiagnostics d.canonical = [] :=
    (nil_iff_of_forall₂ (lexicalDiagnostics_errors d.canonical)).1 (errors_of_writable writable .start)
  have grammatical : grammaticalDiagnostics d.canonical options.maxDepth = [] := diagnostics
  constructor
  · rw [diagnostics_eq_inOrder, lexical, grammatical]
    exact Diagnostic.inOrder_eq_nil_iff.2 rfl
  · rw [document_bare, Document.bare_eq, statements]

/-- A document with every kind of stem and of element, written as

    *[a= -b |>c [_ - #(ren)] @1 +]@[1 + 2.5] :: { 'd', #["f \"g\""], [x<|] <- {}, };
    ---- note ----
    ;
-/
def Document.specimen : Document :=
  let o : Origin := default
  let name (s : String) : Identifier := ⟨o, s.toList⟩
  let sign (s : String) : Operator := ⟨o, s.toList⟩
  let nested : GacString :=
    ⟨o, .operator (sign "_"), [.operator (sign "-"), .fycoide ⟨o, .identifier (name "ren")⟩]⟩
  let content : GacString :=
    ⟨o, .front ⟨o, name "a", .equals⟩,
      [.ending ⟨o, .minus, name "b"⟩, .synonym ⟨o, name "c"⟩, .nested ⟨o, nested⟩,
        .pointerRef ⟨o, .number ⟨o, ['1'], false⟩⟩, .operator (sign "+")]⟩
  let target : PointerExpression :=
    ⟨o, .number ⟨o, ['1'], false⟩, [.arithmeticOp ⟨o, ['+']⟩, .number ⟨o, "2.5".toList, true⟩]⟩
  let inner : Relation :=
    ⟨.hold, o, .stdGacWord ⟨o, ⟨o, .front ⟨o, name "x", .arrow⟩, []⟩, none⟩, .emptyBlock⟩
  let body : BlockBody :=
    ⟨o, .expression (.typeDesc ⟨o, .identifier (name "d")⟩),
      [.inclusion ⟨o, .quotedString ⟨o, "f \\\"g\\\"".toList⟩⟩, .relation inner], true⟩
  let relation : Relation :=
    ⟨.shape, o, .protoGacWord ⟨o, content, some ⟨o, .expression target⟩⟩, .block body⟩
  ⟨o, [.block ⟨o, .relation relation⟩, .dashComment ⟨o, "---- note ----".toList⟩, .empty ⟨o⟩]⟩

theorem Document.read_canonical_specimen :
    specimen.isWellFormed ∧ specimen.nesting ≤ (2 : Int).toNat ∧
      (parseDocument specimen.canonical ⟨2, true⟩).diagnostics = [] ∧
      (parseDocument specimen.canonical ⟨2, true⟩).document.bare = specimen.bare := by
  have formed : specimen.isWellFormed := by decide +kernel
  have shallow : specimen.nesting ≤ (2 : Int).toNat := by decide +kernel
  exact ⟨formed, shallow, read_canonical specimen ⟨2, true⟩ formed shallow⟩

end RelationNotation
