import RelationNotation.Proofs.Diagnostic.Completeness
import RelationNotation.Proofs.Parse.Skipped
import RelationNotation.Proofs.Token.Gap
import RelationNotation.Proofs.Tree.Owner

/-!
A bad character and a blank in its place. The scanner takes such a character by itself and goes on
as behind a blank, so the structural tokens stay where they are and one error is gone. Hence the
document is the same but for trivia and skipped text, and one diagnostic is gone:
`parseDocument_blanked`.
-/

namespace RelationNotation

open Token

section
variable {source : Text} {t : Token}

/-! ### Tokens -/

/-- With a blank in place of a bad character all other tokens stay where they are, blanks and line
comments apart. -/
theorem scan_blanked (mem : t ∈ scan source) (error : t.kind = .error)
    (single : t.text.length = 1) :
    ∃ before behind, withoutGaps (scan source) = before ++ t :: behind ∧
      withoutGaps (scan (source.set t.span.start.offset.toNat ' ')) = before ++ behind := by
  obtain ⟨u, v, ts, us, rfl, cuts, hus⟩ := exists_cuts mem
  have hstart : t.span.start = Position.start.after u := scanFrom_head _ _ _ t (by rw [hus]; rfl)
  have hoffset : t.span.start.offset.toNat = u.length := by
    rw [hstart, offset_start_after, Int.toNat_natCast]
  rcases scanFrom_eq_cons hus with ⟨-, rfl⟩ | ⟨c, cs, rfl, ht⟩
  · cases error
  generalize hl : lexeme _ _ c cs = l at ht
  have htext : l.text = [c] := by
    have hhead := Lexeme.head?_lexeme (ScanMode.afterAll {} ts).awaited
      ((Position.start.after u).offset == 0) c cs
    obtain ⟨ls, htext⟩ := List.head?_eq_some_iff.1 (hl ▸ hhead)
    rw [ht, Lexeme.toToken, htext] at single
    obtain rfl : ls = [] := List.length_eq_zero_iff.1 (by simpa using single)
    exact htext
  have hkind : l.kind = .error := by rwa [ht] at error
  have hnewline : c ≠ '\n' := by
    rintro rfl
    rw [Lexeme.lexeme_of_blank isBlank_newline] at hl
    rw [← hl] at hkind
    cases hkind
  have split : c :: cs = l.text ++ cs := by
    rw [htext]
    rfl
  have hscan := scanFrom_lexeme hl split
  have hafter : (Position.start.after u).after l.text = Position.start.after (u ++ [' ']) := by
    rw [htext, Position.after_append]
    simp [Position.next, hnewline]
  have hset : (u ++ c :: cs).set u.length ' ' = u ++ ([' '] ++ cs) := by simp
  have hbreaks : cs = c :: cs ∨ ¬ Breaks (c :: cs) := .inr (by simp [Breaks, hnewline])
  have hgap := withoutGaps_scan_gap cuts (cuts.closed (by simp)) (w := [' '])
    (by simp [isBlank_space]) (by simp) hbreaks
  refine ⟨withoutGaps ts, withoutGaps (scanFrom _ _ cs), ?_, by rw [hoffset, hset]; exact hgap⟩
  rw [show scan (u ++ c :: cs) = _ from cuts.scan, hscan, ← ht, hkind, hafter, withoutGaps_append,
    withoutGaps_cons (by simp [error])]
  rfl

theorem structural_blanked (mem : t ∈ scan source) (error : t.kind = .error)
    (single : t.text.length = 1) :
    structural (scan (source.set t.span.start.offset.toNat ' ')) = structural (scan source) := by
  obtain ⟨before, behind, hscan, hblanked⟩ := scan_blanked mem error single
  have hskip (m : ScanMode) : structuralIn m (t :: behind) = structuralIn m behind := by
    rw [structuralIn, error]
    rfl
  rw [structural_eq, structural_eq, ← structuralIn_withoutGaps _ (scan source), hscan,
    ← structuralIn_withoutGaps, hblanked, structuralIn_append, structuralIn_append, hskip]

/-! ### Diagnostics -/

theorem lexicalDiagnostics_eq (source : Text) :
    lexicalDiagnostics source = (errors (scan source)).filterMap toDiagnostic? := by
  have marked : ∀ t ∈ scan source, t.kind = .error ↔ t.fault.isSome := error_iff_fault
  rw [lexicalDiagnostics, trivia_eq, filterMap_triviaIn {} marked, errors, List.filterMap_filter]
  refine List.filterMap_congr fun t ht => ?_
  split
  · rfl
  next hk => exact toDiagnostic?_eq_none (marked t ht) (by simpa using hk)

theorem lexicalDiagnostics_blanked (mem : t ∈ scan source) (error : t.kind = .error)
    (single : t.text.length = 1) :
    ∃ before d behind, t.ReportedBy d ∧ lexicalDiagnostics source = before ++ d :: behind ∧
      lexicalDiagnostics (source.set t.span.start.offset.toNat ' ') = before ++ behind := by
  obtain ⟨before, behind, hscan, hblanked⟩ := scan_blanked mem error single
  obtain ⟨f, hf⟩ := Option.isSome_iff_exists.1 ((error_iff_fault t mem).1 error)
  have hd : t.toDiagnostic? = some ⟨.lexical, f.message, t.span, f.expected⟩ := by
    rw [toDiagnostic?, hf]
    rfl
  refine ⟨(errors before).filterMap toDiagnostic?, _, (errors behind).filterMap toDiagnostic?,
    ⟨f, hf, rfl⟩, ?_, ?_⟩
  · rw [lexicalDiagnostics_eq, ← errors_withoutGaps, hscan, errors, List.filter_append,
      List.filter_cons_of_pos (by simp [error]), List.filterMap_append, List.filterMap_cons_some hd]
    rfl
  · rw [lexicalDiagnostics_eq, ← errors_withoutGaps, hblanked, errors, List.filter_append,
      List.filterMap_append]
    rfl

/-! ### Documents -/

/-- Whether trivia is kept makes no difference to a document without it. -/
theorem withoutTrivia_parseDocument (source : Text) (options : ParserOptions) :
    (parseDocument source options).document.withoutTrivia =
      (startOf source options.maxDepth).document.1.withoutTrivia := by
  unfold parseDocument
  dsimp only
  split
  · exact Document.withoutTrivia_attach _ _
  · rfl

theorem Document.withoutSkipped_withoutTrivia (d : Document) :
    d.withoutTrivia.withoutSkipped = d.withoutSkipped.withoutTrivia :=
  d.withoutSkipped_mapOrigins _ _

/-- A blank in place of a bad character makes no difference to a document, trivia and the text of
mistakes apart. Of the diagnostics the one for the character is gone. -/
theorem parseDocument_blanked {options : ParserOptions} (mem : t ∈ scan source)
    (error : t.kind = .error) (single : t.text.length = 1) :
    let parsed := parseDocument source options
    let parsed' := parseDocument (source.set t.span.start.offset.toNat ' ') options
    parsed'.document.withoutTrivia.withoutSkipped = parsed.document.withoutTrivia.withoutSkipped ∧
      ∃ before d behind, t.ReportedBy d ∧ parsed.diagnostics = before ++ d :: behind ∧
        parsed'.diagnostics = before ++ behind := by
  intro parsed parsed'
  have hstart (limit : Int) : startOf (source.set t.span.start.offset.toNat ' ') limit =
      (startOf source limit).onText (source.set t.span.start.offset.toNat ' ') := by
    rw [startOf, structural_blanked mem error single]
    rfl
  obtain ⟨document, grammatical⟩ := (startOf source options.maxDepth).document_onText
    (source.set t.span.start.offset.toNat ' ') List.length_set
  rw [← hstart] at document grammatical
  constructor
  · simp only [parsed, parsed', withoutTrivia_parseDocument, Document.withoutSkipped_withoutTrivia,
      document]
  · obtain ⟨before, d, behind, reported, hlexical, hblanked⟩ :=
      lexicalDiagnostics_blanked mem error single
    have nodup := nodup_starts source options.maxDepth
    rw [hlexical, List.append_assoc, List.cons_append] at nodup
    obtain ⟨front, back, hwith, hwithout⟩ := Diagnostic.inOrder_insert nodup
    refine ⟨front, d, back, reported, ?_, ?_⟩
    · rw [← hwith, ← List.cons_append, ← List.append_assoc, ← hlexical]
      exact diagnostics_eq_inOrder source options
    · rw [← hwithout, ← List.append_assoc, ← hblanked]
      refine (diagnostics_eq_inOrder _ options).trans ?_
      rw [grammaticalDiagnostics, grammaticalDiagnostics]
      exact congrArg (fun g => Diagnostic.inOrder (_ ++ g)) grammatical

end

/-- The dollar sign in a broken statement, in front of a relation. -/
theorem parseDocument_blanked_dollar :
    let t : Token := ⟨.error, ['$'], ⟨⟨3, 1, 4⟩, ⟨4, 1, 5⟩⟩, some (.unexpected '$')⟩
    t ∈ scan "[a $;[b]::[c];".toList ∧ t.kind = .error ∧ t.text.length = 1 ∧
      (parseDocument "[a  ;[b]::[c];".toList).document.withoutTrivia.withoutSkipped =
        (parseDocument "[a $;[b]::[c];".toList).document.withoutTrivia.withoutSkipped ∧
      ∃ before d behind, t.ReportedBy d ∧
        (parseDocument "[a $;[b]::[c];".toList).diagnostics = before ++ d :: behind ∧
        (parseDocument "[a  ;[b]::[c];".toList).diagnostics = before ++ behind := by
  intro t
  have mem : t ∈ scan "[a $;[b]::[c];".toList := by decide +kernel
  have blanked := @parseDocument_blanked _ t {} mem rfl rfl
  rw [show "[a $;[b]::[c];".toList.set t.span.start.offset.toNat ' ' = "[a  ;[b]::[c];".toList
    from rfl] at blanked
  exact ⟨mem, rfl, rfl, blanked⟩

end RelationNotation
