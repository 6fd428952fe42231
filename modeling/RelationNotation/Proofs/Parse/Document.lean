import RelationNotation.Proofs.Parse.Account
import RelationNotation.Proofs.Parse.Reading
import RelationNotation.Proofs.Token.Trivia
import RelationNotation.Proofs.Tree.Rebuilding

/-!
What a document holds. The statements read stand in sequence, so each keeps the trivia within it
(`statements_parseDocument`); what is wrong with a text is what the scanner and the session find.
-/

namespace RelationNotation

open Token Cursor

theorem upcoming_sublist_scan (source : Text) (limit : Int) :
    (startOf source limit).cursor.upcoming.Sublist (scan source) := by
  rw [upcoming_startOf]
  exact structural_sublist _

theorem ahead_sublist_scan (source : Text) (limit : Int) :
    (startOf source limit).cursor.ahead.Sublist (scan source) :=
  (List.sublist_append_left _ _).trans (upcoming_sublist_scan source limit)

theorem inSequence_startOf (source : Text) (limit : Int) :
    InSequence Token.span (startOf source limit).cursor.ahead := by
  have hsub := ahead_sublist_scan source limit
  exact ⟨fun t ht => (scanFrom_within _ _ _ t (hsub.subset ht)).2.1,
    (scanFrom_sorted _ _ _).sublist hsub⟩

theorem covers_startOf (source : Text) (limit : Int) :
    Session.Covers (startOf source limit).cursor.ahead (startOf source limit).statements.1 := by
  obtain ⟨faults, account, -⟩ := Session.account_statements (reads_startOf source limit).endsOnce rfl
  exact account.covers

/-- Trivia as items, those of a span only. -/
def itemsWithin (ts : List Token) (s : Span) : List Trivia :=
  (ts.map toTrivia).filter (s.contains ·.span)

theorem proper_trivia {source : Text} {t : Token} (ht : t ∈ trivia (scan source)) :
    t ∈ scan source ∧ t.span.start.offset < t.span.stop.offset := by
  rw [trivia_eq] at ht
  obtain ⟨hmem, hkind⟩ := mem_triviaIn ht
  exact ⟨hmem, scanFrom_proper _ _ _ t hmem hkind⟩

/-- The statements of a document are those read, each with the trivia within it if trivia is kept. -/
theorem statements_parseDocument (source : Text) (options : ParserOptions) :
    (parseDocument source options).document.statements =
      if options.attachTrivia then
        (startOf source options.maxDepth).statements.1.map fun x =>
          x.mapOrigins Trivia.attaching (itemsWithin (trivia (scan source)) x.origin.span)
      else (startOf source options.maxDepth).statements.1 := by
  unfold parseDocument
  dsimp only
  split
  · refine Document.statements_attach _ ?_ ?_
    · exact (covers_startOf source _).inSequence (inSequence_startOf source _)
    · exact List.forall_mem_map.2 fun t ht => (proper_trivia ht).2
  · rfl

theorem length_statements (source : Text) (options : ParserOptions) :
    (parseDocument source options).document.statements.length =
      (startOf source options.maxDepth).statements.1.length := by
  rw [statements_parseDocument]
  split
  · exact List.length_map _
  · rfl

/-- What the scanner finds wrong with a text. -/
def lexicalDiagnostics (source : Text) : List Diagnostic :=
  (trivia (scan source)).filterMap toDiagnostic?

theorem diagnostics_parseDocument (source : Text) (options : ParserOptions) :
    (parseDocument source options).diagnostics =
      Diagnostic.inOrder (lexicalDiagnostics source ++
        (startOf source options.maxDepth).statements.2.diagnostics) := rfl

end RelationNotation
