import RelationNotation.Parse.Document
import RelationNotation.Proofs.Grammar.Completeness
import RelationNotation.Proofs.Parse.Session
import RelationNotation.Proofs.Token.Significant

/-!
The parser accepts exactly its grammar: a session records no mistake if and only if the tokens ahead
are a row of statements, nested no deeper than the limit allows.
-/

namespace RelationNotation

open Token

namespace Session
variable {s : Session}

/-- What has been found wrong stays found. -/
theorem diagnostics_prefix (hc : s.cursor.EndsOnce) : s.diagnostics <+: s.statements.2.diagnostics := by
  refine steps_induction (fun s ha => ?_) (fun s hc ha rest => ?_) hc
  · exact ⟨[], by rw [statements_of_nil ha, List.append_nil]⟩
  · rw [statements_of_ahead hc ha]
    refine List.IsPrefix.trans ?_ rest
    cases h : Parse.statement s.nesting s.cursor with
    | ok x d =>
      exact ⟨[], by rw [statement_of_ok h, List.append_nil]⟩
    | error fault d =>
      obtain ⟨ts, us, -, -, -, -, hs⟩ := statement_of_error ha h
      rw [hs]
      exact List.prefix_append _ _

/-- A session records no mistake if and only if statements are ahead of it, and nothing else. -/
theorem accepts_iff (hc : s.cursor.EndsOnce) :
    s.statements.2.diagnostics = s.diagnostics ↔
      ∃ xs, Statement.RowSpelledBy s.nesting.levels xs s.cursor.ahead := by
  refine steps_induction (fun s ha => ?_) (fun s hc ha rest => ?_) hc
  · rw [statements_of_nil ha, ha]
    exact ⟨fun _ => ⟨[], .nil⟩, fun _ => rfl⟩
  · rw [statements_of_ahead hc ha]
    constructor
    · intro hs
      cases h : Parse.statement s.nesting s.cursor with
      | ok x d =>
        obtain ⟨ts, pass, spelled⟩ := Parse.statement_spelled s.nesting hc.ended h
        rw [statement_of_ok h] at rest hs
        obtain ⟨xs, row⟩ := rest.1 hs
        exact ⟨x :: xs, by rw [pass.ahead]; exact .cons spelled row⟩
      | error fault d =>
        obtain ⟨ts, us, -, -, -, -, hstep⟩ := statement_of_error ha h
        have grown := diagnostics_prefix (endsOnce_statement ha hc)
        rw [show s.statement.2.statements.2.diagnostics = s.diagnostics from hs, hstep] at grown
        have hle := grown.length_le
        simp only [behindMistake, List.length_append, List.length_singleton] at hle
        omega
    · rintro ⟨xs, row⟩
      generalize hts : s.cursor.ahead = ts at row
      cases row with
      | nil => exact absurd hts ha
      | @cons x xs ts us spelled row =>
        have pass : s.cursor.Passes ts ⟨ts.reverse ++ s.cursor.before, us, s.cursor.stop⟩ :=
          ⟨hts, rfl, rfl⟩
        rw [statement_of_ok (Parse.statement_reads spelled pass)] at rest ⊢
        exact rest.2 ⟨xs, row⟩

end Session

/-- A parser starts with the structural tokens of its text ahead. -/
theorem ofTokens_structural (source : Text) :
    ∃ ts, Cursor.ofTokens (structural (scan source)) =
        ⟨[], ts, .endOfInput (Position.start.after source)⟩ ∧
      (structural (scan source)).dropLast = ts ∧ Fitting {} ts := by
  obtain ⟨ts, hts, hfit⟩ := significantFrom_eq {} .start source
  refine ⟨ts, ?_, ?_, hfit⟩
  · rw [structural_scan, hts, Cursor.ofTokens]
    simp
  · rw [structural_scan, hts]
    simp

theorem endsOnce_ofTokens (source : Text) :
    (Cursor.ofTokens (structural (scan source))).EndsOnce := by
  obtain ⟨ts, hc, -, hfit⟩ := ofTokens_structural source
  rw [hc]
  exact ⟨rfl, hfit.kind_ne⟩

theorem start_accepts_iff (source : Text) (limit : Int) :
    (Session.start source (structural (scan source)) limit).statements.2.diagnostics = [] ↔
      ∃ xs, Statement.RowSpelledBy limit.toNat xs (structural (scan source)).dropLast := by
  obtain ⟨ts, hc, hts, -⟩ := ofTokens_structural source
  have accepts := @Session.accepts_iff (.start source (structural (scan source)) limit)
    (endsOnce_ofTokens source)
  have levels : (Nesting.mk 0 limit).levels = limit.toNat := by simp [Nesting.levels]
  rw [hts, ← levels]
  simpa only [Session.start, hc] using accepts

/-- What the parser finds nothing wrong with is spelled as the grammar says. -/
theorem spelled_of_accepted {source : Text} {limit : Int}
    (h : (parseTokens source (structural (scan source)) limit).2 = []) :
    ∃ xs, Statement.RowSpelledBy limit.toNat xs (structural (scan source)).dropLast :=
  (start_accepts_iff source limit).1 h

/-- The parser finds nothing wrong with what is spelled as the grammar says. -/
theorem accepted_of_spelled {source : Text} {limit : Int} {xs : List Statement}
    (h : Statement.RowSpelledBy limit.toNat xs (structural (scan source)).dropLast) :
    (parseTokens source (structural (scan source)) limit).2 = [] :=
  (start_accepts_iff source limit).2 ⟨xs, h⟩

/-- The parser finds nothing wrong with a text if and only if the structural tokens are a row of
statements, nested no deeper than the limit allows. -/
theorem parseTokens_accepts_iff (source : Text) (limit : Int) :
    (parseTokens source (structural (scan source)) limit).2 = [] ↔
      ∃ xs, Statement.RowSpelledBy limit.toNat xs (structural (scan source)).dropLast :=
  ⟨spelled_of_accepted, fun ⟨_, h⟩ => accepted_of_spelled h⟩

/-- Without levels of nesting even a lone gac word is refused. -/
theorem refused_without_levels :
    (∃ d xs, Statement.RowSpelledBy d xs (structural (scan "[a]::[b];".toList)).dropLast) ∧
      (parseTokens "[a]::[b];".toList (structural (scan "[a]::[b];".toList)) 0).2 ≠ [] := by
  have accepted : (parseTokens "[a]::[b];".toList (structural (scan "[a]::[b];".toList)) 1).2 = [] := by
    decide +kernel
  exact ⟨⟨1, spelled_of_accepted accepted⟩, by decide +kernel⟩

end RelationNotation
