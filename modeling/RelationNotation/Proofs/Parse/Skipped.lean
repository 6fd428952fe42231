import RelationNotation.Proofs.Parse.Reading

/-!
The text of a session. A session reads tokens; its text shows only where a mistake keeps the text
that was skipped, and in the length of the whole. So a session on another text of that length, with
the same tokens, reads the same document but for skipped text: `Session.document_onText`.
-/

namespace RelationNotation

/-! ### Without skipped text -/

def ErrorStatement.withoutSkipped (x : ErrorStatement) : ErrorStatement := { x with text := [] }

def Statement.withoutSkipped : Statement → Statement
  | .error x => .error x.withoutSkipped
  | x => x

/-- A document that does not keep the text of its mistakes. -/
def Document.withoutSkipped (x : Document) : Document :=
  { x with statements := x.statements.map Statement.withoutSkipped }

theorem Statement.origin_withoutSkipped (x : Statement) : x.withoutSkipped.origin = x.origin := by
  cases x <;> rfl

section
variable {σ : Type} (p : OriginMap σ) (s : σ)

theorem Statement.withoutSkipped_mapOrigins (x : Statement) :
    (x.mapOrigins p s).withoutSkipped = x.withoutSkipped.mapOrigins p s := by
  cases x <;> rfl

theorem Document.withoutSkipped_mapOrigins (x : Document) :
    (x.mapOrigins p s).withoutSkipped = x.withoutSkipped.mapOrigins p s := by
  have spans : (x.statements.map Statement.withoutSkipped).map (·.origin.span) =
      x.statements.map (·.origin.span) := by
    rw [List.map_map]
    exact List.map_congr_left fun y _ => congrArg Origin.span y.origin_withoutSkipped
  simp only [withoutSkipped, mapOrigins, spans, Document.mk.injEq, true_and]
  refine List.ext_getElem (by simp) fun i _ _ => ?_
  simp [Statement.withoutSkipped_mapOrigins]

end

/-! ### Another text -/

namespace Session

/-- The session on another text. -/
def onText (s : Session) (source : Text) : Session := { s with source := source }

variable (s : Session) (source : Text)

theorem statement_onText :
    (s.onText source).statement.1.withoutSkipped = s.statement.1.withoutSkipped ∧
      (s.onText source).statement.2 = s.statement.2.onText source := by
  unfold statement
  simp only [onText]
  cases Parse.statement s.nesting s.cursor <;> exact ⟨rfl, rfl⟩

theorem statementsWithin_onText (k : Nat) :
    ((s.onText source).statementsWithin k).1.map Statement.withoutSkipped =
        (s.statementsWithin k).1.map Statement.withoutSkipped ∧
      ((s.onText source).statementsWithin k).2 = (s.statementsWithin k).2.onText source := by
  induction k generalizing s with
  | zero => exact ⟨rfl, rfl⟩
  | succ k ih =>
    obtain ⟨first, left⟩ := s.statement_onText source
    obtain ⟨rest, final⟩ := ih s.statement.2
    have cursor : (s.onText source).cursor = s.cursor := rfl
    rw [← left] at rest final
    rw [statementsWithin, statementsWithin, cursor]
    split
    · exact ⟨rfl, rfl⟩
    · exact ⟨congrArg₂ List.cons first rest, final⟩

theorem document_onText (h : source.length = s.source.length) :
    (s.onText source).document.1.withoutSkipped = s.document.1.withoutSkipped ∧
      (s.onText source).document.2.diagnostics = s.document.2.diagnostics := by
  have same : (s.onText source).statements.1.map Statement.withoutSkipped =
        s.statements.1.map Statement.withoutSkipped ∧
      (s.onText source).statements.2 = s.statements.2.onText source :=
    s.statementsWithin_onText source s.cursor.remaining
  obtain ⟨statements, final⟩ := same
  constructor
  · simp only [document, Document.withoutSkipped, statements, final]
    simp only [wholeSpan, onText, h]
  · rw [show (s.onText source).document.2 = (s.onText source).statements.2 from rfl, final]
    rfl

end Session

end RelationNotation
