import RelationNotation.Parse.Document
import RelationNotation.Proofs.Parse.Agreement
import RelationNotation.Proofs.Source.Place
import RelationNotation.Proofs.Token.Placing
import RelationNotation.Proofs.Token.Recut

/-!
Sessions in the middle of a text: what stands before them is what the scanner gives for the rest of
the text.
-/

namespace RelationNotation

open Token Cursor

/-- A session that stands before the rest of its text, where a statement may begin. -/
structure Session.Reads (s : Session) (u t : Text) : Prop where
  source : s.source = u ++ t
  upcoming : s.cursor.upcoming = significantFrom {} (Position.start.after u) t

/-- A session's place, as the scanner gives it: the tokens ahead fit their kinds, and the last one
stands for the end of the input. -/
theorem upcoming_split {c : Cursor} {m : ScanMode} {p : Position} {t : Text}
    (h : c.upcoming = significantFrom m p t) :
    c.stop = .endOfInput (p.after t) ∧ Fitting m c.ahead := by
  obtain ⟨ts, hts, fit⟩ := significantFrom_eq m p t
  rw [hts] at h
  obtain ⟨ha, hstop⟩ := List.append_inj' h rfl
  exact ⟨List.singleton_injective hstop, ha ▸ fit⟩

namespace Session
variable {s : Session} {u t : Text} {ps rest : List Token}

theorem Reads.endsOnce (hs : s.Reads u t) : s.cursor.EndsOnce := by
  obtain ⟨hstop, fit⟩ := upcoming_split hs.upcoming
  exact ⟨by rw [Cursor.Ended, hstop]; rfl, fit.kind_ne⟩

/-- With no token ahead, nothing is left of the text but trivia. -/
theorem reads_of_nil (hsource : s.source = u ++ t)
    (hstop : s.cursor.stop = .endOfInput (Position.start.after (u ++ t)))
    (ha : s.cursor.ahead = []) : s.Reads (u ++ t) [] where
  source := by rw [hsource, List.append_nil]
  upcoming := by rw [upcoming, ha, hstop, significantFrom_nil]; rfl

theorem Reads.newline (hs : s.Reads u ('\n' :: t)) : s.Reads (u ++ ['\n']) t where
  source := by rw [hs.source, List.append_assoc]; rfl
  upcoming := by
    rw [hs.upcoming, significantFrom_blank _ _ isBlank_newline, Position.after_append]
    rfl

/-- The next tokens of a text stand in a stretch of it. -/
theorem Reads.cut (hs : s.Reads u t) (ha : s.cursor.ahead = ps ++ rest) (hps : ps ≠ []) :
    ∃ gap raw tail, t = gap ++ raw ++ tail ∧
      (ps.headD default).span.start.offset = (u ++ gap).length ∧
      (ps.getLastD default).span.stop.offset = (u ++ gap ++ raw).length ∧
      rest ++ [s.cursor.stop] =
        significantFrom (ScanMode.afterAll {} ps) (Position.start.after (u ++ gap ++ raw)) tail ∧
      ∀ q : Position, 0 ≤ q.offset → Rescans {} ps (Position.start.after (u ++ gap)) q raw := by
  have h := hs.upcoming
  rw [Cursor.upcoming, ha, List.append_assoc] at h
  obtain ⟨gap, raw, tail, rfl, -, hstart, hstop, hrest, again, -⟩ :=
    significantFrom_cut h.symm hps (by simp) (by rw [offset_start_after]; omega)
  rw [← Position.after_append] at hstart hstop hrest again
  rw [← List.append_assoc] at hstop hrest
  exact ⟨gap, raw, tail, rfl, by rw [hstart, offset_start_after],
    by rw [hstop, offset_start_after], hrest, again⟩

end Session

/-- A parser at the start of a text. -/
def startOf (source : Text) (limit : Int) : Session :=
  .start source (structural (scan source)) limit

theorem upcoming_startOf (source : Text) (limit : Int) :
    (startOf source limit).cursor.upcoming = structural (scan source) := by
  obtain ⟨ts, hts, -⟩ := significantFrom_eq {} .start source
  rw [structural_scan, hts, startOf, Session.start, structural_scan, hts, ofTokens, upcoming]
  simp

theorem startOf_split {source : Text} {ts : List Token} {t : Token}
    (h : structural (scan source) = ts ++ [t]) (limit : Int) :
    (startOf source limit).cursor.ahead = ts ∧ (startOf source limit).cursor.stop = t := by
  have hup := upcoming_startOf source limit
  rw [h] at hup
  obtain ⟨hahead, hstop⟩ := List.append_inj' hup rfl
  exact ⟨hahead, List.singleton_injective hstop⟩

theorem reads_startOf (source : Text) (limit : Int) : (startOf source limit).Reads [] source where
  source := rfl
  upcoming := by rw [upcoming_startOf, structural_scan]; rfl

end RelationNotation
