import RelationNotation.Proofs.Locality.Joining
import RelationNotation.Proofs.Locality.Session
import RelationNotation.Proofs.Parse.Reading
import RelationNotation.Proofs.Token.Trivia

/-!
Two texts at a seam. Where the first text ends between statements, the tokens of the two texts
joined by a newline are those of the first and those of the second, moved, up to the blanks at the
newline; so a session over both reads the statements of the first and then those of the second.
-/

namespace RelationNotation

open Token Cursor

/-- The tokens of two texts, and of both joined by a newline. -/
structure Seam (a b : Text) (ts blanks : List Token) (w : Token) (before us : List Token) :
    Prop where
  first : scan a = ts ++ blanks ++ [.endOfInput (Position.start.after a)]
  second : scan b = before ++ us
  whole : scan (a ++ '\n' :: b) = ts ++ w :: us.map (Token.displace (.behind a))
  clean : ScanMode.afterAll {} ts = {}
  blank : ∀ t ∈ w :: (blanks ++ before), t.IsBlank
  start : w.span.start.offset ≤ a.length
  stop : a.length < w.span.stop.offset

/-- Behind the blanks at its start, a text is scanned from there on. -/
theorem scan_behind_blanks (b : Text) : ∃ before, (∀ t ∈ before, t.IsBlank) ∧
    scan b = before ++
      scanFrom {} (Position.start.after (b.takeWhile isBlank)) (b.dropWhile isBlank) := by
  cases b with
  | nil => exact ⟨[], by simp, rfl⟩
  | cons c cs =>
    by_cases hc : isBlank c
    · refine ⟨[_], ?_, scanFrom_blank hc cs⟩
      intro t ht
      rw [List.mem_singleton.1 ht]
      exact ⟨rfl, rfl⟩
    · rw [List.takeWhile_cons_of_neg hc, List.dropWhile_cons_of_neg hc]
      exact ⟨[], by simp, rfl⟩

theorem seam_of_joins {a b : Text} {ts blanks : List Token} (joins : Joins {} .start a ts blanks)
    (clean : ScanMode.afterAll {} ts = {}) (hb : b.head? ≠ some byteOrderMark) :
    ∃ w before us, Seam a b ts blanks w before us := by
  obtain ⟨w, hw, hstart, hstop, whole⟩ := joins.joined b
  obtain ⟨before, hbefore, second⟩ := scan_behind_blanks b
  have hmark : (Position.start.after (b.takeWhile isBlank)).offset = 0 →
      ∀ c ∈ (b.dropWhile isBlank).head?, c ≠ byteOrderMark := by
    intro hzero c hc hmark
    have hsplit := @List.takeWhile_append_dropWhile _ isBlank b
    rw [offset_start_after] at hzero
    have hnil : b.takeWhile isBlank = [] := List.length_eq_zero_iff.1 (by omega)
    rw [hnil, List.nil_append] at hsplit
    rw [hsplit, hmark] at hc
    exact hb hc
  have moved := @scanFrom_displace (.behind a) {} (Position.start.after (b.takeWhile isBlank))
    (b.dropWhile isBlank) (by rw [offset_start_after]; omega) (Nat.succ_pos _) hmark
  rw [clean, Position.start_after_line, Position.displace_after, moved] at whole
  rw [offset_start_after] at hstart hstop
  refine ⟨w, before, _, joins.alone, second, whole, clean, ?_, hstart, hstop⟩
  intro t ht
  rcases List.mem_cons.1 ht with rfl | ht
  · exact hw
  · exact (List.mem_append.1 ht).elim (joins.blank t) (hbefore t)

/-- Blanks at the end of a text are no structural tokens. -/
theorem structural_of_blanks {a : Text} {ts blanks : List Token} {p : Position}
    (h : scan a = ts ++ blanks ++ [.endOfInput p]) (blank : ∀ t ∈ blanks, t.IsBlank) :
    structural (scan a) = structuralIn {} ts ++ [.endOfInput p] := by
  have out := sorted_out_of_blank (m := ScanMode.afterAll {} ts) fun t ht => (blank t ht).1
  rw [structural_eq, h, List.append_assoc, structuralIn_append, structuralIn_append, out.1]
  rfl

namespace Seam
variable {a b : Text} {ts blanks before us : List Token} {w : Token}

/-! ### Structural tokens and trivia -/

theorem kind_of_blank (h : Seam a b ts blanks w before us) :
    ∀ t ∈ w :: (blanks ++ before), t.kind = .whitespace :=
  fun t ht => (h.blank t ht).1

theorem structural_first (h : Seam a b ts blanks w before us) :
    structural (scan a) = structuralIn {} ts ++ [.endOfInput (Position.start.after a)] :=
  structural_of_blanks h.first fun t ht =>
    h.blank t (List.mem_cons_of_mem _ (List.mem_append_left before ht))

theorem trivia_first (h : Seam a b ts blanks w before us) :
    trivia (scan a) = triviaIn {} ts ++ blanks := by
  have blank := sorted_out_of_blank (m := {}) fun t ht =>
    h.kind_of_blank t (List.mem_cons_of_mem _ (List.mem_append_left before ht))
  rw [trivia_eq, h.first, List.append_assoc, triviaIn_append, triviaIn_append, h.clean, blank.2.1,
    blank.2.2]
  exact congrArg (_ ++ ·) (List.append_nil blanks)

theorem structural_second (h : Seam a b ts blanks w before us) :
    structural (scan b) = structuralIn {} us := by
  have blank := sorted_out_of_blank (m := {}) fun t ht =>
    h.kind_of_blank t (List.mem_cons_of_mem _ (List.mem_append_right blanks ht))
  rw [structural_eq, h.second, structuralIn_append, blank.1, blank.2.2]
  rfl

theorem trivia_second (h : Seam a b ts blanks w before us) :
    trivia (scan b) = before ++ triviaIn {} us := by
  have blank := sorted_out_of_blank (m := {}) fun t ht =>
    h.kind_of_blank t (List.mem_cons_of_mem _ (List.mem_append_right blanks ht))
  rw [trivia_eq, h.second, triviaIn_append, blank.2.1, blank.2.2]

theorem structural_whole (h : Seam a b ts blanks w before us) :
    structural (scan (a ++ '\n' :: b)) =
      structuralIn {} ts ++ (structuralIn {} us).map (Token.displace (.behind a)) := by
  have hw := h.kind_of_blank w List.mem_cons_self
  rw [structural_eq, h.whole, structuralIn_append, h.clean, structuralIn, hw]
  exact congrArg (_ ++ ·) (structuralIn_map (kind_displace _) _ _)

theorem trivia_whole (h : Seam a b ts blanks w before us) :
    trivia (scan (a ++ '\n' :: b)) =
      triviaIn {} ts ++ w :: (triviaIn {} us).map (Token.displace (.behind a)) := by
  have hw := h.kind_of_blank w List.mem_cons_self
  rw [trivia_eq, h.whole, triviaIn_append, h.clean, triviaIn, hw]
  exact congrArg (fun vs => _ ++ w :: vs) (triviaIn_map (kind_displace _) _ _)

end Seam

/-! ### Statements -/

theorem startOf_within (source : Text) (limit : Int) :
    ∀ t ∈ (startOf source limit).cursor.upcoming, t.Within source := by
  intro t ht
  rw [upcoming_startOf, structural_scan] at ht
  obtain ⟨hstart, hle, hstop⟩ := significantFrom_within {} .start source t ht
  rw [offset_start_after] at hstop
  exact ⟨hstart, hle, hstop⟩

/-- A session over a longer text, the structural tokens of which begin with those of the shorter. -/
theorem follows_startOf {a v : Text} {ts rest : List Token} {t u : Token}
    (ha : structural (scan a) = ts ++ [t]) (ha' : structural (scan (a ++ v)) = ts ++ rest ++ [u])
    (limit : Int) :
    Session.Follows .still limit rest [] (startOf a limit) (startOf (a ++ v) limit) := by
  obtain ⟨hshort, -⟩ := startOf_split ha limit
  obtain ⟨hlong, -⟩ := startOf_split ha' limit
  refine ⟨⟨[], v, rfl, rfl⟩, ?_, rfl, rfl, rfl, startOf_within a limit, ?_⟩
  · rw [hlong, hshort, List.map_id'' Token.displace_still]
  · exact fun x hx => absurd hx List.not_mem_nil

/-- A session over two texts reads the statements of the first, then those of the second. -/
theorem Seam.statements {a b : Text} {ts blanks before us : List Token} {w : Token}
    (h : Seam a b ts blanks w before us) {limit : Int} (closes : (startOf a limit).Closes) :
    (startOf (a ++ '\n' :: b) limit).statements.1 = (startOf a limit).statements.1 ++
        (startOf b limit).statements.1.map (Statement.displace (.behind a)) ∧
      (startOf (a ++ '\n' :: b) limit).statements.2.diagnostics =
        (startOf a limit).statements.2.diagnostics ++
          (startOf b limit).statements.2.diagnostics.map (Diagnostic.displace (.behind a)) ∧
      (∀ x ∈ (startOf a limit).statements.2.diagnostics, x.span.start.offset ≤ a.length) ∧
      ∀ x ∈ (startOf b limit).statements.2.diagnostics, 0 ≤ x.span.start.offset := by
  have ends (source : Text) := (reads_startOf source limit).endsOnce
  obtain ⟨vs, hvs, -⟩ := significantFrom_eq {} .start b
  rw [← structural_scan] at hvs
  have hus := h.structural_second.symm.trans hvs
  have hwhole := h.structural_whole
  rw [hus, List.map_append, ← List.append_assoc] at hwhole
  obtain ⟨hb, hstop⟩ := startOf_split hvs limit
  obtain ⟨-, hstop'⟩ := startOf_split hwhole limit
  have first := follows_startOf h.structural_first hwhole limit
  obtain ⟨r, hr, hnil, hsource, hrstop, hrends, hrun⟩ :=
    first.statements (ends a) (ends _) (.inl closes)
  have second : Session.Follows (.behind a) limit [] (startOf a limit).statements.2.diagnostics
      (startOf b limit) r := by
    refine ⟨⟨a ++ ['\n'], [], ?_, ?_⟩, ?_, rfl, hr.there, ?_, startOf_within b limit, ?_⟩
    · rw [hsource, List.append_nil, List.append_assoc]
      rfl
    · rw [List.length_append]
      rfl
    · rw [hr.ahead, hnil, hb, List.append_nil]
      rfl
    · rw [hr.diagnostics, List.map_id'' Diagnostic.displace_still]
      exact (List.append_nil _).symm
    · exact fun x hx => absurd hx List.not_mem_nil
  obtain ⟨r', hr', hnil', -, -, -, hrun'⟩ := second.statements (ends b) hrends
    (.inr ⟨rfl, by rw [hrstop, hstop, hstop']⟩)
  have hend : r'.cursor.ahead = [] := by
    rw [hr'.ahead, hnil']
    rfl
  rw [hrun, hrun', Session.statements_of_nil hend, Session.displace_still_statements (ends a),
    List.append_nil]
  have found := hr.found
  rw [Session.source_statements] at found
  exact ⟨rfl, hr'.diagnostics, fun x hx => (found x hx).2, fun x hx => (hr'.found x hx).1⟩

end RelationNotation
