import RelationNotation.Proofs.Source.Place

/-!
Lines of a text. Lines put together are the lines of the whole, and a place lies on the line that
its position says: its column is how far it is behind the line's start (`Position.PlacedIn.on_line`).
-/

namespace RelationNotation

namespace Text

theorem lines_cons (c : Char) {t l : Text} {ls : List Text} (h : t.lines = l :: ls) :
    lines (c :: t) = if c = '\n' then [] :: l :: ls else (c :: l) :: ls := by
  rw [lines, h]
  rfl

theorem lines_eq_cons (t : Text) : ∃ l ls, t.lines = l :: ls :=
  List.exists_cons_of_ne_nil t.lines_ne_nil

theorem newline_notMem_of_mem_lines {t l : Text} (h : l ∈ t.lines) : '\n' ∉ l := by
  induction t generalizing l with
  | nil =>
    rw [List.mem_singleton.1 h]
    exact List.not_mem_nil
  | cons c t ih =>
    obtain ⟨first, ls, hlines⟩ := lines_eq_cons t
    rw [hlines] at ih
    rw [lines_cons c hlines] at h
    split at h
    next =>
      rcases List.mem_cons.1 h with rfl | h
      · exact List.not_mem_nil
      · exact ih h
    next hc =>
      rcases List.mem_cons.1 h with rfl | h
      · have := ih List.mem_cons_self
        simp [this, Ne.symm hc]
      · exact ih (List.mem_cons_of_mem _ h)

theorem lines_of_notMem {l : Text} (h : '\n' ∉ l) : l.lines = [l] := by
  induction l with
  | nil => rfl
  | cons c l ih =>
    obtain ⟨hc, hl⟩ := not_or.1 (mt List.mem_cons.2 h)
    rw [lines_cons c (ih hl), if_neg (Ne.symm hc)]

theorem lines_append_newline {l : Text} (h : '\n' ∉ l) (t : Text) :
    lines (l ++ '\n' :: t) = l :: t.lines := by
  induction l with
  | nil => rfl
  | cons c l ih =>
    obtain ⟨hc, hl⟩ := not_or.1 (mt List.mem_cons.2 h)
    rw [List.cons_append, lines_cons c (ih hl), if_neg (Ne.symm hc)]

theorem joinLines_cons_of_ne_nil (l : Text) {ls : List Text} (h : ls ≠ []) :
    joinLines (l :: ls) = l ++ '\n' :: joinLines ls := by
  obtain ⟨m, ls, rfl⟩ := List.exists_cons_of_ne_nil h
  rfl

/-- Lines put together are the lines of the text. -/
theorem lines_joinLines {ls : List Text} (hne : ls ≠ []) (h : ∀ l ∈ ls, '\n' ∉ l) :
    (joinLines ls).lines = ls := by
  induction ls with
  | nil => exact absurd rfl hne
  | cons l ls ih =>
    obtain ⟨hl, hls⟩ := List.forall_mem_cons.1 h
    cases ls with
    | nil => exact lines_of_notMem hl
    | cons m ls =>
      have further := List.cons_ne_nil m ls
      rw [joinLines_cons_of_ne_nil l further, lines_append_newline hl, ih further hls]

theorem joinLines_concat {ls : List Text} (h : ls ≠ []) (l : Text) :
    joinLines (ls ++ [l]) = joinLines ls ++ '\n' :: l := by
  induction ls with
  | nil => exact absurd rfl h
  | cons m ls ih =>
    cases ls with
    | nil => rfl
    | cons n ls =>
      rw [List.cons_append, joinLines_cons_of_ne_nil m (by simp), ih (List.cons_ne_nil n ls),
        joinLines_cons_of_ne_nil m (List.cons_ne_nil n ls), List.append_assoc, List.cons_append]

theorem eq_of_joinLines_eq_nil {ls : List Text} (hne : ls ≠ []) (h : joinLines ls = []) :
    ls = [[]] := by
  match ls, hne with
  | [l], _ => exact congrArg (fun l => [l]) h
  | l :: m :: ls, _ => exact absurd h (by simp [joinLines])

/-- The offset at which a line starts, lines being counted from 1: the lines in front of it, each
with its newline, are that long. -/
def lineStart (t : Text) (line : Nat) : Nat :=
  ((t.lines.take (line - 1)).flatMap (· ++ ['\n'])).length

/-- The lines of two texts put together: the last line of the first goes on into the first line of
the second. -/
theorem lines_append (s : Text) {t l : Text} {ls : List Text} (h : t.lines = l :: ls) :
    ∃ above start, lines (s ++ t) = above ++ (start ++ l) :: ls ∧ above.length = s.count '\n' ∧
      start.length = (s.reverse.takeWhile (· ≠ '\n')).length ∧
      above.flatMap (· ++ ['\n']) ++ start = s := by
  -- Taken from the end, so that a character goes over from the second text to the first.
  induction s using List.reverseRecOn generalizing t l ls with
  | nil => exact ⟨[], [], h, rfl, rfl, rfl⟩
  | append_singleton s c ih =>
    have hlines := lines_cons c h
    rw [List.append_assoc, List.singleton_append]
    by_cases hc : c = '\n'
    · rw [if_pos hc] at hlines
      obtain ⟨above, start, heq, habove, -, whole⟩ := ih hlines
      refine ⟨above ++ [start], [], ?_, ?_, ?_, ?_⟩
      · rw [heq]
        simp
      · simp [habove, hc]
      · simp [hc]
      · rw [List.flatMap_append, List.flatMap_singleton, ← List.append_assoc, whole,
          List.append_nil, hc]
    · rw [if_neg hc] at hlines
      obtain ⟨above, start, heq, habove, hstart, whole⟩ := ih hlines
      refine ⟨above, start ++ [c], ?_, ?_, ?_, ?_⟩
      · rw [heq]
        simp
      · simp [habove, hc]
      · simp [hc, hstart]
      · rw [← List.append_assoc, whole]

end Text

/-- A position lies on a line of a text, a number of characters behind the line's start. -/
structure Position.OnLine (p : Position) (t : Text) (line column : Nat) : Prop where
  line_eq : p.line = line
  column_eq : p.column = column + 1
  offset_eq : p.offset = t.lineStart line + column
  pos : 1 ≤ line
  le : line ≤ t.lines.length
  within : column ≤ (t.lines.getD (line - 1) []).length

/-- Every place in a text lies on one of its lines. -/
theorem Position.PlacedIn.on_line {t : Text} {p : Position} (h : p.PlacedIn t) :
    ∃ line column, p.OnLine t line column := by
  obtain ⟨before, behind, rfl, hoffset, hline, hcolumn⟩ := h
  obtain ⟨l, ls, hlines⟩ := behind.lines_eq_cons
  obtain ⟨above, start, heq, habove, hstart, whole⟩ := Text.lines_append before hlines
  have hlength := congrArg List.length whole
  rw [List.length_append] at hlength
  refine ⟨above.length + 1, start.length, ?_, ?_, ?_, Nat.le_add_left 1 _, ?_, ?_⟩
  · omega
  · omega
  · rw [Text.lineStart, heq, Nat.add_sub_cancel, List.take_left, hoffset, ← hlength,
      Int.natCast_add]
  · rw [heq, List.length_append, List.length_cons]
    omega
  · rw [heq, Nat.add_sub_cancel]
    simp

end RelationNotation
