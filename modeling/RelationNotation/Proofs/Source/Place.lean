import Mathlib.Data.List.Induction
import RelationNotation.Source.Span
import RelationNotation.Token.Scan

/-!
Places in a text. The position of a place follows from the text in front of it: its line is one more
than the newlines there, its column is one more than the characters behind the last of them. The
scanner's positions are of this kind: `placed_scan`.
-/

namespace RelationNotation

/-- The position is that of a place in a text. -/
def Position.PlacedIn (source : Text) (p : Position) : Prop :=
  ∃ before behind, source = before ++ behind ∧ p.offset = before.length ∧
    p.line = 1 + before.count '\n' ∧
    p.column = 1 + (before.reverse.takeWhile (· ≠ '\n')).length

/-- Both ends of the span are places in a text. -/
def Span.PlacedIn (source : Text) (s : Span) : Prop :=
  s.start.PlacedIn source ∧ s.stop.PlacedIn source

theorem Position.column_start_after (t : Text) :
    (Position.start.after t).column = 1 + (t.reverse.takeWhile (· ≠ '\n')).length := by
  induction t using List.reverseRecOn with
  | nil => rfl
  | append_singleton t c ih =>
    rw [after_append, after_cons, after_nil, next, List.reverse_append]
    by_cases hc : c = '\n'
    · simp [hc]
    · rw [if_neg hc]
      simp [hc, ih]
      omega

theorem offset_start_after (t : Text) : (Position.start.after t).offset = t.length := by
  rw [Position.offset_after]
  exact Int.zero_add _

theorem slice_middle {a raw b : Text} {span : Span} (hstart : span.start.offset = a.length)
    (hstop : span.stop.offset = (a ++ raw).length) : span.slice (a ++ raw ++ b) = raw := by
  rw [Span.slice, Text.slice, hstart, hstop, Int.toNat_natCast, Int.toNat_natCast,
    List.take_left, List.drop_left]

/-- Where the first part of a text ends is a place in the text. -/
theorem Position.placed_after (before behind : Text) :
    (Position.start.after before).PlacedIn (before ++ behind) := by
  refine ⟨before, behind, rfl, ?_, line_after .start before, column_start_after before⟩
  rw [offset_after]
  exact Int.zero_add _

theorem Position.PlacedIn.within {source : Text} {p : Position} (h : p.PlacedIn source) :
    0 ≤ p.offset ∧ p.offset ≤ source.length := by
  obtain ⟨before, behind, rfl, hoffset, -, -⟩ := h
  rw [hoffset, List.length_append]
  omega

/-- Both ends of every token are places in the text. -/
theorem placed_scanFrom (m : ScanMode) (before behind : Text) :
    ∀ t ∈ scanFrom m (Position.start.after before) behind,
      t.span.PlacedIn (before ++ behind) := by
  generalize hp : Position.start.after before = p
  fun_induction scanFrom m p behind generalizing before with
  | case1 m p =>
    intro t ht
    rw [List.mem_singleton.1 ht, ← hp]
    exact ⟨Position.placed_after before [], Position.placed_after before []⟩
  | case2 m p c cs l ih =>
    have hsplit : l.text ++ (c :: cs).drop l.text.length = c :: cs :=
      Lexeme.lexeme_append_drop m.awaited (p.offset == 0) c cs
    have hstop : Position.start.after (before ++ l.text) = p.after l.text := by
      rw [Position.after_append, hp]
    have rest := ih (before ++ l.text) hstop
    rw [List.append_assoc, hsplit] at rest
    refine List.forall_mem_cons.2 ⟨⟨?_, ?_⟩, rest⟩
    · rw [show (l.toToken p).span.start = p from rfl, ← hp]
      exact Position.placed_after before (c :: cs)
    · rw [show (l.toToken p).span.stop = p.after l.text from rfl, ← hstop, ← hsplit,
        ← List.append_assoc]
      exact Position.placed_after (before ++ l.text) _

theorem placed_scan (source : Text) : ∀ t ∈ scan source, t.span.PlacedIn source :=
  placed_scanFrom {} [] source

end RelationNotation
