import RelationNotation.Source.Position

/-!
Spans of a source text: the stretch from one position up to, but not including, another.
-/

namespace RelationNotation

/-- A stretch of a text. -/
structure Span where
  start : Position
  stop : Position
  deriving DecidableEq, Inhabited

namespace Span

def toText (s : Span) : String :=
  s!"{s.start.line}:{s.start.column}-{s.stop.line}:{s.stop.column}"

/-- How many characters a span holds; negative if its ends are out of order. -/
def length (s : Span) : Int := s.stop.offset - s.start.offset

/-- Whether another span lies inside this one; the ends may coincide. -/
def contains (s t : Span) : Bool :=
  s.start.offset ≤ t.start.offset && t.stop.offset ≤ s.stop.offset

/-- The smallest span around two spans; of two equal ends the first span's is taken. -/
def cover (s t : Span) : Span where
  start := if s.start.offset ≤ t.start.offset then s.start else t.start
  stop := if s.stop.offset ≥ t.stop.offset then s.stop else t.stop

def slice (s : Span) (t : Text) : Text := t.slice s.start.offset.toNat s.stop.offset.toNat

theorem contains_iff {s t : Span} :
    s.contains t = true ↔ s.start.offset ≤ t.start.offset ∧ t.stop.offset ≤ s.stop.offset := by
  simp [contains]

theorem contains_trans {s t u : Span} (h₁ : s.contains t) (h₂ : t.contains u) : s.contains u := by
  rw [contains_iff] at *
  omega

end Span

end RelationNotation
