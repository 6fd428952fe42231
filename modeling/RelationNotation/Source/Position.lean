import RelationNotation.Text.Basic

/-!
Positions in a source text: offset, line and column of a place between two characters. Offsets
count from 0, lines and columns from 1. `Position.after_append` lets positions be computed piece
by piece; `offset_after` and `line_after` say how far a text moves a position.
-/

namespace RelationNotation

/-- A place in a text. Positions read from stored trees may be any integers. -/
structure Position where
  offset : Int
  line : Int
  column : Int
  deriving DecidableEq, Inhabited

namespace Position

def start : Position := ⟨0, 1, 1⟩

def next (p : Position) (c : Char) : Position :=
  if c = '\n' then ⟨p.offset + 1, p.line + 1, 1⟩ else ⟨p.offset + 1, p.line, p.column + 1⟩

def after (p : Position) (t : Text) : Position := t.foldl next p

@[simp] theorem after_nil (p : Position) : p.after [] = p := rfl

@[simp] theorem after_cons (p : Position) (c : Char) (t : Text) :
    p.after (c :: t) = (p.next c).after t := rfl

theorem after_append (p : Position) (s t : Text) : p.after (s ++ t) = (p.after s).after t :=
  List.foldl_append

@[simp] theorem offset_next (p : Position) (c : Char) : (p.next c).offset = p.offset + 1 := by
  unfold next; split <;> rfl

theorem offset_after (p : Position) (t : Text) : (p.after t).offset = p.offset + t.length := by
  induction t generalizing p with
  | nil => simp
  | cons c t ih => simp only [after_cons, ih, offset_next, List.length_cons]; omega

theorem line_after (p : Position) (t : Text) : (p.after t).line = p.line + t.count '\n' := by
  induction t generalizing p with
  | nil => simp
  | cons c t ih =>
    rw [after_cons, ih]
    by_cases h : c = '\n' <;> simp [next, h]
    omega

end Position

end RelationNotation
