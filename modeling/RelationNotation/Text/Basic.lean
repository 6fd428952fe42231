/-!
Text is a list of characters, so that offsets, columns and lengths count characters. Only the
newline character ends a line. `joinLines_lines` states that cutting a text into lines loses
nothing.
-/

namespace RelationNotation

abbrev Text := List Char

namespace Text

/-- The part of a text from one offset up to, but not including, another. -/
def slice (t : Text) (start stop : Nat) : Text := (t.take stop).drop start

def consFirst (c : Char) : List Text → List Text
  | [] => [[c]]
  | l :: ls => (c :: l) :: ls

/-- The lines of a text, without their newlines; a text has one line more than it has newlines. -/
def lines : Text → List Text
  | [] => [[]]
  | c :: cs => if c = '\n' then [] :: lines cs else consFirst c (lines cs)

def joinLines : List Text → Text
  | [] => []
  | [l] => l
  | l :: ls => l ++ '\n' :: joinLines ls

theorem consFirst_ne_nil (c : Char) (ls : List Text) : consFirst c ls ≠ [] := by
  cases ls <;> simp [consFirst]

theorem lines_ne_nil (t : Text) : lines t ≠ [] := by
  cases t with
  | nil => simp [lines]
  | cons c cs =>
    rw [lines]
    split
    · simp
    · exact consFirst_ne_nil c _

theorem joinLines_consFirst (c : Char) {ls : List Text} (h : ls ≠ []) :
    joinLines (consFirst c ls) = c :: joinLines ls := by
  match ls, h with
  | [l], _ => simp [consFirst, joinLines]
  | l :: m :: ls, _ => simp [consFirst, joinLines]

theorem joinLines_nil_cons {ls : List Text} (h : ls ≠ []) :
    joinLines ([] :: ls) = '\n' :: joinLines ls := by
  cases ls with
  | nil => exact absurd rfl h
  | cons l ls => simp [joinLines]

theorem joinLines_lines (t : Text) : joinLines (lines t) = t := by
  induction t with
  | nil => rfl
  | cons c cs ih =>
    rw [lines]
    split
    next h => rw [joinLines_nil_cons (lines_ne_nil cs), ih, h]
    next h => rw [joinLines_consFirst c (lines_ne_nil cs), ih]

end Text

end RelationNotation
