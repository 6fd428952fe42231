import RelationNotation.Text.Basic

/-!
Markup: text with styles, each switched on and off by its name in brackets. Text that would itself
be read as such a name has a backslash before it.
-/

namespace RelationNotation

/-- How a piece of a label looks. -/
inductive Style where
  | bold | dim | green | cyan | yellow
  deriving DecidableEq

def Style.name : Style → Text
  | .bold => "bold".toList
  | .dim => "dim".toList
  | .green => "green".toList
  | .cyan => "cyan".toList
  | .yellow => "yellow".toList

/-- A piece of a label. -/
structure Segment where
  style : Option Style
  text : Text
  deriving DecidableEq

abbrev Label := List Segment

namespace Markup

/-- Whether the text behind an opening bracket makes it the start of a style's name: a small letter
or one of `#`, `/` and `@`, then a closing bracket before the next opening one. -/
def opensName : Text → Bool
  | [] => false
  | c :: cs =>
    (c.isLower || c == '#' || c == '/' || c == '@') && (cs.takeWhile (· != '[')).contains ']'

/-- Text as it is written between styles, given the number of backslashes just before it. A bracket
that would start a name gets a backslash, and the backslashes before it are doubled. -/
def escapeFrom (slashes : Nat) : Text → Text
  | [] => []
  | c :: cs =>
    if c = '\\' then c :: escapeFrom (slashes + 1) cs
    else if c = '[' ∧ opensName cs then
      List.replicate (slashes + 1) '\\' ++ c :: escapeFrom 0 cs
    else c :: escapeFrom 0 cs

def escape (t : Text) : Text := escapeFrom 0 t

end Markup

/-- A piece of a label with its style's name before and behind it. -/
def Segment.markup (s : Segment) : Text :=
  match s.style with
  | none => Markup.escape s.text
  | some style =>
    '[' :: style.name ++ ']' :: Markup.escape s.text ++ '[' :: '/' :: style.name ++ [']']

namespace Label

def markup (l : Label) : Text := l.flatMap Segment.markup

def plain (l : Label) : Text := l.flatMap Segment.text

end Label

end RelationNotation
