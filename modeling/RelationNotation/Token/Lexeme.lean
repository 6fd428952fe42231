import RelationNotation.Text.Blank
import RelationNotation.Token.Basic

/-!
The first lexeme of a text. Trivia and comments are recognised first; then, where a string is
awaited, the longest run of string characters; then the longest word, number or punctuation.
`covers_lexeme` states that a lexeme is a non-empty initial part of the text.
-/

namespace RelationNotation

/-- What the scanner awaits: right behind an opening quote or `#(` a string, right behind `#[` an
include file, elsewhere any token. -/
inductive Awaited where
  | token | string | file
  deriving DecidableEq, Inhabited

/-- A token without its place. -/
structure Lexeme where
  kind : TokenKind
  text : Text
  fault : Option ScanFault := none
  deriving DecidableEq, Inhabited

/-- The character that may stand, as a blank, at the very start of a text. -/
def byteOrderMark : Char := '\uFEFF'

def isWordStart (c : Char) : Bool := c.isAlpha || c == '_'

def isWordChar (c : Char) : Bool := c.isAlphanum || c == '_' || c == '-'

/-- Whether a character may stand in a string: ASCII letters and digits, `_`, `-`, `.` and the
ideographs from U+4E00 to U+9FA5. -/
def isStringChar (c : Char) : Bool :=
  isWordChar c || c == '.' || (0x4E00 ≤ c.toNat && c.toNat ≤ 0x9FA5)

def isWord : Text → Bool
  | [] => false
  | c :: cs => isWordStart c && cs.all isWordChar

namespace Lexeme

/-- The length of a dash comment's rest, closing fence included, behind a number of dashes in a
row. -/
def commentRest (run : Nat) : Text → Except ScanFault Nat
  | [] => if run = 4 then .ok 0 else .error .unclosedComment
  | c :: cs =>
    if c = '-' then
      if run = 4 then .error .longDashRun else (commentRest (run + 1) cs).map (· + 1)
    else if run = 4 then .ok 0
    else (commentRest 0 cs).map (· + 1)

/-- The dash comment that starts with a fence, given the text behind the fence. -/
def dashComment (body : Text) : Lexeme :=
  match commentRest 0 body with
  | .ok n => ⟨.dashComment, dashFence ++ body.take n, none⟩
  | .error fault => ⟨.error, dashFence ++ body, some fault⟩

/-- The length of a quoted string's rest, closing quote included; a backslash hides the next
character. -/
def stringRest : Text → Option Nat
  | [] => none
  | '"' :: _ => some 1
  | '\\' :: _ :: cs => (stringRest cs).map (· + 2)
  | _ :: cs => (stringRest cs).map (· + 1)

/-- The quoted string that starts with a double quote, given the text behind the quote. -/
def quotedString (body : Text) : Lexeme :=
  match stringRest body with
  | some n => ⟨.quotedString, '"' :: body.take n, none⟩
  | none => ⟨.error, '"' :: body, some .unclosedString⟩

def string (t : Text) : Lexeme :=
  let run := t.takeWhile isStringChar
  ⟨if isWord run then .identifier else .unicodeString, run, none⟩

def word (t : Text) : Lexeme :=
  let run := t.takeWhile isWordChar
  ⟨if run = ['_'] then .underscore else .identifier, run, none⟩

/-- A number: digits, and behind a point, if digits follow it, more digits. -/
def number (t : Text) : Lexeme :=
  let whole := t.takeWhile Char.isDigit
  match t.dropWhile Char.isDigit with
  | '.' :: rest =>
    match rest.takeWhile Char.isDigit with
    | [] => ⟨.integer, whole, none⟩
    | fraction => ⟨.float, whole ++ '.' :: fraction, none⟩
  | _ => ⟨.integer, whole, none⟩

def twoChars : Char → Char → Option TokenKind
  | '#', '[' => some .includeOpen
  | '#', '(' => some .fycoideOpen
  | '*', '[' => some .protoOpen
  | ':', ':' => some .shape
  | '<', '-' => some .hold
  | '<', '|' => some .prefixMark
  | '-', '>' => some .shift
  | '>', '>' => some .flow
  | '@', '>' => some .melt
  | '|', '>' => some .synonym
  | _, _ => none

def oneChar : Char → Option TokenKind
  | '[' => some .leftBracket
  | ']' => some .rightBracket
  | '{' => some .leftBrace
  | '}' => some .rightBrace
  | ')' => some .rightParen
  | '\x27' => some .quote
  | '@' => some .atSign
  | '|' => some .pipe
  | '&' => some .amp
  | '?' => some .question
  | '!' => some .bang
  | '=' => some .equals
  | ',' => some .comma
  | '+' => some .plus
  | '-' => some .minus
  | '*' => some .star
  | '/' => some .slash
  | '%' => some .percent
  | ';' => some .semicolon
  | _ => none

def single (c : Char) : Lexeme :=
  match oneChar c with
  | some kind => ⟨kind, [c], none⟩
  | none => ⟨.error, [c], some (.unexpected c)⟩

def punctuation (c : Char) : Text → Lexeme
  | [] => single c
  | d :: _ =>
    match twoChars c d with
    | some kind => ⟨kind, [c, d], none⟩
    | none => single c

def plain (c : Char) (cs : Text) : Lexeme :=
  if isWordStart c then word (c :: cs)
  else if c.isDigit then number (c :: cs)
  else punctuation c cs

def significant (awaited : Awaited) (c : Char) (cs : Text) : Lexeme :=
  if awaited ≠ .token ∧ isStringChar c then string (c :: cs) else plain c cs

end Lexeme

open Lexeme in
/-- The first lexeme of a text that is not empty; `first` tells that the text is the whole text. -/
def lexeme (awaited : Awaited) (first : Bool) (c : Char) (cs : Text) : Lexeme :=
  if first ∧ c = byteOrderMark then ⟨.whitespace, [c], none⟩
  else if isBlank c then ⟨.whitespace, (c :: cs).takeWhile isBlank, none⟩
  else if ['/', '/'].isPrefixOf (c :: cs) then ⟨.lineComment, (c :: cs).takeWhile (· ≠ '\n'), none⟩
  else if dashFence.isPrefixOf (c :: cs) then dashComment (cs.drop 3)
  else if c = '"' then quotedString cs
  else significant awaited c cs

/-! ### A lexeme is an initial part of the text -/

namespace Lexeme

def Covers (l : Lexeme) (t : Text) : Prop := l.text ≠ [] ∧ ∃ rest, t = l.text ++ rest

theorem covers_takeWhile (kind : TokenKind) (fault : Option ScanFault) {p : Char → Bool} {c : Char}
    (cs : Text) (h : p c = true) : Covers ⟨kind, (c :: cs).takeWhile p, fault⟩ (c :: cs) := by
  refine ⟨?_, (c :: cs).dropWhile p, List.takeWhile_append_dropWhile.symm⟩
  simp [h]

theorem covers_take (kind : TokenKind) (fault : Option ScanFault) (c : Char) (s body : Text)
    (n : Nat) : Covers ⟨kind, c :: s ++ body.take n, fault⟩ (c :: s ++ body) :=
  ⟨by simp, body.drop n, by simp⟩

theorem covers_all (kind : TokenKind) (fault : Option ScanFault) (c : Char) (s : Text) :
    Covers ⟨kind, c :: s, fault⟩ (c :: s) := ⟨by simp, [], by simp⟩

theorem covers_first (kind : TokenKind) (fault : Option ScanFault) (c : Char) (cs : Text) :
    Covers ⟨kind, [c], fault⟩ (c :: cs) := ⟨by simp, cs, by simp⟩

theorem covers_dashComment (body : Text) : Covers (dashComment body) (dashFence ++ body) := by
  unfold dashComment
  split
  · exact covers_take _ _ '-' ['-', '-', '-'] body _
  · exact covers_all _ _ '-' (['-', '-', '-'] ++ body)

theorem covers_quotedString (body : Text) : Covers (quotedString body) ('"' :: body) := by
  unfold quotedString
  split
  · exact covers_take _ _ '"' [] body _
  · exact covers_all _ _ '"' body

theorem covers_string {c : Char} (cs : Text) (h : isStringChar c = true) :
    Covers (string (c :: cs)) (c :: cs) := covers_takeWhile _ _ cs h

theorem isWordChar_of_isWordStart {c : Char} (h : isWordStart c = true) : isWordChar c = true := by
  simp only [isWordStart, isWordChar, Char.isAlphanum, Bool.or_eq_true] at *
  rcases h with h | h
  · exact .inl (.inl (.inl h))
  · exact .inl (.inr h)

theorem covers_word {c : Char} (cs : Text) (h : isWordStart c = true) :
    Covers (word (c :: cs)) (c :: cs) :=
  covers_takeWhile _ _ cs (isWordChar_of_isWordStart h)

theorem covers_number {c : Char} (cs : Text) (h : c.isDigit = true) :
    Covers (number (c :: cs)) (c :: cs) := by
  have whole (kind) : Covers ⟨kind, (c :: cs).takeWhile Char.isDigit, none⟩ (c :: cs) :=
    covers_takeWhile _ _ cs h
  unfold number
  split
  next rest hrest =>
    split
    · exact whole _
    · refine ⟨by simp, rest.dropWhile Char.isDigit, ?_⟩
      simp only [List.append_assoc, List.cons_append]
      rw [List.takeWhile_append_dropWhile, ← hrest, List.takeWhile_append_dropWhile]
  next => exact whole _

theorem covers_single (c : Char) (cs : Text) : Covers (single c) (c :: cs) := by
  unfold single
  split <;> exact covers_first _ _ c cs

theorem covers_punctuation (c : Char) (cs : Text) : Covers (punctuation c cs) (c :: cs) := by
  cases cs with
  | nil => exact covers_single c []
  | cons d ds =>
    rw [punctuation]
    split
    · exact ⟨by simp, ds, rfl⟩
    · exact covers_single c (d :: ds)

theorem covers_plain (c : Char) (cs : Text) : Covers (plain c cs) (c :: cs) := by
  unfold plain
  split
  next h => exact covers_word cs h
  next =>
    split
    next h => exact covers_number cs h
    next => exact covers_punctuation c cs

theorem covers_significant (awaited : Awaited) (c : Char) (cs : Text) :
    Covers (significant awaited c cs) (c :: cs) := by
  unfold significant
  split
  next h => exact covers_string cs h.2
  next => exact covers_plain c cs

theorem eq_fence_append {c : Char} {cs : Text} (h : dashFence.isPrefixOf (c :: cs) = true) :
    c :: cs = dashFence ++ cs.drop 3 := by
  obtain ⟨body, hbody⟩ := List.isPrefixOf_iff_prefix.1 h
  rw [← hbody]
  have : cs = ['-', '-', '-'] ++ body := (List.cons.inj hbody).2.symm
  rw [this]
  simp

theorem covers_lexeme (awaited : Awaited) (first : Bool) (c : Char) (cs : Text) :
    Covers (lexeme awaited first c cs) (c :: cs) := by
  unfold lexeme
  split
  next => exact covers_first _ _ c cs
  split
  next h => exact covers_takeWhile _ _ cs h
  split
  next h =>
    have hc : c = '/' := by
      obtain ⟨body, hbody⟩ := List.isPrefixOf_iff_prefix.1 h
      exact (List.cons.inj hbody).1.symm
    exact covers_takeWhile _ _ cs (by simp [hc])
  split
  next h =>
    rw [eq_fence_append h]
    exact covers_dashComment _
  split
  next h => rw [h]; exact covers_quotedString cs
  next => exact covers_significant awaited c cs

theorem length_lexeme_pos (awaited : Awaited) (first : Bool) (c : Char) (cs : Text) :
    0 < (lexeme awaited first c cs).text.length :=
  List.length_pos_iff.2 (covers_lexeme awaited first c cs).1

theorem lexeme_append_drop (awaited : Awaited) (first : Bool) (c : Char) (cs : Text) :
    (lexeme awaited first c cs).text ++
      (c :: cs).drop (lexeme awaited first c cs).text.length = c :: cs := by
  obtain ⟨-, rest, h⟩ := covers_lexeme awaited first c cs
  conv => lhs; rw [h]
  conv => rhs; rw [h]
  simp

end Lexeme

end RelationNotation
