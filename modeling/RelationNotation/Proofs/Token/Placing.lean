import RelationNotation.Proofs.Token.Fault
import RelationNotation.Proofs.Token.Significant

/-!
Writing tokens. A text made of the texts of tokens, each in a place where what follows does not lead
on, is scanned as these tokens, without errors; blanks between them make no difference.
-/

namespace RelationNotation

open Token

/-! ### Characters that end every token -/

/-- Characters at which every token before them ends. -/
def separators : List Char := [' ', '\n', ']', ')', '}', ',', ';', '\x27']

/-- Nothing, or a text at which every token before it ends. -/
def Separates (v : Text) : Prop := ∀ d ∈ v.head?, d ∈ separators

/-- Characters that never join the character behind them. -/
def loneChars : List Char := ['\x27', '[', ']', '{', '}', ')', ',', ';', '+']

theorem joins_of_loneChar {c : Char} (h : c ∈ loneChars) (d : Char) : joins c d = false := by
  simp only [loneChars, List.mem_cons, List.not_mem_nil, or_false] at h
  rcases h with rfl | rfl | rfl | rfl | rfl | rfl | rfl | rfl | rfl <;>
    simp [joins, Lexeme.twoChars]

theorem joins_of_separator (c : Char) {d : Char} (h : d ∈ separators) : joins c d = false := by
  simp only [separators, List.mem_cons, List.not_mem_nil, or_false] at h
  have none : Lexeme.twoChars c d = none := by
    rcases h with rfl | rfl | rfl | rfl | rfl | rfl | rfl | rfl <;> unfold Lexeme.twoChars <;>
      split <;> simp_all
  rcases h with rfl | rfl | rfl | rfl | rfl | rfl | rfl | rfl <;> simp [joins, none]

theorem not_isStringChar_of_separator {d : Char} (h : d ∈ separators) : ¬ isStringChar d := by
  have table : separators.all (fun d => !isStringChar d) := by decide
  simpa using List.all_eq_true.1 table d h

namespace TokenKind

/-- Kinds of punctuation that never join the character behind them. -/
def loners : List TokenKind :=
  [.quote, .includeOpen, .fycoideOpen, .protoOpen, .leftBracket, .rightBracket, .leftBrace,
    .rightBrace, .rightParen, .comma, .semicolon, .shape, .hold, .shift, .flow, .melt, .synonym,
    .prefixMark, .plus]

theorem stopsAt_of_loner {k : TokenKind} (h : k ∈ loners) (v : Text) : k.StopsAt v := by
  have table : ∀ k ∈ loners, k.text.toList.length = 1 → k.text.toList.all (· ∈ loneChars) := by
    decide
  have alone : ∀ c, k.text.toList = [c] → ∀ d ∈ v.head?, joins c d = false := by
    intro c hc d _
    have hall := table k h (by rw [hc]; rfl)
    rw [hc] at hall
    exact joins_of_loneChar (by simpa using hall) d
  simp only [loners, List.mem_cons, List.not_mem_nil, or_false] at h
  rcases h with rfl | rfl | rfl | rfl | rfl | rfl | rfl | rfl | rfl | rfl | rfl | rfl | rfl | rfl |
    rfl | rfl | rfl | rfl | rfl
  all_goals exact alone

theorem stopsAt_of_separates {k : TokenKind} {v : Text} (h : Separates v) : k.StopsAt v := by
  have chars : ∀ d ∈ v.head?, ¬ isStringChar d := fun d hd => not_isStringChar_of_separator (h d hd)
  cases k
  case quotedString => trivial
  case dashComment => exact fun d hd he => absurd (he ▸ h d hd) (by decide)
  case identifier => exact chars
  case unicodeString => exact chars
  case integer => exact chars
  case float => exact chars
  case underscore => exact chars
  all_goals exact fun c _ d hd => joins_of_separator c (h d hd)

theorem Fits.ne_nil {k : TokenKind} {m : ScanMode} {t : Text} (h : k.Fits m.awaited t)
    (hk : m.takes k) : t ≠ [] := by
  rintro rfl
  cases k
  case whitespace => exact absurd hk (by simp [ScanMode.takes, isTrivia])
  case lineComment => exact absurd hk (by simp [ScanMode.takes, isTrivia])
  case error => exact absurd hk (by simp [ScanMode.takes, isTrivia])
  case quotedString => obtain ⟨body, hbody, -⟩ := h; cases hbody
  case dashComment => obtain ⟨body, hbody, -⟩ := h; cases hbody
  case identifier => exact absurd h.1 (by simp [isWord])
  case unicodeString => exact h.2.1 rfl
  case integer => exact h.2.1 rfl
  case float => obtain ⟨-, whole, fraction, ht, -⟩ := h; simp at ht
  case endOfInput => exact h
  all_goals exact absurd h.1 (by decide)

end TokenKind

/-! ### Tokens set in a row -/

namespace Token

def form (t : Token) : TokenKind × Text := (t.kind, t.text)

/-- A token set at another place. -/
def placedAt (t : Token) (p : Position) : Token := ⟨t.kind, t.text, ⟨p, p.after t.text⟩, none⟩

end Token

/-- A token that fits its kind is scanned as itself, wherever what follows does not lead on. -/
theorem scanFrom_token {m : ScanMode} {t : Token} {v : Text} (p : Position)
    (htakes : m.takes t.kind) (fits : t.kind.Fits m.awaited t.text) (stops : t.kind.StopsAt v) :
    scanFrom m p (t.text ++ v) =
      t.placedAt p :: scanFrom (m.after t.kind) (p.after t.text) v := by
  cases htext : t.text with
  | nil => exact absurd htext (fits.ne_nil htakes)
  | cons c cs =>
    rw [htext] at fits
    have hl := Lexeme.lexeme_of_fits fits (ScanMode.not_trivia_of_takes htakes) stops
      (p.offset == 0)
    have hdrop : (c :: (cs ++ v)).drop (c :: cs).length = v := by
      rw [← List.cons_append, List.drop_left]
    rw [List.cons_append, scanFrom]
    simp only [hl]
    rw [hdrop, placedAt, htext]
    rfl

theorem significantFrom_token {m : ScanMode} {t : Token} {v : Text} (p : Position)
    (htakes : m.takes t.kind) (fits : t.kind.Fits m.awaited t.text) (stops : t.kind.StopsAt v) :
    significantFrom m p (t.text ++ v) =
      t.placedAt p :: significantFrom (m.after t.kind) (p.after t.text) v := by
  rw [significantFrom, scanFrom_token p htakes fits stops, structuralIn]
  exact if_pos htakes

/-- A blank lengthens the blanks behind it, or stands for itself. -/
theorem scanFrom_behind_blank {m : ScanMode} {c : Char} (v : Text) (p : Position)
    (hc : isBlank c) : ∃ t ts, t.kind = .whitespace ∧ scanFrom m p (c :: v) = t :: ts ∧
      (scanFrom m (p.next c) v = ts ∨
        ∃ u, u.kind = .whitespace ∧ scanFrom m (p.next c) v = u :: ts) := by
  rw [scanFrom_blank hc, List.takeWhile_cons_of_pos hc, List.dropWhile_cons_of_pos hc,
    Position.after_cons]
  refine ⟨_, _, rfl, rfl, ?_⟩
  cases v with
  | nil => exact .inl rfl
  | cons d ds =>
    by_cases hd : isBlank d
    · rw [scanFrom_blank hd]
      exact .inr ⟨_, rfl, rfl⟩
    · rw [List.takeWhile_cons_of_neg hd, List.dropWhile_cons_of_neg hd]
      exact .inl rfl

namespace Token

/-- The tokens of a list other than blanks and line comments: those that can make a difference to
what is structural or wrong. -/
def withoutGaps (ts : List Token) : List Token :=
  ts.filter fun t => t.kind ∉ [.whitespace, .lineComment]

theorem withoutGaps_append (ts us : List Token) :
    withoutGaps (ts ++ us) = withoutGaps ts ++ withoutGaps us := List.filter_append ts us

theorem withoutGaps_cons {t : Token} (h : t.kind ∉ [.whitespace, .lineComment]) (ts : List Token) :
    withoutGaps (t :: ts) = t :: withoutGaps ts := List.filter_cons_of_pos (by simpa using h)

theorem withoutGaps_cons_gap {t : Token} (h : t.kind ∈ [.whitespace, .lineComment])
    (ts : List Token) : withoutGaps (t :: ts) = withoutGaps ts :=
  List.filter_cons_of_neg (by simp only [h, not_true, decide_false, Bool.false_eq_true, not_false_iff])

theorem structuralIn_withoutGaps (m : ScanMode) (ts : List Token) :
    structuralIn m (withoutGaps ts) = structuralIn m ts := by
  induction ts generalizing m with
  | nil => rfl
  | cons t ts ih =>
    by_cases h : t.kind ∈ [.whitespace, .lineComment]
    · rw [withoutGaps_cons_gap h, ih, structuralIn, if_neg]
      exact fun ht => ScanMode.not_trivia_of_takes ht (List.mem_append_left [TokenKind.error] h)
    · rw [withoutGaps_cons h, structuralIn, structuralIn, ih, ih]

theorem errors_withoutGaps (ts : List Token) : errors (withoutGaps ts) = errors ts := by
  rw [errors, withoutGaps, List.filter_filter]
  refine List.filter_congr fun t _ => ?_
  cases t.kind <;> rfl

end Token

/-- A blank between tokens makes no difference but to blanks. -/
theorem withoutGaps_behind_blank {m : ScanMode} {c : Char} (v : Text) (p : Position)
    (hc : isBlank c) :
    withoutGaps (scanFrom m p (c :: v)) = withoutGaps (scanFrom m (p.next c) v) := by
  have drops {t : Token} (ht : t.kind = .whitespace) (ts : List Token) :
      withoutGaps (t :: ts) = withoutGaps ts := withoutGaps_cons_gap (by simp [ht]) ts
  obtain ⟨t, ts, ht, hwhole, hrest | ⟨u, hu, hrest⟩⟩ := scanFrom_behind_blank (m := m) v p hc
  · rw [hwhole, hrest, drops ht]
  · rw [hwhole, hrest, drops ht, drops hu]

theorem withoutGaps_behind_blanks {m : ScanMode} {w : Text} (v : Text) (p : Position)
    (hw : ∀ c ∈ w, isBlank c) :
    withoutGaps (scanFrom m p (w ++ v)) = withoutGaps (scanFrom m (p.after w) v) := by
  induction w generalizing p with
  | nil => rfl
  | cons c w ih =>
    rw [List.cons_append, withoutGaps_behind_blank _ _ (hw c List.mem_cons_self),
      ih _ fun d hd => hw d (List.mem_cons_of_mem c hd), Position.after_cons]

theorem significantFrom_blank {m : ScanMode} {c : Char} (v : Text) (p : Position)
    (hc : isBlank c) :
    significantFrom m p (c :: v) = significantFrom m (p.next c) v := by
  rw [significantFrom, ← structuralIn_withoutGaps, withoutGaps_behind_blank v p hc,
    structuralIn_withoutGaps, significantFrom]

theorem errors_behind_blank {m : ScanMode} {c : Char} (v : Text) (p : Position)
    (hc : isBlank c) :
    errors (scanFrom m p (c :: v)) = errors (scanFrom m (p.next c) v) := by
  rw [← errors_withoutGaps, withoutGaps_behind_blank v p hc, errors_withoutGaps]

end RelationNotation
