import RelationNotation.Proofs.Token.Unclosed

/-!
Two texts with a newline between them. Unless the first ends within a string or a comment that is
never closed, its tokens stay as they are, blanks at its end grow over the newline, and the second
text is scanned as it would be by itself.
-/

namespace RelationNotation

open Token

/-! ### Tokens of two texts -/

/-- A token of blanks. -/
def Token.IsBlank (t : Token) : Prop := t.kind = .whitespace ∧ t.fault = none

/-- A text scanned by itself, and the same text with a newline and another text behind it,
give the same tokens up to the blanks around that newline. -/
structure Joins (m : ScanMode) (p : Position) (a : Text) (ts blanks : List Token) : Prop where
  alone : scanFrom m p a = ts ++ blanks ++ [.endOfInput (p.after a)]
  blank : ∀ t ∈ blanks, t.IsBlank
  joined : ∀ v, ∃ w : Token, w.IsBlank ∧
    w.span.start.offset ≤ (p.after a).offset ∧ (p.after a).offset < w.span.stop.offset ∧
    scanFrom m p (a ++ '\n' :: v) = ts ++ w ::
      scanFrom (m.afterAll ts) ((p.after (a ++ ['\n'])).after (v.takeWhile isBlank))
        (v.dropWhile isBlank)

/-- A text ends within a string or a comment that is never closed, and a newline and a semicolon do
not close it. -/
def StaysOpen (m : ScanMode) (p : Position) (a : Text) : Prop :=
  ∃ ts e e', scanFrom m p a = ts ++ [e, .endOfInput (p.after a)] ∧
    scanFrom m p (a ++ ['\n', ';']) = ts ++ [e', .endOfInput (p.after (a ++ ['\n', ';']))] ∧
    e.kind = .error ∧ e'.kind = .error

section
variable {m : ScanMode} {p : Position}

/-- Blanks at the end of a text grow over the newline and the blanks behind it. -/
theorem scanFrom_blanks {s : Text} (hs : ∀ c ∈ s, isBlank c) (v : Text) :
    scanFrom m p (s ++ '\n' :: v) =
      (⟨.whitespace, s ++ '\n' :: v.takeWhile isBlank, none⟩ : Lexeme).toToken p ::
        scanFrom m ((p.after (s ++ ['\n'])).after (v.takeWhile isBlank)) (v.dropWhile isBlank) := by
  have htake : (s ++ '\n' :: v).takeWhile isBlank = s ++ '\n' :: v.takeWhile isBlank := by
    rw [List.takeWhile_append_of_pos hs, List.takeWhile_cons_of_pos isBlank_newline]
  have hdrop : (s ++ '\n' :: v).dropWhile isBlank = v.dropWhile isBlank := by
    rw [List.dropWhile_append_of_pos hs, List.dropWhile_cons_of_pos isBlank_newline]
  rw [← htake, ← hdrop, ← Position.after_append, List.append_assoc, List.singleton_append, ← htake]
  cases s with
  | nil => exact scanFrom_blank isBlank_newline v
  | cons c cs => exact scanFrom_blank (hs c List.mem_cons_self) _

theorem joins_of_blank {s : Text} {blanks : List Token} (hs : ∀ c ∈ s, isBlank c)
    (alone : scanFrom m p s = blanks ++ [.endOfInput (p.after s)])
    (blank : ∀ t ∈ blanks, t.IsBlank) : Joins m p s [] blanks where
  alone := alone
  blank := blank
  joined v := by
    refine ⟨_, ⟨rfl, rfl⟩, ?_, ?_, scanFrom_blanks hs v⟩
    · simp only [Lexeme.toToken, Position.offset_after]
      omega
    · simp only [Lexeme.toToken, Position.offset_after, List.length_append, List.length_cons]
      omega

/-- A lexeme that nothing behind the text can change, before a text that joins. -/
theorem Joins.cons {c : Char} {cs rest : Text} {l : Lexeme} {ts blanks : List Token}
    (hsplit : c :: cs = l.text ++ rest)
    (hl : lexeme m.awaited (p.offset == 0) c cs = l)
    (hl' : ∀ v, lexeme m.awaited (p.offset == 0) c (cs ++ '\n' :: v) = l)
    (h : Joins (m.after l.kind) (p.after l.text) rest ts blanks) :
    Joins m p (c :: cs) (l.toToken p :: ts) blanks := by
  have hplace : (p.after l.text).after rest = p.after (c :: cs) := by
    rw [hsplit, Position.after_append]
  have hdrop (v : Text) : (c :: (cs ++ v)).drop l.text.length = rest ++ v := by
    rw [← List.cons_append, hsplit, List.append_assoc, List.drop_left]
  refine ⟨?_, h.blank, fun v => ?_⟩
  · have hdrop := hdrop []
    rw [List.append_nil, List.append_nil] at hdrop
    rw [scanFrom]
    simp only [hl, hdrop, h.alone, hplace, List.cons_append]
  · obtain ⟨w, hw, hstart, hstop, joined⟩ := h.joined v
    rw [hplace] at hstart hstop
    refine ⟨w, hw, hstart, hstop, ?_⟩
    have hline : (p.after l.text).after (rest ++ ['\n']) = p.after (c :: cs ++ ['\n']) := by
      rw [hsplit, List.append_assoc, Position.after_append _ l.text]
    rw [List.cons_append, scanFrom]
    simp only [hl', hdrop, joined, hline]
    rfl

theorem StaysOpen.cons {c : Char} {cs rest : Text} {l : Lexeme}
    (hsplit : c :: cs = l.text ++ rest)
    (hl : lexeme m.awaited (p.offset == 0) c cs = l)
    (hl' : ∀ v, lexeme m.awaited (p.offset == 0) c (cs ++ '\n' :: v) = l)
    (h : StaysOpen (m.after l.kind) (p.after l.text) rest) : StaysOpen m p (c :: cs) := by
  obtain ⟨ts, e, e', alone, joined, he, he'⟩ := h
  have hplace (v : Text) : (p.after l.text).after (rest ++ v) = p.after (c :: cs ++ v) := by
    rw [hsplit, List.append_assoc, Position.after_append _ l.text]
  have hdrop (v : Text) : (c :: (cs ++ v)).drop l.text.length = rest ++ v := by
    rw [← List.cons_append, hsplit, List.append_assoc, List.drop_left]
  refine ⟨l.toToken p :: ts, e, e', ?_, ?_, he, he'⟩
  · have hdrop := hdrop []
    have hplace := hplace []
    simp only [List.append_nil] at hdrop hplace
    rw [scanFrom]
    simp only [hl, hdrop, alone, hplace, List.cons_append]
  · rw [List.cons_append, scanFrom]
    simp only [hl', hdrop, joined, hplace, List.cons_append]

end

theorem staysOpen_of_isOpen {m : ScanMode} {p : Position} {c : Char} {cs : Text}
    (h : (lexeme m.awaited (p.offset == 0) c cs).IsOpen) : StaysOpen m p (c :: cs) := by
  have h' : (lexeme m.awaited (p.offset == 0) c (cs ++ ['\n', ';'])).IsOpen :=
    h.append (breaks_newline _).startsBlank (by decide) (by decide)
  exact ⟨[], _, _, scanFrom_of_isOpen h, scanFrom_of_isOpen h',
    (Lexeme.isOpen_lexeme h).2, (Lexeme.isOpen_lexeme h').2⟩

theorem joins_or_staysOpen (m : ScanMode) (p : Position) (a : Text) :
    (∃ ts blanks, Joins m p a ts blanks) ∨ StaysOpen m p a := by
  fun_induction scanFrom m p a with
  | case1 m p =>
    have alone : scanFrom m p [] = [] ++ [.endOfInput (p.after [])] := by rw [scanFrom]; rfl
    exact .inl ⟨[], [], joins_of_blank (by simp) alone (by simp)⟩
  | case2 m p c cs l ih =>
    have hsplit : l.text ++ (c :: cs).drop l.text.length = c :: cs := Lexeme.lexeme_append_drop ..
    by_cases hopen : l.IsOpen
    · exact .inr (staysOpen_of_isOpen hopen)
    by_cases hblank : isBlank c ∧ l.text.length = 1 + cs.length
    · have hl : l = ⟨.whitespace, (c :: cs).takeWhile isBlank, none⟩ :=
        Lexeme.lexeme_of_blank hblank.1 ..
      have hrest : (c :: cs).drop l.text.length = [] :=
        List.drop_eq_nil_of_le (by rw [hblank.2, List.length_cons]; omega)
      have hall : l.text = c :: cs := by rwa [hrest, List.append_nil] at hsplit
      have hs : ∀ d ∈ c :: cs, isBlank d := by
        rw [← hall, hl]
        exact fun d hd => List.all_eq_true.1 List.all_takeWhile d hd
      have alone : scanFrom m p (c :: cs) = [l.toToken p] ++ [.endOfInput (p.after (c :: cs))] := by
        rw [scanFrom]
        simp only [show lexeme m.awaited (p.offset == 0) c cs = l from rfl, hall, List.drop_length]
        rw [scanFrom]
        rfl
      refine .inl ⟨[], _, joins_of_blank hs alone ?_⟩
      simp [hl, Lexeme.toToken, IsBlank]
    · have hlen : l.text.length ≤ 1 + cs.length := by
        have := congrArg List.length hsplit
        rw [List.length_append, List.length_cons] at this
        omega
      have hl (v : Text) : lexeme m.awaited (p.offset == 0) c (cs ++ '\n' :: v) = l := by
        have := @Lexeme.lexeme_recut cs ('\n' :: v) [] m.awaited (p.offset == 0) (p.offset == 0) c
          (fun _ => rfl)
        rw [List.append_nil] at this
        exact this hlen (fun hc => Nat.lt_of_le_of_ne hlen (not_and.1 hblank hc))
          (fun _ => .inr (breaks_newline v)) hopen (breaks_newline v).startsBlank
      rcases ih with ⟨ts, blanks, joins⟩ | staysOpen
      · exact .inl ⟨_, _, joins.cons hsplit.symm rfl hl⟩
      · exact .inr (staysOpen.cons hsplit.symm rfl hl)

end RelationNotation
