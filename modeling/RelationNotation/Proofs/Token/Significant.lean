import RelationNotation.Proofs.Token.Fit
import RelationNotation.Token.Trivia

/-!
The structural tokens of a text, scanned from any place on. What is structural follows from what the
scanner awaits, so the structural tokens can be taken while scanning, one lexeme at a time:
`significantFrom_cons`. Each of them fits its kind where it stands.
-/

namespace RelationNotation

namespace ScanMode

/-- Whether tokens of a kind are structural where the scanner is. -/
def takes (m : ScanMode) (k : TokenKind) : Bool :=
  !k.isTrivia || (k == .quotedString && m.awaited == .file)

/-- The mode behind tokens of some kinds. -/
def afterAll (m : ScanMode) (ts : List Token) : ScanMode := ts.foldl (fun m t => m.after t.kind) m

@[simp] theorem afterAll_nil (m : ScanMode) : m.afterAll [] = m := rfl

@[simp] theorem afterAll_cons (m : ScanMode) (t : Token) (ts : List Token) :
    m.afterAll (t :: ts) = (m.after t.kind).afterAll ts := rfl

@[simp] theorem afterAll_append (m : ScanMode) (ts us : List Token) :
    m.afterAll (ts ++ us) = (m.afterAll ts).afterAll us := List.foldl_append

/-- Behind a semicolon the scanner awaits any token. -/
theorem afterAll_semicolon (m : ScanMode) {t : Token} (ts : List Token) (h : t.kind = .semicolon) :
    m.afterAll (ts ++ [t]) = {} := by
  rw [afterAll_append, afterAll_cons, afterAll_nil, h]
  rfl

/-- Trivia leaves the mode as it is. -/
theorem after_of_not_takes {m : ScanMode} {k : TokenKind} (h : m.takes k = false) :
    m.after k = m := by
  cases k <;> simp_all [takes, after, TokenKind.isTrivia]

/-- A file is awaited right behind `#[`. -/
theorem awaits_file_iff {m : ScanMode} {k : TokenKind} (h : m.takes k) :
    (m.after k).awaited = .file ↔ k = .includeOpen := by
  cases k
  case quote => by_cases hq : m.quoteOpen <;> simp [after, hq]
  all_goals simp_all [takes, after, TokenKind.isTrivia]

theorem not_trivia_of_takes {m : ScanMode} {k : TokenKind} (h : m.takes k) :
    k ∉ [.whitespace, .lineComment, .error] := by
  rintro hk
  simp only [List.mem_cons, List.not_mem_nil, or_false] at hk
  rcases hk with rfl | rfl | rfl <;> exact absurd h (by simp [takes, TokenKind.isTrivia])

theorem ne_error_of_takes {m : ScanMode} {k : TokenKind} (h : m.takes k) : k ≠ .error := by
  rintro rfl
  cases h

end ScanMode

namespace Token

/-- The structural tokens of a list, given the mode before it. -/
def structuralIn (m : ScanMode) : List Token → List Token
  | [] => []
  | t :: ts =>
    if m.takes t.kind then t :: structuralIn (m.after t.kind) ts else structuralIn m ts

theorem isStructural_eq {previous : Option TokenKind} {m : ScanMode}
    (h : previous = some .includeOpen ↔ m.awaited = .file) (t : Token) :
    isStructural previous t = m.takes t.kind := by
  unfold isStructural ScanMode.takes
  congr 2
  rw [Bool.eq_iff_iff, beq_iff_eq, beq_iff_eq, h]

theorem structuralFrom_eq {previous : Option TokenKind} {m : ScanMode}
    (h : previous = some .includeOpen ↔ m.awaited = .file) (ts : List Token) :
    structuralFrom previous ts = structuralIn m ts := by
  induction ts generalizing previous m with
  | nil => rfl
  | cons t ts ih =>
    unfold structuralFrom structuralIn
    rw [isStructural_eq h]
    split
    next ht =>
      rw [ih]
      rw [ScanMode.awaits_file_iff ht, Option.some.injEq]
    next => rw [ih h]

theorem structural_eq (ts : List Token) : structural ts = structuralIn {} ts :=
  structuralFrom_eq (by simp) ts

/-- Tokens that fit their kinds, each in the mode behind those before it. -/
def Fitting (m : ScanMode) : List Token → Prop
  | [] => True
  | t :: ts => m.takes t.kind ∧ t.kind.Fits m.awaited t.text ∧ Fitting (m.after t.kind) ts

theorem fitting_append {m : ScanMode} {ts us : List Token} :
    Fitting m (ts ++ us) ↔ Fitting m ts ∧ Fitting (m.afterAll ts) us := by
  induction ts generalizing m with
  | nil => simp [Fitting]
  | cons t ts ih => simp only [List.cons_append, Fitting, ih, ScanMode.afterAll_cons, and_assoc]

theorem Fitting.kind_ne {m : ScanMode} {ts : List Token} (h : Fitting m ts) :
    ∀ t ∈ ts, t.kind ≠ .endOfInput := by
  induction ts generalizing m with
  | nil => simp
  | cons t ts ih =>
    obtain ⟨-, hfit, hts⟩ := h
    refine List.forall_mem_cons.2 ⟨fun hk => ?_, ih hts⟩
    rw [hk] at hfit
    exact hfit

end Token

open Token

/-! ### Byte order marks and blanks -/

/-- Only before a byte order mark does it matter whether a text is the whole text. -/
theorem lexeme_first {c : Char} (hc : c ≠ byteOrderMark) (awaited : Awaited) (first first' : Bool)
    (cs : Text) : lexeme awaited first c cs = lexeme awaited first' c cs := by
  simp only [lexeme, hc, and_false, if_false]

theorem Lexeme.lexeme_of_blank {c : Char} (hc : isBlank c) (awaited : Awaited) (first : Bool)
    (cs : Text) :
    lexeme awaited first c cs = ⟨.whitespace, (c :: cs).takeWhile isBlank, none⟩ := by
  have hmark : c ≠ byteOrderMark := by
    rintro rfl
    exact absurd hc (by decide)
  rw [lexeme, if_neg fun h => hmark h.2, if_pos hc]

/-- Blanks are scanned as one token, up to the first other character. -/
theorem scanFrom_blank {m : ScanMode} {p : Position} {c : Char} (hc : isBlank c) (cs : Text) :
    scanFrom m p (c :: cs) = (⟨.whitespace, (c :: cs).takeWhile isBlank, none⟩ : Lexeme).toToken p ::
      scanFrom m (p.after ((c :: cs).takeWhile isBlank)) ((c :: cs).dropWhile isBlank) := by
  have hsplit := @List.takeWhile_append_dropWhile _ isBlank (c :: cs)
  rw [scanFrom]
  simp only [Lexeme.lexeme_of_blank hc]
  generalize (c :: cs).takeWhile isBlank = run, (c :: cs).dropWhile isBlank = rest at hsplit
  rw [← hsplit, List.drop_left]
  rfl

/-! ### Structural tokens -/

/-- The structural tokens of the rest of a text, scanned in a mode from a place on. -/
def significantFrom (m : ScanMode) (p : Position) (t : Text) : List Token :=
  structuralIn m (scanFrom m p t)

theorem structural_scan (t : Text) : structural (scan t) = significantFrom {} .start t :=
  structural_eq _

theorem significantFrom_nil (m : ScanMode) (p : Position) :
    significantFrom m p [] = [.endOfInput p] := by
  simp [significantFrom, scanFrom, structuralIn, ScanMode.takes, TokenKind.isTrivia, endOfInput]

theorem significantFrom_of_takes {m : ScanMode} {p : Position} {c : Char} {cs : Text} {l : Lexeme}
    (hl : lexeme m.awaited (p.offset == 0) c cs = l) (h : m.takes l.kind) :
    significantFrom m p (c :: cs) = l.toToken p ::
      significantFrom (m.after l.kind) (p.after l.text) ((c :: cs).drop l.text.length) := by
  subst hl
  rw [significantFrom, scanFrom]
  exact if_pos h

theorem significantFrom_of_not_takes {m : ScanMode} {p : Position} {c : Char} {cs : Text}
    {l : Lexeme} (hl : lexeme m.awaited (p.offset == 0) c cs = l) (h : m.takes l.kind = false) :
    significantFrom m p (c :: cs) =
      significantFrom m (p.after l.text) ((c :: cs).drop l.text.length) := by
  subst hl
  rw [significantFrom, scanFrom]
  rw [ScanMode.after_of_not_takes h, structuralIn]
  exact if_neg (by simpa [Lexeme.toToken] using h)

/-- Behind the structural tokens, which fit their kinds, stands the end of the input. -/
theorem significantFrom_eq (m : ScanMode) (p : Position) (t : Text) :
    ∃ ts, significantFrom m p t = ts ++ [.endOfInput (p.after t)] ∧ Fitting m ts := by
  fun_induction scanFrom m p t with
  | case1 m p => exact ⟨[], by rw [significantFrom_nil]; rfl, trivial⟩
  | case2 m p c cs l ih =>
    obtain ⟨ts, hts, hfit⟩ := ih
    have hplace : (p.after l.text).after ((c :: cs).drop l.text.length) = p.after (c :: cs) := by
      rw [← Position.after_append, Lexeme.lexeme_append_drop]
    rw [hplace] at hts
    cases h : m.takes l.kind with
    | true =>
      refine ⟨l.toToken p :: ts, ?_, h, Lexeme.lexeme_fits .., hfit⟩
      rw [significantFrom_of_takes rfl h, hts]
      rfl
    | false =>
      rw [ScanMode.after_of_not_takes h] at hts hfit
      exact ⟨ts, by rw [significantFrom_of_not_takes rfl h, hts], hfit⟩

/-! ### Places of tokens -/

/-- The tokens of a text lie within it. -/
theorem scanFrom_within (m : ScanMode) (p : Position) (s : Text) :
    ∀ t ∈ scanFrom m p s, p.offset ≤ t.span.start.offset ∧
      t.span.start.offset ≤ t.span.stop.offset ∧ t.span.stop.offset ≤ (p.after s).offset := by
  fun_induction scanFrom m p s with
  | case1 m p =>
    intro t ht
    rw [List.mem_singleton.1 ht]
    exact ⟨Int.le_refl _, Int.le_refl _, Int.le_refl _⟩
  | case2 m p c cs l ih =>
    have hplace : (p.after l.text).after ((c :: cs).drop l.text.length) = p.after (c :: cs) := by
      rw [← Position.after_append, Lexeme.lexeme_append_drop]
    rw [hplace] at ih
    obtain ⟨rest, hrest⟩ : ∃ rest, c :: cs = l.text ++ rest :=
      (Lexeme.covers_lexeme m.awaited (p.offset == 0) c cs).2
    have hle : (p.after l.text).offset ≤ (p.after (c :: cs)).offset := by
      rw [hrest, Position.offset_after, Position.offset_after, List.length_append]
      omega
    have hstart : p.offset ≤ (p.after l.text).offset := by
      rw [Position.offset_after]
      omega
    intro t ht
    rcases List.mem_cons.1 ht with rfl | ht
    · exact ⟨Int.le_refl _, hstart, hle⟩
    · obtain ⟨h₁, h₂, h₃⟩ := ih t ht
      exact ⟨Int.le_trans hstart h₁, h₂, h₃⟩

/-- Each token of a text ends before the next begins. -/
theorem scanFrom_sorted (m : ScanMode) (p : Position) (s : Text) :
    (scanFrom m p s).Pairwise fun t u => t.span.stop.offset ≤ u.span.start.offset := by
  fun_induction scanFrom m p s with
  | case1 m p => exact List.pairwise_singleton _ _
  | case2 m p c cs l ih =>
    exact List.pairwise_cons.2 ⟨fun t ht => (scanFrom_within _ _ _ t ht).1, ih⟩

theorem structuralIn_sublist (m : ScanMode) (ts : List Token) :
    (structuralIn m ts).Sublist ts := by
  induction ts generalizing m with
  | nil => exact List.Sublist.refl _
  | cons t ts ih =>
    unfold structuralIn
    split
    · exact (ih _).cons_cons t
    · exact (ih _).cons t

theorem structural_sublist (ts : List Token) : (structural ts).Sublist ts := by
  rw [structural_eq]
  exact structuralIn_sublist _ _

theorem significantFrom_within (m : ScanMode) (p : Position) (s : Text) :
    ∀ t ∈ significantFrom m p s, p.offset ≤ t.span.start.offset ∧
      t.span.start.offset ≤ t.span.stop.offset ∧ t.span.stop.offset ≤ (p.after s).offset :=
  fun t ht => scanFrom_within m p s t ((structuralIn_sublist _ _).subset ht)

end RelationNotation
