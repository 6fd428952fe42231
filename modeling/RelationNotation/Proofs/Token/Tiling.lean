import Mathlib.Data.List.Chain
import RelationNotation.Proofs.Source.Place
import RelationNotation.Proofs.Token.Fault
import RelationNotation.Proofs.Token.Recut

/-!
The tokens of a text lie side by side and leave nothing out: each is the stretch of the text that
its span marks, and starts where the one before it stops. `Cuts` stops the scanner between two
tokens, with the rest of the text behind; what holds of every token is what holds of the first one
of a rest. Main statement: `scan_tiles`.
-/

namespace RelationNotation

open Token

/-! ### Scanning up to a boundary -/

/-- The first tokens of a text, scanned in a mode from a place on, make up the first part of the
text; the second part stands behind them. -/
inductive Cuts : ScanMode → Position → Text → Text → List Token → Prop where
  | nil {m : ScanMode} {p : Position} {v : Text} : Cuts m p [] v []
  | cons {m : ScanMode} {p : Position} {c : Char} {cs u v : Text} {l : Lexeme} {ts : List Token}
      (first : lexeme m.awaited (p.offset == 0) c cs = l) (split : c :: cs = l.text ++ (u ++ v))
      (further : Cuts (m.after l.kind) (p.after l.text) u v ts) :
      Cuts m p (l.text ++ u) v (l.toToken p :: ts)

theorem scanFrom_lexeme {m : ScanMode} {p : Position} {c : Char} {cs rest : Text} {l : Lexeme}
    (hl : lexeme m.awaited (p.offset == 0) c cs = l) (hsplit : c :: cs = l.text ++ rest) :
    scanFrom m p (c :: cs) = l.toToken p :: scanFrom (m.after l.kind) (p.after l.text) rest := by
  rw [scanFrom]
  simp only [hl]
  rw [hsplit, List.drop_left]

namespace Cuts
variable {m : ScanMode} {p : Position} {u v : Text} {ts : List Token}

/-- Behind a boundary the scanner goes on with the rest of the text. -/
theorem scan (h : Cuts m p u v ts) :
    scanFrom m p (u ++ v) = ts ++ scanFrom (m.afterAll ts) (p.after u) v := by
  induction h with
  | nil => rfl
  | cons first split further ih =>
    rw [List.append_assoc, ← split, scanFrom_lexeme first split, ih, Position.after_append]
    rfl

end Cuts

/-- Between tokens in a row there is a boundary. -/
theorem exists_cuts_between {m : ScanMode} {p : Position} {s : Text} {t : Token}
    {ts us : List Token} (h : scanFrom m p s = ts ++ t :: us) :
    ∃ u v, s = u ++ v ∧ Cuts m p u v ts ∧ scanFrom (m.afterAll ts) (p.after u) v = t :: us := by
  induction ts generalizing m p s with
  | nil => exact ⟨[], s, rfl, .nil, h⟩
  | cons first ts ih =>
    cases s with
    | nil =>
      rw [scanFrom] at h
      simp at h
    | cons c cs =>
      rw [scanFrom] at h
      obtain ⟨u, v, hs, cuts, hus⟩ := ih (List.cons.inj h).2
      obtain rfl := (List.cons.inj h).1
      have split := Lexeme.lexeme_append_drop m.awaited (p.offset == 0) c cs
      rw [hs] at split
      refine ⟨_, v, ?_, .cons rfl split.symm cuts, ?_⟩
      · rw [List.append_assoc, split]
      · rw [Position.after_append]
        exact hus

/-- In front of each token of a text there is a boundary. -/
theorem exists_cuts {m : ScanMode} {p : Position} {s : Text} {t : Token}
    (h : t ∈ scanFrom m p s) :
    ∃ u v ts us, s = u ++ v ∧ Cuts m p u v ts ∧
      scanFrom (m.afterAll ts) (p.after u) v = t :: us := by
  obtain ⟨ts, us, h⟩ := List.append_of_mem h
  obtain ⟨u, v, hs, cuts, hus⟩ := exists_cuts_between h
  exact ⟨u, v, ts, us, hs, cuts, hus⟩

/-- The first token of a text is its first lexeme, or stands for the end of the input. -/
theorem scanFrom_eq_cons {m : ScanMode} {p : Position} {v : Text} {t : Token} {us : List Token}
    (h : scanFrom m p v = t :: us) :
    v = [] ∧ t = .endOfInput p ∨
      ∃ c cs, v = c :: cs ∧ t = (lexeme m.awaited (p.offset == 0) c cs).toToken p := by
  cases v with
  | nil =>
    rw [scanFrom] at h
    exact .inl ⟨rfl, (List.cons.inj h).1.symm⟩
  | cons c cs =>
    rw [scanFrom] at h
    exact .inr ⟨c, cs, rfl, (List.cons.inj h).1.symm⟩

/-! ### What an error takes -/

namespace Lexeme

/-- An error is one character, or a string or comment that is never closed. -/
theorem lexeme_of_error {awaited : Awaited} {first : Bool} {c : Char} {cs : Text}
    (h : (lexeme awaited first c cs).kind = .error) :
    lexeme awaited first c cs = ⟨.error, [c], some (.unexpected c)⟩ ∨
      (lexeme awaited first c cs).IsOpen := by
  obtain ⟨f, hf⟩ := Option.isSome_iff_exists.1 ((marked_lexeme awaited first c cs).1 h)
  rcases lexeme_of_fault hf with hl | hopen
  · exact .inl hl
  · exact .inr ⟨f, hf, hopen⟩

end Lexeme

/-! ### Tokens side by side -/

/-- Tokens that lie side by side over a whole text, the end of the input last. Each is the part of
the text that its span marks, with the line and the column that this part has in the text; an error
is one character or reaches to the end. -/
structure Token.Tiles (source : Text) (ts : List Token) : Prop where
  ended : ∃ us p, ts = us ++ [.endOfInput p] ∧ p.offset = (source.length : Int) ∧
    ∀ t ∈ us, t.kind ≠ .endOfInput ∧ t.text ≠ []
  slice : ∀ t ∈ ts, t.span.slice source = t.text
  start : ∀ t ∈ ts.head?, t.span.start = .start
  chain : ts.IsChain fun t u => u.span.start = t.span.stop
  whole : ts.flatMap Token.text = source
  placed : ∀ t ∈ ts, t.span.PlacedIn source
  error : ∀ t ∈ ts, t.kind = .error → t.text.length = 1 ∨ t.span.stop.offset = (source.length : Int)

theorem scanFrom_ended (m : ScanMode) (p : Position) (s : Text) :
    ∃ ts, scanFrom m p s = ts ++ [.endOfInput (p.after s)] ∧
      ∀ t ∈ ts, t.kind ≠ .endOfInput ∧ t.text ≠ [] := by
  fun_induction scanFrom m p s with
  | case1 m p => exact ⟨[], rfl, by simp⟩
  | case2 m p c cs l ih =>
    obtain ⟨ts, hts, proper⟩ := ih
    have place : (p.after l.text).after ((c :: cs).drop l.text.length) = p.after (c :: cs) := by
      rw [← Position.after_append, Lexeme.lexeme_append_drop]
    have hkind : l.kind ≠ .endOfInput := by
      intro hk
      have fits := Lexeme.lexeme_fits m.awaited (p.offset == 0) c cs
      change l.kind.Fits m.awaited l.text at fits
      rw [hk] at fits
      exact fits
    have hne : l.text ≠ [] := (Lexeme.covers_lexeme m.awaited (p.offset == 0) c cs).1
    refine ⟨l.toToken p :: ts, ?_, List.forall_mem_cons.2 ⟨⟨hkind, hne⟩, proper⟩⟩
    rw [hts, place]
    rfl

theorem scanFrom_head (m : ScanMode) (p : Position) (s : Text) :
    ∀ t ∈ (scanFrom m p s).head?, t.span.start = p := by
  intro t ht
  obtain ⟨us, hus⟩ := List.head?_eq_some_iff.1 ht
  rcases scanFrom_eq_cons hus with ⟨-, rfl⟩ | ⟨c, cs, -, rfl⟩ <;> rfl

theorem scanFrom_chain (m : ScanMode) (p : Position) (s : Text) :
    (scanFrom m p s).IsChain fun t u => u.span.start = t.span.stop := by
  fun_induction scanFrom m p s with
  | case1 m p => exact List.isChain_singleton _
  | case2 m p c cs l ih => exact List.isChain_cons.2 ⟨scanFrom_head _ _ _, ih⟩

section
variable {source : Text} {t : Token}

theorem slice_of_mem_scan (h : t ∈ scan source) : t.span.slice source = t.text := by
  obtain ⟨u, v, ts, us, rfl, -, hus⟩ := exists_cuts h
  rcases scanFrom_eq_cons hus with ⟨rfl, rfl⟩ | ⟨c, cs, rfl, rfl⟩
  · let p := Position.start.after u
    have middle : (⟨p, p⟩ : Span).slice (u ++ [] ++ []) = [] :=
      slice_middle (offset_start_after u) (by rw [offset_start_after, List.append_nil])
    rwa [List.append_nil] at middle
  · generalize hl : lexeme _ _ c cs = l
    obtain ⟨-, rest, split⟩ := Lexeme.covers_lexeme (ScanMode.afterAll {} ts).awaited
      ((Position.start.after u).offset == 0) c cs
    rw [hl] at split
    rw [split, ← List.append_assoc]
    refine slice_middle (offset_start_after u) ?_
    rw [Lexeme.toToken, ← Position.after_append, offset_start_after]

theorem error_of_mem_scan (h : t ∈ scan source) (hk : t.kind = .error) :
    t.text.length = 1 ∨ t.span.stop.offset = source.length := by
  obtain ⟨u, v, ts, us, rfl, -, hus⟩ := exists_cuts h
  rcases scanFrom_eq_cons hus with ⟨rfl, rfl⟩ | ⟨c, cs, rfl, rfl⟩
  · cases hk
  · rcases Lexeme.lexeme_of_error hk with hl | hopen
    · rw [hl]
      exact .inl rfl
    · right
      rw [Lexeme.toToken, (Lexeme.isOpen_lexeme hopen).1, ← Position.after_append,
        offset_start_after]

end

/-- The tokens of every text lie side by side and make up the whole text. -/
theorem scan_tiles (source : Text) : Tiles source (scan source) where
  ended := by
    obtain ⟨ts, hts, proper⟩ := scanFrom_ended {} .start source
    exact ⟨ts, _, hts, offset_start_after source, proper⟩
  slice _ := slice_of_mem_scan
  start := scanFrom_head {} .start source
  chain := scanFrom_chain {} .start source
  whole := flatMap_text_scan source
  placed := placed_scan source
  error _ := error_of_mem_scan

end RelationNotation
