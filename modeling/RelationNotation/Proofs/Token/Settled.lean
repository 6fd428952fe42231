import RelationNotation.Proofs.Token.Placing
import RelationNotation.Proofs.Token.Recut

/-!
The first structural tokens of any text are the first ones of a text that may be continued at will:
`settles_of_structural`. To such a text a token of any kind that ordinary text spells can be added:
`Settles.token`.
-/

namespace RelationNotation

open Token

/-- Structural tokens at the start of a text come from a part of it that gives them before any new
line. -/
theorem significantFrom_begins {m : ScanMode} {p : Position} {t : Text} {ts rest : List Token}
    (h : significantFrom m p t = ts ++ rest) (hts : ts ≠ []) (hrest : rest ≠ []) :
    ∃ u w, t = u ++ w ∧ u ≠ [] ∧ ∀ v, Breaks v →
      significantFrom m p (u ++ v) = ts ++ significantFrom (m.afterAll ts) (p.after u) v := by
  induction hn : t.length using Nat.strongRecOn generalizing m p t ts with
  | ind n ih =>
  cases t with
  | nil =>
    rw [significantFrom_nil] at h
    obtain ⟨t, ts, rfl⟩ := List.exists_cons_of_ne_nil hts
    obtain ⟨u, us, rfl⟩ := List.exists_cons_of_ne_nil hrest
    simp at h
  | cons c cs =>
    generalize hl : lexeme m.awaited (p.offset == 0) c cs = l
    have hpos : 0 < l.text.length := hl ▸ Lexeme.length_lexeme_pos ..
    have hne : l.text ≠ [] := List.length_pos_iff.1 hpos
    have hsplit : c :: cs = l.text ++ (c :: cs).drop l.text.length :=
      hl ▸ (Lexeme.lexeme_append_drop ..).symm
    generalize (c :: cs).drop l.text.length = t at hsplit
    have hdrop : (c :: cs).drop l.text.length = t := by rw [hsplit, List.drop_left]
    have hlen : t.length < n := by
      have := congrArg List.length hsplit
      rw [List.length_append] at this
      omega
    -- The lexeme is the same before what is kept of the rest, whatever follows.
    have kept {u v w : Text} (ht : t = u ++ w) (hlast : u ≠ [] ∨ l.StopsBefore v) (hv : Breaks v) :
        ∃ ls, l.text ++ u ++ v = c :: (ls ++ u ++ v) ∧
          lexeme m.awaited (p.offset == 0) c (ls ++ u ++ v) = l ∧
          (c :: (ls ++ u ++ v)).drop l.text.length = u ++ v := by
      obtain ⟨ls, htext, hl'⟩ := Lexeme.lexeme_within hl
        (by rw [hsplit, ht, List.append_assoc]) (fun _ => rfl) hlast hv.startsBlank
      have first : l.text ++ u ++ v = c :: (ls ++ u ++ v) := by rw [htext]; rfl
      exact ⟨ls, first, hl', by rw [← first, List.append_assoc, List.drop_left]⟩
    cases htakes : m.takes l.kind with
    | true =>
      rw [significantFrom_of_takes hl htakes, hdrop] at h
      obtain ⟨t', us, rfl⟩ := List.exists_cons_of_ne_nil hts
      obtain ⟨rfl, hus'⟩ := List.cons.inj h
      obtain ⟨u, w, ht, hu⟩ : ∃ u w, t = u ++ w ∧ ∀ v, Breaks v →
          significantFrom (m.after l.kind) (p.after l.text) (u ++ v) =
            us ++ significantFrom ((m.after l.kind).afterAll us) ((p.after l.text).after u) v := by
        by_cases hus : us = []
        · subst hus
          exact ⟨[], t, rfl, fun _ _ => rfl⟩
        · obtain ⟨u, w, ht, -, hu⟩ := ih _ hlen hus' hus rfl
          exact ⟨u, w, ht, hu⟩
      refine ⟨l.text ++ u, w, by rw [hsplit, ht, List.append_assoc], by simp [hne], fun v hv => ?_⟩
      obtain ⟨ls, first, hl', hdrop'⟩ := kept ht (.inr (stopsBefore_of_takes hl htakes hv)) hv
      rw [first, significantFrom_of_takes hl' htakes, hdrop', hu v hv, Position.after_append]
      rfl
    | false =>
      rw [significantFrom_of_not_takes hl htakes, hdrop] at h
      obtain ⟨u, w, ht, hne', hu⟩ := ih _ hlen h hts rfl
      refine ⟨l.text ++ u, w, by rw [hsplit, ht, List.append_assoc], by simp [hne'], fun v hv => ?_⟩
      obtain ⟨ls, first, hl', hdrop'⟩ := kept ht (.inl hne') hv
      rw [first, significantFrom_of_not_takes hl' htakes, hdrop', hu v hv, Position.after_append]

/-- Whatever follows a text, its first structural tokens are the given ones. -/
def Settles (u : Text) (ts : List Token) : Prop :=
  ∀ v, significantFrom {} .start (u ++ v) =
    ts ++ significantFrom (ScanMode.afterAll {} ts) (Position.start.after u) v

theorem settles_nil : Settles [] [] := fun _ => rfl

/-- The tokens at the start of a text are settled by a new line behind them. -/
theorem settles_of_structural {source : Text} {ts rest : List Token}
    (h : structural (scan source) = ts ++ rest) (hrest : rest ≠ []) : ∃ u, Settles u ts := by
  by_cases hts : ts = []
  · exact ⟨[], hts ▸ settles_nil⟩
  rw [structural_scan] at h
  obtain ⟨u, -, -, -, hu⟩ := significantFrom_begins h hts hrest
  refine ⟨u ++ ['\n'], fun v => ?_⟩
  rw [List.append_assoc, List.singleton_append, hu _ (breaks_newline v),
    significantFrom_blank _ _ isBlank_newline, Position.after_append]
  rfl

/-- A settled text with nothing behind it has the settled tokens and the end of the input. -/
theorem Settles.structural {u : Text} {ts : List Token} (h : Settles u ts) :
    structural (scan u) = ts ++ [.endOfInput (Position.start.after u)] := by
  have := h []
  rwa [List.append_nil, significantFrom_nil, ← structural_scan] at this

namespace TokenKind

/-- Kinds of tokens that have a text that is a token of the kind wherever it stands. -/
def ordinary : List TokenKind :=
  [.identifier, .quote, .fycoideOpen, .rightParen, .leftBracket, .rightBracket, .includeOpen, .equals,
    .atSign, .shape, .rightBrace, .semicolon]

/-- A text that is a token of an ordinary kind wherever it stands. -/
def sample (k : TokenKind) : Text := if k = .identifier then ['x'] else k.text.toList

theorem takes_of_ordinary {k : TokenKind} (h : k ∈ ordinary) (m : ScanMode) : m.takes k := by
  have table : ∀ k ∈ ordinary, k.isTrivia = false := by decide
  rw [ScanMode.takes, table k h]
  rfl

theorem sample_fits {k : TokenKind} (h : k ∈ ordinary) (awaited : Awaited) :
    k.Fits awaited k.sample := by
  have table : ∀ k ∈ ordinary, k ≠ .identifier →
      k.text.toList.head?.all fun c => ! isStringChar c := by decide
  have plain (hk : k ≠ .identifier) : k.sample = k.text.toList ∧
      (awaited ≠ .token → ∀ c ∈ k.sample.head?, ¬ isStringChar c) := by
    rw [sample, if_neg hk]
    exact ⟨rfl, fun _ c hc => by simpa using (Option.all_eq_true _ _).1 (table k h hk) c hc⟩
  simp only [ordinary, List.mem_cons, List.not_mem_nil, or_false] at h
  rcases h with rfl | h
  · exact ⟨by decide, fun _ => by decide⟩
  · rcases h with rfl | rfl | rfl | rfl | rfl | rfl | rfl | rfl | rfl | rfl | rfl
    all_goals exact plain (by decide)

end TokenKind

/-- A token of an ordinary kind can be added to a settled text. -/
theorem Settles.token {u : Text} {ts : List Token} {k : TokenKind} (h : Settles u ts)
    (hk : k ∈ TokenKind.ordinary) : ∃ u' t, t.kind = k ∧ Settles u' (ts ++ [t]) := by
  let t : Token := ⟨k, k.sample, default, none⟩
  refine ⟨u ++ (t.text ++ ['\n']), t.placedAt (Position.start.after u), rfl, fun v => ?_⟩
  have takes := TokenKind.takes_of_ordinary hk (ScanMode.afterAll {} ts)
  have fits := TokenKind.sample_fits hk (ScanMode.afterAll {} ts).awaited
  have stops : k.StopsAt ('\n' :: v) :=
    TokenKind.stopsAt_of_separates fun d hd => by cases hd; decide
  rw [List.append_assoc, List.append_assoc, List.singleton_append, h,
    @significantFrom_token _ t _ _ takes fits stops, significantFrom_blank _ _ isBlank_newline,
    ScanMode.afterAll_append, Position.after_append, Position.after_append, List.append_assoc]
  rfl

end RelationNotation
