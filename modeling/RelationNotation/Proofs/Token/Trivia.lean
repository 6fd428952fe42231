import RelationNotation.Proofs.Token.Significant

/-!
Trivia in the middle of a text. As with structural tokens, what is trivia follows from the mode in
front of it, so a list of tokens is sorted out stretch by stretch.
-/

namespace RelationNotation

namespace Token

/-- The trivia of a list, given the mode before it. -/
def triviaIn (m : ScanMode) : List Token → List Token
  | [] => []
  | t :: ts => if m.takes t.kind then triviaIn (m.after t.kind) ts else t :: triviaIn m ts

theorem triviaFrom_eq {previous : Option TokenKind} {m : ScanMode}
    (h : previous = some .includeOpen ↔ m.awaited = .file) (ts : List Token) :
    triviaFrom previous ts = triviaIn m ts := by
  induction ts generalizing previous m with
  | nil => rfl
  | cons t ts ih =>
    unfold triviaFrom triviaIn
    rw [isStructural_eq h]
    split
    next ht =>
      rw [ih]
      rw [ScanMode.awaits_file_iff ht, Option.some.injEq]
    next => rw [ih h]

theorem trivia_eq (ts : List Token) : trivia ts = triviaIn {} ts :=
  triviaFrom_eq (by simp) ts

/-- Every token is structural or trivia. -/
theorem mem_structuralFrom_or_triviaFrom {previous : Option TokenKind} {t : Token} {ts : List Token}
    (h : t ∈ ts) : t ∈ structuralFrom previous ts ∨ t ∈ triviaFrom previous ts := by
  induction ts generalizing previous with
  | nil => cases h
  | cons u ts ih =>
    unfold structuralFrom triviaFrom
    split
    · rcases List.mem_cons.1 h with rfl | h
      · exact .inl List.mem_cons_self
      · exact (ih h).imp_left (List.mem_cons_of_mem u)
    · rcases List.mem_cons.1 h with rfl | h
      · exact .inr List.mem_cons_self
      · exact (ih h).imp_right (List.mem_cons_of_mem u)

/-! ### Stretch by stretch -/

variable {m : ScanMode} {ts : List Token}

theorem structuralIn_append (m : ScanMode) (ts us : List Token) :
    structuralIn m (ts ++ us) = structuralIn m ts ++ structuralIn (m.afterAll ts) us := by
  induction ts generalizing m with
  | nil => rfl
  | cons t ts ih =>
    rw [List.cons_append, structuralIn, structuralIn, ScanMode.afterAll_cons, ih, ih]
    cases h : m.takes t.kind with
    | true => rfl
    | false => rw [ScanMode.after_of_not_takes h]; rfl

theorem triviaIn_append (m : ScanMode) (ts us : List Token) :
    triviaIn m (ts ++ us) = triviaIn m ts ++ triviaIn (m.afterAll ts) us := by
  induction ts generalizing m with
  | nil => rfl
  | cons t ts ih =>
    rw [List.cons_append, triviaIn, triviaIn, ScanMode.afterAll_cons, ih, ih]
    cases h : m.takes t.kind with
    | true => rfl
    | false => rw [ScanMode.after_of_not_takes h]; rfl

/-- The mode behind a list follows from its structural tokens. -/
theorem afterAll_structuralIn (m : ScanMode) (ts : List Token) :
    m.afterAll (structuralIn m ts) = m.afterAll ts := by
  induction ts generalizing m with
  | nil => rfl
  | cons t ts ih =>
    rw [structuralIn, ScanMode.afterAll_cons]
    cases h : m.takes t.kind with
    | true => exact ih _
    | false => rw [ScanMode.after_of_not_takes h]; exact ih m

theorem structuralIn_map {f : Token → Token} (hf : ∀ t, (f t).kind = t.kind) (m : ScanMode)
    (ts : List Token) : structuralIn m (ts.map f) = (structuralIn m ts).map f := by
  induction ts generalizing m with
  | nil => rfl
  | cons t ts ih =>
    rw [List.map_cons, structuralIn, structuralIn, hf, ih, ih]
    split <;> rfl

theorem triviaIn_map {f : Token → Token} (hf : ∀ t, (f t).kind = t.kind) (m : ScanMode)
    (ts : List Token) : triviaIn m (ts.map f) = (triviaIn m ts).map f := by
  induction ts generalizing m with
  | nil => rfl
  | cons t ts ih =>
    rw [List.map_cons, triviaIn, triviaIn, hf, ih, ih]
    split <;> rfl

/-- Tokens of blanks are trivia, whatever the mode. -/
theorem sorted_out_of_blank (h : ∀ t ∈ ts, t.kind = .whitespace) :
    structuralIn m ts = [] ∧ triviaIn m ts = ts ∧ m.afterAll ts = m := by
  induction ts with
  | nil => exact ⟨rfl, rfl, rfl⟩
  | cons t ts ih =>
    obtain ⟨hstructural, htrivia, hmode⟩ := ih fun u hu => h u (List.mem_cons_of_mem _ hu)
    have ht : m.takes t.kind = false := by
      rw [h t List.mem_cons_self]
      rfl
    rw [structuralIn, triviaIn, ScanMode.afterAll_cons, ScanMode.after_of_not_takes ht, ht]
    exact ⟨hstructural, congrArg (t :: ·) htrivia, hmode⟩

theorem mem_triviaIn {t : Token} (h : t ∈ triviaIn m ts) : t ∈ ts ∧ t.kind ≠ .endOfInput := by
  induction ts generalizing m with
  | nil => cases h
  | cons u ts ih =>
    unfold triviaIn at h
    split at h
    · exact (ih h).imp_left (List.mem_cons_of_mem _)
    next hu =>
      rcases List.mem_cons.1 h with rfl | h
      · refine ⟨List.mem_cons_self, fun hk => hu ?_⟩
        rw [hk]
        rfl
      · exact (ih h).imp_left (List.mem_cons_of_mem _)

end Token

/-- Every token but the end of the input takes a character at least. -/
theorem scanFrom_proper (m : ScanMode) (p : Position) (s : Text) :
    ∀ t ∈ scanFrom m p s, t.kind ≠ .endOfInput → t.span.start.offset < t.span.stop.offset := by
  fun_induction scanFrom m p s with
  | case1 m p =>
    intro t ht hk
    rw [List.mem_singleton.1 ht] at hk
    exact absurd rfl hk
  | case2 m p c cs l ih =>
    intro t ht hk
    rcases List.mem_cons.1 ht with rfl | ht
    · have : 0 < l.text.length := Lexeme.length_lexeme_pos ..
      simp only [Lexeme.toToken, Position.offset_after]
      omega
    · exact ih t ht hk

end RelationNotation
