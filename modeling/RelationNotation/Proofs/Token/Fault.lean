import RelationNotation.Token.Trivia

/-!
What is wrong with a text. A token of a text is an error exactly if it carries a fault:
`Token.error_iff_fault`.
-/

namespace RelationNotation

namespace Lexeme

/-- A lexeme is an error exactly if it carries a fault. -/
def Marked (l : Lexeme) : Prop := l.kind = .error ↔ l.fault.isSome

theorem marked_of_none {k : TokenKind} (h : k ≠ .error) (t : Text) : Marked ⟨k, t, none⟩ := by
  simp [Marked, h]

theorem marked_of_some (t : Text) (f : ScanFault) : Marked ⟨.error, t, some f⟩ := by
  simp [Marked]

theorem marked_single (c : Char) : (single c).Marked := by
  unfold single
  split
  next k h =>
    refine marked_of_none ?_ _
    rintro rfl
    unfold oneChar at h
    split at h <;> cases h
  next => exact marked_of_some _ _

theorem marked_punctuation (c : Char) (cs : Text) : (punctuation c cs).Marked := by
  unfold punctuation
  split
  · exact marked_single c
  split
  next k h =>
    refine marked_of_none ?_ _
    rintro rfl
    unfold twoChars at h
    split at h <;> cases h
  next => exact marked_single c

theorem marked_significant (awaited : Awaited) (c : Char) (cs : Text) :
    (significant awaited c cs).Marked := by
  unfold significant
  split
  · refine marked_of_none ?_ _
    split <;> decide
  unfold plain
  split
  · refine marked_of_none ?_ _
    split <;> decide
  split
  · unfold number
    split
    · split <;> exact marked_of_none (by decide) _
    · exact marked_of_none (by decide) _
  · exact marked_punctuation c cs

theorem marked_lexeme (awaited : Awaited) (first : Bool) (c : Char) (cs : Text) :
    (lexeme awaited first c cs).Marked := by
  unfold lexeme
  split
  · exact marked_of_none (by decide) _
  split
  · exact marked_of_none (by decide) _
  split
  · exact marked_of_none (by decide) _
  split
  · unfold dashComment
    split
    · exact marked_of_none (by decide) _
    · exact marked_of_some _ _
  split
  · unfold quotedString
    split
    · exact marked_of_none (by decide) _
    · exact marked_of_some _ _
  · exact marked_significant awaited c cs

/-- Where a word, a number or punctuation is awaited, all that can be wrong is the one character
there. -/
theorem significant_of_fault {awaited : Awaited} {c : Char} {cs : Text} {f : ScanFault}
    (h : (significant awaited c cs).fault = some f) :
    significant awaited c cs = ⟨.error, [c], some (.unexpected c)⟩ := by
  have hsingle (h : (single c).fault = some f) :
      single c = ⟨.error, [c], some (.unexpected c)⟩ := by
    unfold single at h ⊢
    split at h
    · cases h
    · rfl
  unfold significant plain at h ⊢
  split at h
  · cases h
  next h₁ =>
  rw [if_neg h₁]
  split at h
  · cases h
  next h₂ =>
  rw [if_neg h₂]
  split at h
  · unfold number at h
    split at h
    · split at h <;> cases h
    · cases h
  next h₃ =>
  rw [if_neg h₃]
  unfold punctuation at h ⊢
  split at h
  · exact hsingle h
  split at h
  · cases h
  · exact hsingle h

end Lexeme

namespace Token

def errors (ts : List Token) : List Token := ts.filter (·.kind == .error)

theorem errors_cons {t : Token} (h : t.kind ≠ .error) (ts : List Token) :
    errors (t :: ts) = errors ts := List.filter_cons_of_neg (by simpa using h)

/-- Among the tokens of a text the errors are those that carry a fault. -/
theorem error_iff_fault {m : ScanMode} {p : Position} {s : Text} :
    ∀ t ∈ scanFrom m p s, t.kind = .error ↔ t.fault.isSome := by
  fun_induction scanFrom m p s with
  | case1 m p => simp [endOfInput]
  | case2 m p c cs l ih =>
    refine List.forall_mem_cons.2 ⟨?_, ih⟩
    exact Lexeme.marked_lexeme m.awaited (p.offset == 0) c cs

end Token

end RelationNotation
