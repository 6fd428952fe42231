/-!
Blank characters: the Unicode characters that separate words, the four information separators
(U+001C to U+001F) included. Zero-width characters and the byte order mark are not blank.
-/

namespace RelationNotation

/-- The ranges of blank characters, ends included, in ascending order. -/
def blankRanges : List (Nat × Nat) :=
  [(0x09, 0x0D), (0x1C, 0x20), (0x85, 0x85), (0xA0, 0xA0), (0x1680, 0x1680), (0x2000, 0x200A),
    (0x2028, 0x2029), (0x202F, 0x202F), (0x205F, 0x205F), (0x3000, 0x3000)]

def isBlank (c : Char) : Bool :=
  blankRanges.any fun r => r.1 ≤ c.toNat && c.toNat ≤ r.2

/-- Whether a character is one of the four information separators. -/
def isInformationSeparator (c : Char) : Bool := 0x1C ≤ c.toNat && c.toNat ≤ 0x1F

/-- Whether a character is white space by its Unicode property, which information separators do not
have. -/
def isWhiteSpace (c : Char) : Bool := isBlank c && !isInformationSeparator c

/-- What holds of the blank characters one by one holds of every blank. -/
theorem forall_blank {p : Char → Bool} {c : Char} (hc : isBlank c)
    (h : ∀ r ∈ blankRanges, ∀ n ∈ List.range' r.1 (r.2 + 1 - r.1), p (Char.ofNat n)) : p c := by
  obtain ⟨r, hr, hrange⟩ := List.any_eq_true.1 hc
  rw [Bool.and_eq_true, decide_eq_true_eq, decide_eq_true_eq] at hrange
  rw [← Char.ofNat_toNat c]
  exact h r hr _ (List.mem_range'_1.2 (by omega))

theorem isBlank_space : isBlank ' ' = true := by decide

theorem isBlank_newline : isBlank '\n' = true := by decide

theorem isBlank_slash : isBlank '/' = false := by decide

theorem isBlank_dash : isBlank '-' = false := by decide

end RelationNotation
