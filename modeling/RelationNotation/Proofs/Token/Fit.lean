import Mathlib.Data.List.TakeWhile
import RelationNotation.Token.Scan

/-!
What the text of a token says of its kind, and the way back: `lexeme_fits` states that every lexeme
fits its kind, `lexeme_of_fits` that a text that fits a kind is a lexeme of that kind wherever
what follows does not lead on.
-/

namespace RelationNotation

namespace TokenKind

/-- Whether a text may be a token of a kind where something is awaited. -/
def Fits (awaited : Awaited) : TokenKind → Text → Prop
  | .whitespace, _ | .lineComment, _ | .error, _ => True
  | .endOfInput, _ => False
  | .quotedString, t => ∃ body, t = '"' :: body ∧ Lexeme.stringRest body = some body.length
  | .dashComment, t => ∃ body, t = dashFence ++ body ∧ Lexeme.commentRest 0 body = .ok body.length
  | .identifier, t => isWord t ∧ (awaited = .token → t ≠ ['_'])
  | .unicodeString, t =>
    awaited ≠ .token ∧ t ≠ [] ∧ (∀ c ∈ t, isStringChar c) ∧ ¬ isWord t ∧ ¬ dashFence <+: t
  | .integer, t => awaited = .token ∧ t ≠ [] ∧ ∀ c ∈ t, c.isDigit
  | .float, t => awaited = .token ∧ ∃ whole fraction, t = whole ++ '.' :: fraction ∧ whole ≠ [] ∧
      fraction ≠ [] ∧ (∀ c ∈ whole, c.isDigit) ∧ ∀ c ∈ fraction, c.isDigit
  | k, t => t = k.text.toList ∧ (awaited ≠ .token → ∀ c ∈ t.head?, ¬ isStringChar c)

end TokenKind

/-- Whether two characters in a row are read together. -/
def joins (c d : Char) : Bool :=
  (Lexeme.twoChars c d).isSome || c == '/' && d == '/' || c == '-' && d == '-'

namespace TokenKind

/-- Whether a token of a kind ends where a text begins. -/
def StopsAt (v : Text) : TokenKind → Prop
  | .identifier | .unicodeString | .integer | .float => ∀ d ∈ v.head?, ¬ isStringChar d
  | .dashComment => ∀ d ∈ v.head?, d ≠ '-'
  | .quotedString => True
  | .underscore => ∀ d ∈ v.head?, ¬ isStringChar d
  | k => ∀ c, k.text.toList = [c] → ∀ d ∈ v.head?, joins c d = false

end TokenKind

namespace Lexeme

/-! ### Comments and quoted strings -/

/-- A closed comment's rest is known from the rest itself, and no dash follows it. -/
theorem commentRest_ok {run n : Nat} {s : Text} (h : commentRest run s = .ok n) :
    n ≤ s.length ∧ commentRest run (s.take n) = .ok n ∧ ∀ d ∈ (s.drop n).head?, d ≠ '-' := by
  induction s generalizing run n with
  | nil =>
    unfold commentRest at h
    split at h
    · cases h
      exact ⟨Nat.le_refl _, by simp [commentRest, *], by simp⟩
    · cases h
  | cons c cs ih =>
    have step {r k : Nat} (hk : (commentRest r cs).map (· + 1) = .ok k) :
        ∃ j, k = j + 1 ∧ commentRest r cs = .ok j := by
      cases hj : commentRest r cs with
      | ok j => rw [hj] at hk; cases hk; exact ⟨j, rfl, rfl⟩
      | error e => rw [hj] at hk; cases hk
    unfold commentRest at h
    split at h
    next hc =>
      split at h
      · cases h
      next hrun =>
        obtain ⟨j, rfl, hj⟩ := step h
        obtain ⟨hle, htake, hnext⟩ := ih hj
        refine ⟨by simpa using hle, ?_, hnext⟩
        rw [List.take_succ_cons, commentRest, if_pos hc, if_neg hrun, htake]
        rfl
    next hc =>
      split at h
      next hrun =>
        cases h
        exact ⟨Nat.zero_le _, by simp [commentRest, hrun], by simpa using hc⟩
      next hrun =>
        obtain ⟨j, rfl, hj⟩ := step h
        obtain ⟨hle, htake, hnext⟩ := ih hj
        refine ⟨by simpa using hle, ?_, hnext⟩
        rw [List.take_succ_cons, commentRest, if_neg hc, if_neg hrun, htake]
        rfl

/-- A closed comment stays as it is, unless a dash follows its closing fence. -/
theorem commentRest_append {run n : Nat} {s v : Text} (h : commentRest run s = .ok n)
    (hv : ∀ d ∈ v.head?, d ≠ '-') : commentRest run (s ++ v) = .ok n := by
  induction s generalizing run n with
  | nil =>
    unfold commentRest at h
    split at h
    · next hrun =>
      cases h
      cases v with
      | nil => simp [commentRest, hrun]
      | cons d ds => simp [commentRest, hrun, hv d rfl]
    · cases h
  | cons c cs ih =>
    rw [List.cons_append, commentRest]
    rw [commentRest] at h
    by_cases hc : c = '-' <;> by_cases hrun : run = 4 <;> simp only [hc, hrun, if_true, if_false] at *
    · cases h
    all_goals
      first
      | exact h
      | (cases hj : commentRest _ cs with
         | ok j => rw [hj] at h; rw [ih hj]; exact h
         | error e => rw [hj] at h; cases h)

theorem stringRest_some {n : Nat} {s : Text} (h : stringRest s = some n) :
    n ≤ s.length ∧ stringRest (s.take n) = some n ∧ ∀ v, stringRest (s ++ v) = some n := by
  fun_induction stringRest s generalizing n with
  | case1 => cases h
  | case2 cs => cases h; exact ⟨by simp, by simp [stringRest], fun v => by simp [stringRest]⟩
  | case3 c cs ih =>
    obtain ⟨j, hj, rfl⟩ := Option.map_eq_some_iff.1 h
    obtain ⟨hle, htake, happend⟩ := ih hj
    refine ⟨by simpa using hle, by simp [stringRest, htake], ?_⟩
    intro v
    simp [stringRest, happend v]
  | case4 c cs hquote hslash ih =>
    obtain ⟨j, hj, rfl⟩ := Option.map_eq_some_iff.1 h
    obtain ⟨hle, htake, happend⟩ := ih hj
    have hc : c ≠ '\\' := by
      rintro rfl
      cases cs with
      | nil => cases hj
      | cons d ds => exact hslash d ds rfl rfl
    have other (t : Text) : stringRest (c :: t) = (stringRest t).map (· + 1) := by
      rw [stringRest.eq_4 c t hquote fun d ds hd _ => hc hd]
    refine ⟨by simpa using hle, ?_, fun v => ?_⟩
    · rw [List.take_succ_cons, other, htake]
      rfl
    · rw [List.cons_append, other, happend v]
      rfl

/-- A closed string ends with a quote. -/
theorem stringRest_closed {n : Nat} {s : Text} (h : stringRest s = some n) :
    ∃ content, s.take n = content ++ ['"'] := by
  fun_induction stringRest s generalizing n with
  | case1 => cases h
  | case2 cs => cases h; exact ⟨[], rfl⟩
  | case3 c cs ih =>
    obtain ⟨j, hj, rfl⟩ := Option.map_eq_some_iff.1 h
    obtain ⟨content, hcontent⟩ := ih hj
    exact ⟨'\\' :: c :: content, by rw [List.take_succ_cons, List.take_succ_cons, hcontent]; rfl⟩
  | case4 c cs _ _ ih =>
    obtain ⟨j, hj, rfl⟩ := Option.map_eq_some_iff.1 h
    obtain ⟨content, hcontent⟩ := ih hj
    exact ⟨c :: content, by rw [List.take_succ_cons, hcontent]; rfl⟩

/-! ### Every lexeme fits its kind -/

theorem isStringChar_of_isWordChar {c : Char} (h : isWordChar c) : isStringChar c := by
  simp [isStringChar, h]

theorem isWordChar_of_isDigit {c : Char} (h : c.isDigit) : isWordChar c := by
  simp [isWordChar, Char.isAlphanum, h]

theorem fits_string {awaited : Awaited} {c : Char} {cs : Text} (ha : awaited ≠ .token)
    (hc : isStringChar c) (hfence : ¬ dashFence <+: c :: cs) :
    (string (c :: cs)).kind.Fits awaited (string (c :: cs)).text := by
  have hrun : (c :: cs).takeWhile isStringChar <+: c :: cs := List.takeWhile_prefix _
  by_cases hw : isWord ((c :: cs).takeWhile isStringChar)
  · simp only [string, hw, if_true]
    exact ⟨hw, fun h => absurd h ha⟩
  · simp only [string, hw]
    refine ⟨ha, ?_, fun d hd => ?_, hw, fun h => hfence (h.trans hrun)⟩
    · simp [hc]
    · exact List.mem_takeWhile_imp hd

theorem fits_word {awaited : Awaited} {c : Char} (cs : Text) (hc : isWordStart c)
    (ha : awaited = .token) : (word (c :: cs)).kind.Fits awaited (word (c :: cs)).text := by
  by_cases hrun : (c :: cs).takeWhile isWordChar = ['_']
  · simp only [word, hrun, if_true]
    exact ⟨rfl, fun h => absurd ha h⟩
  · simp only [word, hrun, if_false]
    refine ⟨?_, fun _ => hrun⟩
    rw [List.takeWhile_cons_of_pos (isWordChar_of_isWordStart hc)]
    simp only [isWord, hc, Bool.true_and, List.all_eq_true]
    exact fun d hd => List.mem_takeWhile_imp hd

theorem fits_number {awaited : Awaited} {c : Char} (cs : Text) (hc : c.isDigit)
    (ha : awaited = .token) : (number (c :: cs)).kind.Fits awaited (number (c :: cs)).text := by
  have hne : (c :: cs).takeWhile Char.isDigit ≠ [] := by simp [hc]
  have hall : ∀ d ∈ (c :: cs).takeWhile Char.isDigit, d.isDigit := fun d hd =>
    List.mem_takeWhile_imp hd
  unfold number
  split
  next rest _ =>
    split
    · exact ⟨ha, hne, hall⟩
    next hfraction =>
      exact ⟨ha, _, _, rfl, hne, hfraction, hall, fun d hd => List.mem_takeWhile_imp hd⟩
  next => exact ⟨ha, hne, hall⟩

theorem fits_twoChars {awaited : Awaited} {c d : Char} {k : TokenKind}
    (h : twoChars c d = some k) (ha : awaited ≠ .token → ¬ isStringChar c) :
    k.Fits awaited [c, d] := by
  unfold twoChars at h
  split at h <;> cases h <;> exact ⟨rfl, by simpa using ha⟩

theorem fits_oneChar {awaited : Awaited} {c : Char} {k : TokenKind}
    (h : oneChar c = some k) (ha : awaited ≠ .token → ¬ isStringChar c) : k.Fits awaited [c] := by
  unfold oneChar at h
  split at h <;> cases h <;> exact ⟨rfl, by simpa using ha⟩

theorem fits_single {awaited : Awaited} {c : Char} (ha : awaited ≠ .token → ¬ isStringChar c) :
    (single c).kind.Fits awaited (single c).text := by
  unfold single
  split
  next h => exact fits_oneChar h ha
  next => trivial

theorem fits_punctuation {awaited : Awaited} {c : Char} (cs : Text)
    (ha : awaited ≠ .token → ¬ isStringChar c) :
    (punctuation c cs).kind.Fits awaited (punctuation c cs).text := by
  unfold punctuation
  split
  · exact fits_single ha
  · split
    next h => exact fits_twoChars h ha
    next => exact fits_single ha

theorem fits_significant {awaited : Awaited} {c : Char} {cs : Text}
    (hfence : ¬ dashFence <+: c :: cs) :
    (significant awaited c cs).kind.Fits awaited (significant awaited c cs).text := by
  unfold significant
  split
  next h => exact fits_string h.1 h.2 hfence
  next h =>
    have ha : awaited ≠ .token → ¬ isStringChar c := fun ha hc => h ⟨ha, hc⟩
    have plainly (hc : isWordChar c) : awaited = .token :=
      Decidable.by_contra fun h => ha h (isStringChar_of_isWordChar hc)
    unfold plain
    split
    next hc => exact fits_word cs hc (plainly (isWordChar_of_isWordStart hc))
    next =>
      split
      next hc => exact fits_number cs hc (plainly (isWordChar_of_isDigit hc))
      next => exact fits_punctuation cs ha

theorem fits_dashComment (awaited : Awaited) (body : Text) :
    (dashComment body).kind.Fits awaited (dashComment body).text := by
  unfold dashComment
  split
  next n h =>
    obtain ⟨hle, htake, -⟩ := commentRest_ok h
    exact ⟨body.take n, rfl, by rw [htake, List.length_take, Nat.min_eq_left hle]⟩
  next => trivial

theorem fits_quotedString (awaited : Awaited) (body : Text) :
    (quotedString body).kind.Fits awaited (quotedString body).text := by
  unfold quotedString
  split
  next n h =>
    obtain ⟨hle, htake, -⟩ := stringRest_some h
    exact ⟨body.take n, rfl, by rw [htake, List.length_take, Nat.min_eq_left hle]⟩
  next => trivial

/-- Every lexeme fits its kind. -/
theorem lexeme_fits (awaited : Awaited) (first : Bool) (c : Char) (cs : Text) :
    (lexeme awaited first c cs).kind.Fits awaited (lexeme awaited first c cs).text := by
  unfold lexeme
  split
  · trivial
  split
  · trivial
  split
  · trivial
  split
  · exact fits_dashComment awaited _
  next hfence =>
    split
    · exact fits_quotedString awaited cs
    · exact fits_significant fun h => hfence (List.isPrefixOf_iff_prefix.2 h)

/-! ### What fits a kind is a lexeme of that kind -/

theorem isAlpha_iff {c : Char} : c.isAlpha ↔
    65 ≤ c.toNat ∧ c.toNat ≤ 90 ∨ 97 ≤ c.toNat ∧ c.toNat ≤ 122 := by
  have upper : c.isUpper = decide (c.val ≥ 'A'.val ∧ c.val ≤ 'Z'.val) := rfl
  have lower : c.isLower = (decide (c.val ≥ 'a'.val) && decide (c.val ≤ 'z'.val)) := rfl
  have alpha : c.isAlpha = (c.isUpper || c.isLower) := rfl
  rw [alpha, upper, lower, Bool.or_eq_true, Bool.and_eq_true]
  simp only [decide_eq_true_eq, ge_iff_le, UInt32.le_iff_toNat_le]
  exact Iff.rfl

/-- The codes of string characters. -/
theorem code_of_isStringChar {c : Char} (h : isStringChar c) :
    c.toNat = 45 ∨ c.toNat = 46 ∨ 48 ≤ c.toNat ∧ c.toNat ≤ 57 ∨ 65 ≤ c.toNat ∧ c.toNat ≤ 90 ∨
      c.toNat = 95 ∨ 97 ≤ c.toNat ∧ c.toNat ≤ 122 ∨ 0x4E00 ≤ c.toNat ∧ c.toNat ≤ 0x9FA5 := by
  have code (d : Char) : d.val.toNat = d.toNat := rfl
  simp only [isStringChar, isWordChar, Char.isAlphanum, Bool.or_eq_true, isAlpha_iff,
    Char.isDigit, Bool.and_eq_true, decide_eq_true_eq, beq_iff_eq, ge_iff_le,
    UInt32.le_iff_toNat_le, code, ← Char.toNat_inj] at h
  simp at h
  omega

/-- Characters that start neither trivia nor a comment or a quoted string. -/
structure Ordinary (c : Char) : Prop where
  mark : c ≠ byteOrderMark
  blank : ¬ isBlank c
  quote : c ≠ '"'

theorem ordinary_of_isStringChar {c : Char} (h : isStringChar c) : Ordinary c where
  mark := by rintro rfl; exact absurd h (by decide)
  blank := by
    have := code_of_isStringChar h
    simp [isBlank, blankRanges]
    omega
  quote := by rintro rfl; exact absurd h (by decide)

theorem lexeme_eq_significant {c : Char} {cs : Text} (hc : Ordinary c)
    (hslash : ¬ ['/', '/'] <+: c :: cs) (hfence : ¬ dashFence <+: c :: cs) (awaited : Awaited)
    (first : Bool) : lexeme awaited first c cs = significant awaited c cs := by
  unfold lexeme
  rw [if_neg fun h => hc.mark h.2, if_neg hc.blank, if_neg (mt List.isPrefixOf_iff_prefix.1 hslash),
    if_neg (mt List.isPrefixOf_iff_prefix.1 hfence), if_neg hc.quote]

/-- A text whose first two characters do not join is no comment. -/
theorem lexeme_of_not_joins {c : Char} {cs : Text} (hc : Ordinary c)
    (hcs : ∀ d ∈ cs.head?, joins c d = false) (awaited : Awaited) (first : Bool) :
    lexeme awaited first c cs = significant awaited c cs := by
  refine lexeme_eq_significant hc ?_ ?_ awaited first
  · rintro ⟨rest, h⟩
    cases h
    exact absurd (hcs '/' rfl) (by decide)
  · rintro ⟨rest, h⟩
    cases h
    exact absurd (hcs '-' rfl) (by decide)

section
variable {awaited : Awaited} {c : Char} {cs v : Text}

theorem takeWhile_run {p : Char → Bool} (hcs : ∀ d ∈ cs, p d) (hv : ∀ d ∈ v.head?, ¬ p d) :
    (cs ++ v).takeWhile p = cs ∧ (cs ++ v).dropWhile p = v := by
  rw [List.takeWhile_append_of_pos hcs, List.dropWhile_append_of_pos hcs]
  cases v with
  | nil => simp
  | cons d ds => simp [hv d rfl]

theorem lexeme_oneChar {k : TokenKind} (h : oneChar c = some k)
    (ha : awaited ≠ .token → ¬ isStringChar c) (hv : ∀ d ∈ v.head?, joins c d = false)
    (first : Bool) : lexeme awaited first c v = ⟨k, [c], none⟩ := by
  have facts : Ordinary c ∧ ¬ isWordStart c ∧ ¬ c.isDigit := by
    unfold oneChar at h
    split at h <;> cases h <;> exact ⟨⟨by decide, by decide, by decide⟩, by decide, by decide⟩
  obtain ⟨hc, hword, hdigit⟩ := facts
  have hsingle : single c = ⟨k, [c], none⟩ := by rw [single, h]
  rw [lexeme_of_not_joins hc hv, significant, if_neg fun h => ha h.1 h.2, plain, if_neg hword,
    if_neg hdigit]
  cases v with
  | nil => exact hsingle
  | cons d ds =>
    have hnone : twoChars c d = none := by
      have := hv d rfl
      simp only [joins, Bool.or_eq_false_iff] at this
      simpa using this.1.1
    rw [punctuation, hnone]
    exact hsingle

theorem lexeme_twoChars {d : Char} {k : TokenKind} (h : twoChars c d = some k)
    (ha : awaited ≠ .token → ¬ isStringChar c) (first : Bool) :
    lexeme awaited first c (d :: v) = ⟨k, [c, d], none⟩ := by
  have facts : Ordinary c ∧ ¬ isWordStart c ∧ ¬ c.isDigit ∧ ¬ (c = '/' ∧ d = '/') ∧
      ¬ (c = '-' ∧ d = '-') := by
    unfold twoChars at h
    split at h <;> cases h <;>
      exact ⟨⟨by decide, by decide, by decide⟩, by decide, by decide, by decide, by decide⟩
  obtain ⟨hc, hword, hdigit, hslash, hdash⟩ := facts
  have hslash : ¬ ['/', '/'] <+: c :: d :: v := by
    rintro ⟨rest, h⟩
    cases h
    exact hslash ⟨rfl, rfl⟩
  have hfence : ¬ dashFence <+: c :: d :: v := by
    rintro ⟨rest, h⟩
    cases h
    exact hdash ⟨rfl, rfl⟩
  rw [lexeme_eq_significant hc hslash hfence, significant, if_neg fun h => ha h.1 h.2, plain,
    if_neg hword, if_neg hdigit, punctuation, h]

theorem lexeme_run (hc : isStringChar c) (hfence : ¬ dashFence <+: c :: cs)
    (awaited : Awaited) (first : Bool) :
    lexeme awaited first c cs = significant awaited c cs := by
  refine lexeme_eq_significant (ordinary_of_isStringChar hc) ?_ hfence awaited first
  rintro ⟨rest, h⟩
  cases h
  exact absurd hc (by decide)

/-- The run of string characters is the text, where what follows is none. -/
theorem lexeme_string (ha : awaited ≠ .token) (hc : ∀ d ∈ c :: cs, isStringChar d)
    (hfence : ¬ dashFence <+: c :: cs) (hv : ∀ d ∈ v.head?, ¬ isStringChar d) (first : Bool) :
    lexeme awaited first c (cs ++ v) =
      ⟨if isWord (c :: cs) then .identifier else .unicodeString, c :: cs, none⟩ := by
  have hstart : isStringChar c := hc c List.mem_cons_self
  have hfence : ¬ dashFence <+: c :: (cs ++ v) := by
    rintro ⟨rest, h⟩
    rcases List.append_eq_append_iff.1 (show dashFence ++ rest = (c :: cs) ++ v from h) with
      ⟨u, hu, -⟩ | ⟨u, hu, hv'⟩
    · exact hfence ⟨u, hu.symm⟩
    · cases u with
      | nil => exact hfence ⟨[], by simpa using hu⟩
      | cons d ds =>
        have hd : d ∈ dashFence := by rw [hu]; simp
        obtain rfl : d = '-' := by simpa [dashFence] using hd
        exact hv '-' (by rw [hv']; rfl) (by decide)
  obtain ⟨hrun, -⟩ := @takeWhile_run (c :: cs) v isStringChar hc hv
  rw [List.cons_append] at hrun
  rw [lexeme_run hstart hfence, significant, if_pos ⟨ha, hstart⟩, string, hrun]

theorem lexeme_word (ha : awaited = .token) (hw : isWord (c :: cs)) (hcs : c :: cs ≠ ['_'])
    (hv : ∀ d ∈ v.head?, ¬ isStringChar d) (first : Bool) :
    lexeme awaited first c (cs ++ v) = ⟨.identifier, c :: cs, none⟩ := by
  simp only [isWord, Bool.and_eq_true, List.all_eq_true] at hw
  have hstart := isWordChar_of_isWordStart hw.1
  have hall : ∀ d ∈ c :: cs, isWordChar d := List.forall_mem_cons.2 ⟨hstart, hw.2⟩
  have hdash : c ≠ '-' := by
    rintro rfl
    exact absurd hw.1 (by decide)
  have hfence : ¬ dashFence <+: c :: (cs ++ v) := by
    rintro ⟨rest, h⟩
    exact hdash (List.cons.inj h).1.symm
  obtain ⟨hrun, -⟩ := @takeWhile_run (c :: cs) v isWordChar hall fun d hd h =>
    hv d hd (isStringChar_of_isWordChar h)
  rw [List.cons_append] at hrun
  rw [lexeme_run (isStringChar_of_isWordChar hstart) hfence, significant, if_neg (by simp [ha]),
    plain, if_pos hw.1, word, hrun, if_neg hcs]

theorem not_isWordStart_of_isDigit (h : c.isDigit) : ¬ isWordStart c ∧ c ≠ '-' := by
  have hn (d : Char) : d.val.toNat = d.toNat := rfl
  simp only [isWordStart, Bool.or_eq_true, isAlpha_iff, Char.isDigit,
    Bool.and_eq_true, decide_eq_true_eq, beq_iff_eq, ge_iff_le, UInt32.le_iff_toNat_le, hn, ne_eq,
    ← Char.toNat_inj] at h ⊢
  simp at h ⊢
  omega

theorem lexeme_number (ha : awaited = .token) (hc : c.isDigit) (first : Bool) :
    lexeme awaited first c cs = number (c :: cs) := by
  obtain ⟨hword, hdash⟩ := not_isWordStart_of_isDigit hc
  have hfence : ¬ dashFence <+: c :: cs := by
    rintro ⟨rest, h⟩
    cases h
    exact hdash rfl
  have hstart := isStringChar_of_isWordChar (isWordChar_of_isDigit hc)
  rw [lexeme_run hstart hfence, significant, if_neg (by simp [ha]), plain, if_neg hword, if_pos hc]

theorem not_isDigit (hv : ∀ d ∈ v.head?, ¬ isStringChar d) : ∀ d ∈ v.head?, ¬ d.isDigit :=
  fun d hd h => hv d hd (isStringChar_of_isWordChar (isWordChar_of_isDigit h))

theorem number_integer {t : Text} (ht : ∀ d ∈ t, d.isDigit) (hv : ∀ d ∈ v.head?, ¬ d.isDigit)
    (hpoint : ∀ rest, v = '.' :: rest → ∀ d ∈ rest.head?, ¬ d.isDigit) :
    number (t ++ v) = ⟨.integer, t, none⟩ := by
  obtain ⟨htake, hdrop⟩ := takeWhile_run ht hv
  unfold number
  rw [htake, hdrop]
  split
  next rest =>
    have hrest : rest.takeWhile Char.isDigit = [] := by
      cases rest with
      | nil => rfl
      | cons d ds => exact List.takeWhile_cons_of_neg (hpoint _ rfl d rfl)
    rw [hrest]
  next => rfl

theorem number_float {whole fraction : Text} (hw : ∀ d ∈ whole, d.isDigit)
    (hf : ∀ d ∈ fraction, d.isDigit) (hne : fraction ≠ []) (hv : ∀ d ∈ v.head?, ¬ d.isDigit) :
    number (whole ++ '.' :: fraction ++ v) = ⟨.float, whole ++ '.' :: fraction, none⟩ := by
  obtain ⟨htake, hdrop⟩ := @takeWhile_run whole ('.' :: (fraction ++ v)) Char.isDigit hw
    fun d hd => by cases hd; decide
  obtain ⟨hrest, -⟩ := takeWhile_run hf hv
  unfold number
  simp only [List.append_assoc, List.cons_append, htake, hdrop, hrest]

/-- A number is an integer or a float, and what follows does not lead on. -/
theorem number_cases (t : Text) :
    (∃ whole rest, t = whole ++ rest ∧ (∀ d ∈ whole, d.isDigit) ∧
      (∀ d ∈ rest.head?, ¬ d.isDigit) ∧
      (∀ r, rest = '.' :: r → ∀ d ∈ r.head?, ¬ d.isDigit) ∧ number t = ⟨.integer, whole, none⟩) ∨
    ∃ whole fraction rest, t = whole ++ '.' :: fraction ++ rest ∧ (∀ d ∈ whole, d.isDigit) ∧
      (∀ d ∈ fraction, d.isDigit) ∧ fraction ≠ [] ∧ (∀ d ∈ rest.head?, ¬ d.isDigit) ∧
      number t = ⟨.float, whole ++ '.' :: fraction, none⟩ := by
  have head (s : Text) : ∀ d ∈ (s.dropWhile Char.isDigit).head?, ¬ d.isDigit := by
    intro d hd
    have := List.head?_dropWhile_not Char.isDigit s
    rw [hd] at this
    simpa using this
  have hsplit := (@List.takeWhile_append_dropWhile _ Char.isDigit t).symm
  have hwhole : ∀ d ∈ t.takeWhile Char.isDigit, d.isDigit := fun d hd => List.mem_takeWhile_imp hd
  by_cases hpoint : ∀ r, t.dropWhile Char.isDigit = '.' :: r → ∀ d ∈ r.head?, ¬ d.isDigit
  · refine .inl ⟨_, _, hsplit, hwhole, head t, hpoint, ?_⟩
    have := number_integer hwhole (head t) hpoint
    rwa [← hsplit] at this
  · simp only [Classical.not_forall, Classical.not_not] at hpoint
    obtain ⟨r, hr, d, hd, hdigit⟩ := hpoint
    have hfraction : ∀ d ∈ r.takeWhile Char.isDigit, d.isDigit := fun d hd =>
      List.mem_takeWhile_imp hd
    have hne : r.takeWhile Char.isDigit ≠ [] := by
      cases r with
      | nil => cases hd
      | cons e es => cases hd; simp [hdigit]
    have ht : t = t.takeWhile Char.isDigit ++ '.' :: r.takeWhile Char.isDigit ++
        r.dropWhile Char.isDigit := by
      rw [List.append_assoc, List.cons_append, List.takeWhile_append_dropWhile, ← hr, ← hsplit]
    refine .inr ⟨_, _, _, ht, hwhole, hfraction, hne, head r, ?_⟩
    have := number_float hwhole hfraction hne (head r)
    rwa [← ht] at this

end

/-- What fits a kind is a lexeme of that kind, wherever what follows does not lead on. -/
theorem lexeme_of_fits {awaited : Awaited} {k : TokenKind} {c : Char} {cs v : Text}
    (fits : k.Fits awaited (c :: cs)) (hk : k ∉ [.whitespace, .lineComment, .error])
    (stops : k.StopsAt v) (first : Bool) :
    lexeme awaited first c (cs ++ v) = ⟨k, c :: cs, none⟩ := by
  cases k
  case whitespace => exact absurd (by decide) hk
  case lineComment => exact absurd (by decide) hk
  case error => exact absurd (by decide) hk
  case endOfInput => exact fits.elim
  case quotedString =>
    obtain ⟨body, hbody, hrest⟩ := fits
    cases hbody
    have happend := (stringRest_some hrest).2.2 v
    have hslash : ¬ ['/', '/'].isPrefixOf ('"' :: (cs ++ v)) := by simp
    have hfence : ¬ dashFence.isPrefixOf ('"' :: (cs ++ v)) := by simp [dashFence]
    rw [lexeme, if_neg fun h => absurd h.2 (by decide), if_neg (by decide), if_neg hslash,
      if_neg hfence, if_pos rfl, quotedString, happend]
    simp
  case dashComment =>
    obtain ⟨body, hbody, hrest⟩ := fits
    obtain ⟨rfl, rfl⟩ := List.cons.inj (show c :: cs = '-' :: (['-', '-', '-'] ++ body) from hbody)
    have happend := commentRest_append hrest stops
    have hslash : ¬ ['/', '/'].isPrefixOf ('-' :: (['-', '-', '-'] ++ body ++ v)) := by simp
    have hfence : dashFence.isPrefixOf ('-' :: (['-', '-', '-'] ++ body ++ v)) := by
      simp [dashFence]
    rw [lexeme, if_neg fun h => absurd h.2 (by decide), if_neg (by decide), if_neg hslash,
      if_pos hfence]
    simp [dashComment, happend, dashFence]
  case identifier =>
    obtain ⟨hw, hne⟩ := fits
    by_cases ha : awaited = .token
    · exact lexeme_word ha hw (hne ha) stops first
    · have hw' := hw
      simp only [isWord, Bool.and_eq_true, List.all_eq_true] at hw'
      have hall : ∀ d ∈ c :: cs, isStringChar d := List.forall_mem_cons.2
        ⟨isStringChar_of_isWordChar (isWordChar_of_isWordStart hw'.1), fun d hd =>
          isStringChar_of_isWordChar (hw'.2 d hd)⟩
      have hfence : ¬ dashFence <+: c :: cs := by
        rintro ⟨rest, h⟩
        cases h
        exact absurd hw'.1 (by decide)
      rw [lexeme_string ha hall hfence stops first, if_pos hw]
  case unicodeString =>
    obtain ⟨ha, -, hall, hw, hfence⟩ := fits
    rw [lexeme_string ha hall hfence stops first, if_neg hw]
  case integer =>
    obtain ⟨ha, -, hall⟩ := fits
    rw [lexeme_number ha (hall c List.mem_cons_self)]
    apply number_integer hall (not_isDigit stops)
    intro rest hv
    exact absurd (by decide) (stops '.' (by rw [hv]; rfl))
  case float =>
    obtain ⟨ha, whole, fraction, ht, hne, hfraction, hw, hf⟩ := fits
    cases whole with
    | nil => exact absurd rfl hne
    | cons d ds =>
      obtain ⟨rfl, rfl⟩ := List.cons.inj ht
      rw [lexeme_number ha (hw c List.mem_cons_self)]
      exact number_float hw hf hfraction (not_isDigit stops)
  case underscore =>
    obtain ⟨ht, ha⟩ := fits
    obtain ⟨rfl, rfl⟩ := List.cons.inj (show c :: cs = '_' :: [] from ht)
    have ha : awaited = .token := Decidable.by_contra fun h => ha h '_' rfl (by decide)
    obtain ⟨hrun, -⟩ := @takeWhile_run ['_'] v isWordChar (List.forall_mem_singleton.2 rfl) fun d hd h =>
      stops d hd (isStringChar_of_isWordChar h)
    have hfence : ¬ dashFence <+: '_' :: v := by
      rintro ⟨rest, h⟩
      cases h
    rw [List.nil_append, lexeme_run (by decide) hfence, significant, if_neg (by simp [ha]), plain,
      if_pos (by decide), word]
    rw [List.cons_append, List.nil_append] at hrun
    rw [hrun]
    rfl
  -- The punctuation, each kind with its own text.
  all_goals
    obtain ⟨ht, ha⟩ := fits
    obtain ⟨hc, hcs⟩ := List.cons.inj ht
    subst hc hcs
    first
    | exact lexeme_oneChar rfl (fun h => ha h _ rfl) (stops _ rfl) first
    | exact lexeme_twoChars rfl (fun h => ha h _ rfl) first

end Lexeme

end RelationNotation
