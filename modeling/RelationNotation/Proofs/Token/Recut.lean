import Mathlib.Data.List.Forall2
import RelationNotation.Proofs.Token.Fault
import RelationNotation.Proofs.Token.Significant

/-!
A text cut off behind its tokens, or set before a blank, keeps its tokens: `lexeme_recut` says so
of one lexeme. Set before a new line, or at the end, a stretch of a text has the same structural
tokens wherever it stands, each moved by the same number of characters: `significantFrom_cut`.
-/

namespace RelationNotation

open Token

/-- Nothing, or a new line. -/
def Breaks (v : Text) : Prop := ∀ d ∈ v.head?, d = '\n'

/-- Nothing, or a blank. -/
def StartsBlank (v : Text) : Prop := ∀ d ∈ v.head?, isBlank d

theorem breaks_nil : Breaks [] := by simp [Breaks]

theorem breaks_newline (v : Text) : Breaks ('\n' :: v) := by simp [Breaks]

theorem Breaks.startsBlank {v : Text} (h : Breaks v) : StartsBlank v :=
  fun d hd => h d hd ▸ isBlank_newline

theorem not_isStringChar_of_blank {c : Char} (hc : isBlank c) : isStringChar c = false := by
  simpa using forall_blank (p := fun c => !isStringChar c) hc (by decide)

theorem not_isWordChar_of_blank {c : Char} (hc : isBlank c) : isWordChar c = false := by
  simpa using forall_blank (p := fun c => !isWordChar c) hc (by decide)

theorem not_isDigit_of_blank {c : Char} (hc : isBlank c) : c.isDigit = false := by
  simpa using forall_blank (p := fun c => !c.isDigit) hc (by decide)

theorem Lexeme.twoChars_blank (c : Char) {d : Char} (hd : isBlank d) : twoChars c d = none := by
  unfold twoChars
  split <;> first | rfl | exact absurd hd (by decide)

namespace ScanFault

/-- Whether a fault takes the whole rest of a text. -/
def isOpen : ScanFault → Bool
  | .unexpected _ => false
  | .unclosedString | .unclosedComment | .longDashRun => true

end ScanFault

namespace Lexeme

/-- Whether a lexeme takes the whole rest of a text because it is never closed. -/
def IsOpen (l : Lexeme) : Prop := ∃ f, l.fault = some f ∧ f.isOpen

variable {u v w : Text}

/-! ### Runs and prefixes -/

theorem takeWhile_recut {p : Char → Bool} (hlen : ((u ++ w).takeWhile p).length ≤ u.length)
    (hv : ((u ++ w).takeWhile p).length < u.length ∨ ∀ d ∈ v.head?, ¬ p d) :
    (u ++ v).takeWhile p = (u ++ w).takeWhile p := by
  by_cases hu : ∀ d ∈ u, p d
  · have hlong : (u ++ w).takeWhile p = u ++ w.takeWhile p := List.takeWhile_append_of_pos hu
    rw [hlong, List.length_append] at hlen hv
    have hw : w.takeWhile p = [] := List.length_eq_zero_iff.1 (by omega)
    have hv := hv.resolve_left (by omega)
    rw [takeWhile_run hu hv |>.1, hlong, hw, List.append_nil]
  · have hlt : (u.takeWhile p).length ≠ u.length := fun h =>
      hu (by simpa using (List.takeWhile_eq_self_iff.1 ((List.takeWhile_prefix p).eq_of_length h)))
    rw [List.takeWhile_append, List.takeWhile_append, if_neg hlt, if_neg hlt]

theorem prefix_recut {s : Text} (hs : ∀ d ∈ s, isBlank d = false) (hv : StartsBlank v)
    (h : s <+: u ++ v) : s <+: u := by
  rcases List.prefix_or_prefix_of_prefix h (List.prefix_append u v) with hu | ⟨t, rfl⟩
  · exact hu
  · have ht : t <+: v := (List.prefix_append_right_inj u).1 h
    cases t with
    | nil => simp
    | cons d ds =>
      obtain ⟨rest, rfl⟩ := ht
      have hd : isBlank d := hv d rfl
      rw [hs d (by simp)] at hd
      cases hd

theorem not_of_startsBlank {p : Char → Bool} (hp : ∀ {d}, isBlank d → p d = false)
    (hv : StartsBlank v) : ∀ d ∈ v.head?, ¬ p d := by
  intro d hd
  rw [hp (hv d hd)]
  decide

/-! ### One lexeme -/

theorem isOpen_of_commentRest {run : Nat} {s : Text} {fault : ScanFault}
    (h : commentRest run s = .error fault) : fault.isOpen := by
  induction s generalizing run with
  | nil =>
    unfold commentRest at h
    split at h <;> cases h
    rfl
  | cons c cs ih =>
    have step {r : Nat} (hr : (commentRest r cs).map (· + 1) = .error fault) :
        commentRest r cs = .error fault := by
      cases hj : commentRest r cs with
      | ok j => rw [hj] at hr; cases hr
      | error e => rw [hj] at hr; cases hr; rfl
    unfold commentRest at h
    split at h
    · split at h
      · cases h
        rfl
      · exact ih (step h)
    · split at h
      · cases h
      · exact ih (step h)

theorem dashComment_recut (hlen : (dashComment (u ++ w)).text.length ≤ 4 + u.length)
    (hopen : ¬ (dashComment (u ++ w)).IsOpen) (hv : StartsBlank v) :
    dashComment (u ++ v) = dashComment (u ++ w) := by
  cases h : commentRest 0 (u ++ w) with
  | ok n =>
    obtain ⟨hle, htake, hnext⟩ := commentRest_ok h
    have hn : n ≤ u.length := by
      simp only [dashComment, h, dashFence, List.length_append, List.length_take] at hlen
      simp only [List.length_cons, List.length_nil] at hlen
      rw [List.length_append] at hle
      omega
    rw [List.take_append_of_le_length hn] at htake
    have hhead : ∀ d ∈ (u.drop n ++ v).head?, d ≠ '-' := by
      intro d hd
      cases hu : u.drop n with
      | nil =>
        rw [hu, List.nil_append] at hd
        exact fun he => absurd (he ▸ hv d hd) (by decide)
      | cons e es =>
        rw [hu] at hd
        rw [List.drop_append_of_le_length hn, hu] at hnext
        exact hnext d hd
    have hrest : commentRest 0 (u ++ v) = .ok n := by
      have := commentRest_append htake hhead
      rwa [← List.append_assoc, List.take_append_drop] at this
    simp only [dashComment, h, hrest]
    rw [List.take_append_of_le_length hn, List.take_append_of_le_length hn]
  | error fault =>
    exact absurd ⟨fault, by simp only [dashComment, h], isOpen_of_commentRest h⟩ hopen

theorem quotedString_recut (hlen : (quotedString (u ++ w)).text.length ≤ 1 + u.length)
    (hopen : ¬ (quotedString (u ++ w)).IsOpen) : quotedString (u ++ v) = quotedString (u ++ w) := by
  cases h : stringRest (u ++ w) with
  | some n =>
    obtain ⟨hle, htake, -⟩ := stringRest_some h
    have hn : n ≤ u.length := by
      simp only [quotedString, h, List.length_cons, List.length_take] at hlen
      rw [List.length_append] at hle hlen
      omega
    rw [List.take_append_of_le_length hn] at htake
    have hrest : stringRest (u ++ v) = some n := by
      have := (stringRest_some htake).2.2 (u.drop n ++ v)
      rwa [← List.append_assoc, List.take_append_drop] at this
    simp only [quotedString, h, hrest]
    rw [List.take_append_of_le_length hn, List.take_append_of_le_length hn]
  | none => exact absurd ⟨.unclosedString, by simp only [quotedString, h], rfl⟩ hopen

/-- What a text begins with within its first part is what the first part begins with. -/
theorem split_of_length_le {s t : Text} (h : u ++ w = s ++ t) (hle : s.length ≤ u.length) :
    ∃ u', u = s ++ u' ∧ t = u' ++ w := by
  obtain ⟨u', rfl⟩ : s <+: u :=
    List.prefix_of_prefix_length_le ⟨t, h.symm⟩ (List.prefix_append u w) hle
  rw [List.append_assoc] at h
  exact ⟨u', rfl, (List.append_cancel_left h).symm⟩

theorem head_recut {q : Char → Prop} (hw : ∀ d ∈ (u ++ w).head?, q d) (hv : ∀ d ∈ v.head?, q d) :
    ∀ d ∈ (u ++ v).head?, q d := by
  cases u with
  | nil => exact hv
  | cons c cs => exact hw

theorem number_recut (hlen : (number (u ++ w)).text.length ≤ u.length) (hv : StartsBlank v) :
    number (u ++ v) = number (u ++ w) := by
  have hdigit := not_of_startsBlank (p := Char.isDigit) not_isDigit_of_blank hv
  rcases number_cases (u ++ w) with ⟨whole, rest, ht, hw, hr, hpoint, hn⟩ |
    ⟨whole, fraction, rest, ht, hw, hf, hne, hr, hn⟩
  · rw [hn] at hlen ⊢
    obtain ⟨u', rfl, rfl⟩ := split_of_length_le ht hlen
    rw [List.append_assoc]
    apply number_integer hw (head_recut hr hdigit)
    intro r hr'
    cases u' with
    | nil => exact absurd (hv '.' (by rw [show v = '.' :: r from hr']; rfl)) (by decide)
    | cons d ds =>
      obtain ⟨rfl, rfl⟩ := List.cons.inj hr'
      exact head_recut (hpoint (ds ++ w) rfl) hdigit
  · rw [hn] at hlen ⊢
    obtain ⟨u', rfl, rfl⟩ := split_of_length_le ht hlen
    rw [List.append_assoc]
    exact number_float hw hf hne (head_recut hr hdigit)

theorem punctuation_recut {c : Char} (hlen : (punctuation c (u ++ w)).text.length ≤ 1 + u.length)
    (hv : StartsBlank v) : punctuation c (u ++ v) = punctuation c (u ++ w) := by
  cases u with
  | cons d ds => rfl
  | nil =>
    have alone : punctuation c w = single c := by
      cases w with
      | nil => rfl
      | cons d ds =>
        rw [List.nil_append, punctuation] at hlen
        rw [punctuation]
        split at hlen
        · simp at hlen
        next => rfl
    rw [List.nil_append, List.nil_append, alone]
    cases v with
    | nil => rfl
    | cons d ds => rw [punctuation, twoChars_blank c (hv d rfl)]

theorem significant_recut {awaited : Awaited} {c : Char}
    (hlen : (significant awaited c (u ++ w)).text.length ≤ 1 + u.length) (hv : StartsBlank v) :
    significant awaited c (u ++ v) = significant awaited c (u ++ w) := by
  have run {p : Char → Bool} (hp : ∀ {d}, isBlank d → p d = false)
      (h : ((c :: (u ++ w)).takeWhile p).length ≤ 1 + u.length) :
      (c :: (u ++ v)).takeWhile p = (c :: (u ++ w)).takeWhile p :=
    takeWhile_recut (u := c :: u) (by simpa [Nat.add_comm] using h) (.inr (not_of_startsBlank hp hv))
  unfold significant plain at hlen ⊢
  by_cases hstring : awaited ≠ .token ∧ isStringChar c
  · simp only [if_pos hstring, string] at hlen ⊢
    rw [run not_isStringChar_of_blank hlen]
  by_cases hword : isWordStart c
  · simp only [if_neg hstring, if_pos hword, word] at hlen ⊢
    rw [run not_isWordChar_of_blank hlen]
  by_cases hdigit : c.isDigit
  · simp only [if_neg hstring, if_neg hword, if_pos hdigit] at hlen ⊢
    exact number_recut (u := c :: u) (by simpa [Nat.add_comm] using hlen) hv
  · simp only [if_neg hstring, if_neg hword, if_neg hdigit] at hlen ⊢
    exact punctuation_recut hlen hv

theorem isPrefixOf_recut {s : Text} (hs : ∀ d ∈ s, isBlank d = false) {c : Char}
    (hv : StartsBlank v)
    (h : ¬ s.isPrefixOf (c :: (u ++ w))) : ¬ s.isPrefixOf (c :: (u ++ v)) := by
  rw [List.isPrefixOf_iff_prefix] at h ⊢
  intro hs'
  have hu : s <+: c :: u := prefix_recut hs hv hs'
  exact h (hu.trans (List.prefix_append (c :: u) w))

theorem isPrefixOf_of_length_le {s : Text} {c : Char} (h : s.isPrefixOf (c :: (u ++ w)))
    (hle : s.length ≤ 1 + u.length) : s <+: c :: u := by
  rw [List.isPrefixOf_iff_prefix] at h
  refine List.prefix_of_prefix_length_le h (List.prefix_append (c :: u) w) ?_
  rw [List.length_cons]
  omega

/-- A lexeme within the first part of a text is the same whatever follows that part, as long as
nothing or a blank does. Only blanks and a line comment must not reach to the end of that part:
blanks would grow, and what a line comment must not meet is anything but a new line. -/
theorem lexeme_recut {awaited : Awaited} {first first' : Bool} {c : Char}
    (hfirst : c = byteOrderMark → first' = first)
    (hlen : (lexeme awaited first c (u ++ w)).text.length ≤ 1 + u.length)
    (hblank : isBlank c → (lexeme awaited first c (u ++ w)).text.length < 1 + u.length)
    (hcomment : (lexeme awaited first c (u ++ w)).kind = .lineComment →
      (lexeme awaited first c (u ++ w)).text.length < 1 + u.length ∨ Breaks v)
    (hopen : ¬ (lexeme awaited first c (u ++ w)).IsOpen) (hv : StartsBlank v) :
    lexeme awaited first' c (u ++ v) = lexeme awaited first c (u ++ w) := by
  have run {p : Char → Bool} (h : ((c :: (u ++ w)).takeWhile p).length ≤ 1 + u.length)
      (h' : ((c :: (u ++ w)).takeWhile p).length < 1 + u.length ∨ ∀ d ∈ v.head?, ¬ p d) :
      (c :: (u ++ v)).takeWhile p = (c :: (u ++ w)).takeWhile p :=
    takeWhile_recut (u := c :: u) (by simpa [Nat.add_comm] using h)
      (by simpa [Nat.add_comm] using h')
  have hmark : (first' ∧ c = byteOrderMark) ↔ (first ∧ c = byteOrderMark) :=
    and_congr_left fun h => by rw [hfirst h]
  unfold lexeme at hlen hblank hcomment hopen ⊢
  simp only [hmark]
  by_cases h₁ : first ∧ c = byteOrderMark
  · simp only [if_pos h₁]
  simp only [if_neg h₁] at hlen hblank hcomment hopen ⊢
  by_cases h₂ : isBlank c
  · simp only [if_pos h₂] at hlen hblank hcomment hopen ⊢
    rw [run hlen (.inl (hblank h₂))]
  simp only [if_neg h₂] at hlen hblank hcomment hopen ⊢
  by_cases h₃ : ['/', '/'].isPrefixOf (c :: (u ++ w))
  · simp only [if_pos h₃] at hlen hblank hcomment hopen ⊢
    have hlong : ['/', '/'].length ≤ 1 + u.length := by
      refine Nat.le_trans ?_ hlen
      obtain ⟨rest, hrest⟩ := List.isPrefixOf_iff_prefix.1 h₃
      rw [← hrest]
      simp
    have hslash : ['/', '/'] <+: c :: (u ++ v) :=
      (isPrefixOf_of_length_le h₃ hlong).trans (List.prefix_append (c :: u) v)
    have hnewline (h : Breaks v) : ∀ d ∈ v.head?, ¬ decide (d ≠ '\n') := by simpa [Breaks] using h
    rw [if_pos (List.isPrefixOf_iff_prefix.2 hslash), run hlen ((hcomment trivial).imp_right hnewline)]
  rw [if_neg (isPrefixOf_recut (by simp [isBlank_slash]) hv h₃)]
  simp only [if_neg h₃] at hlen hblank hcomment hopen ⊢
  by_cases h₄ : dashFence.isPrefixOf (c :: (u ++ w))
  · simp only [if_pos h₄] at hlen hblank hcomment hopen ⊢
    have hlong : dashFence.length ≤ 1 + u.length := by
      refine Nat.le_trans ?_ hlen
      unfold dashComment
      split <;> simp
    have hfence := isPrefixOf_of_length_le h₄ hlong
    obtain ⟨body, hbody⟩ := hfence
    obtain ⟨rfl, rfl⟩ := List.cons.inj hbody
    rw [if_pos (by simp [dashFence])]
    refine dashComment_recut (Nat.le_trans hlen ?_) hopen hv
    simp only [List.append_eq, List.length_append, List.length_cons, List.length_nil]
    omega
  rw [if_neg (isPrefixOf_recut (by simp [dashFence, isBlank_dash]) hv h₄)]
  simp only [if_neg h₄] at hlen hblank hcomment hopen ⊢
  by_cases h₅ : c = '"'
  · simp only [if_pos h₅] at hlen hblank hcomment hopen ⊢
    exact quotedString_recut hlen hopen
  · simp only [if_neg h₅] at hlen hblank hcomment hopen ⊢
    exact significant_recut hlen hv

theorem not_isOpen_of_none {k : TokenKind} {t : Text} : ¬ (⟨k, t, none⟩ : Lexeme).IsOpen := by
  rintro ⟨f, hf, -⟩
  cases hf

/-- Words, numbers and punctuation need no closing. -/
theorem not_isOpen_significant (awaited : Awaited) (c : Char) (cs : Text) :
    ¬ (significant awaited c cs).IsOpen := by
  rintro ⟨f, hf, hopen⟩
  rw [significant_of_fault hf] at hf
  cases hf
  cases hopen

/-- What is wrong with a lexeme is that no token starts with its one character, or that it is never
closed. -/
theorem lexeme_of_fault {awaited : Awaited} {first : Bool} {c : Char} {cs : Text} {f : ScanFault}
    (h : (lexeme awaited first c cs).fault = some f) :
    lexeme awaited first c cs = ⟨.error, [c], some (.unexpected c)⟩ ∨ f.isOpen := by
  unfold lexeme at h ⊢
  split at h
  · cases h
  next h₁ =>
  rw [if_neg h₁]
  split at h
  · cases h
  next h₂ =>
  rw [if_neg h₂]
  split at h
  · cases h
  next h₃ =>
  rw [if_neg h₃]
  split at h
  next =>
    unfold dashComment at h
    split at h
    · cases h
    next hfault =>
      cases h
      exact .inr (isOpen_of_commentRest hfault)
  next h₄ =>
  rw [if_neg h₄]
  split at h
  next =>
    unfold quotedString at h
    split at h
    · cases h
    · cases h
      exact .inr rfl
  next h₅ =>
    rw [if_neg h₅]
    exact .inl (significant_of_fault h)

/-- A lexeme that is never closed takes the whole text. -/
theorem isOpen_lexeme {awaited : Awaited} {first : Bool} {c : Char} {cs : Text}
    (h : (lexeme awaited first c cs).IsOpen) :
    (lexeme awaited first c cs).text = c :: cs ∧ (lexeme awaited first c cs).kind = .error := by
  revert h
  unfold lexeme
  split
  · exact fun h => absurd h not_isOpen_of_none
  split
  · exact fun h => absurd h not_isOpen_of_none
  split
  · exact fun h => absurd h not_isOpen_of_none
  split
  next hfence =>
    unfold dashComment
    split
    · exact fun h => absurd h not_isOpen_of_none
    · exact fun _ => ⟨(eq_fence_append hfence).symm, rfl⟩
  split
  next hc =>
    unfold quotedString
    split
    · exact fun h => absurd h not_isOpen_of_none
    · exact fun _ => ⟨by rw [hc], rfl⟩
  · exact fun h => absurd h (not_isOpen_significant awaited c cs)

/-- A lexeme that stays as it is with a text right behind it: blanks would go on, and so would what is
never closed; a line comment goes on up to a new line. -/
def StopsBefore (l : Lexeme) (v : Text) : Prop :=
  (∀ c ∈ l.text.head?, ¬ isBlank c) ∧ (l.kind = .lineComment → Breaks v) ∧ ¬ l.IsOpen

theorem head?_lexeme (awaited : Awaited) (first : Bool) (c : Char) (cs : Text) :
    (lexeme awaited first c cs).text.head? = some c := by
  obtain ⟨hne, rest, split⟩ := covers_lexeme awaited first c cs
  obtain ⟨d, ls, htext⟩ := List.exists_cons_of_ne_nil hne
  rw [htext] at split ⊢
  rw [(List.cons.inj split).1]
  rfl

/-- What stands behind a lexeme, or behind the text that follows it, does not matter as long as it is
nothing or a blank. -/
theorem lexeme_within {awaited : Awaited} {first first' : Bool} {c : Char} {cs : Text} {l : Lexeme}
    (hl : lexeme awaited first c cs = l) (split : c :: cs = l.text ++ u ++ w)
    (hfirst : c = byteOrderMark → first' = first) (hlast : u ≠ [] ∨ l.StopsBefore v)
    (hv : StartsBlank v) :
    ∃ ls, l.text = c :: ls ∧ lexeme awaited first' c (ls ++ u ++ v) = l := by
  obtain ⟨ls, htext⟩ := List.head?_eq_some_iff.1 (head?_lexeme awaited first c cs)
  rw [hl] at htext
  rw [htext] at split
  obtain rfl := (List.cons.inj split).2
  refine ⟨ls, htext, ?_⟩
  have hl' : lexeme awaited first c (ls ++ u ++ w) = l := hl
  have hlen : l.text.length = 1 + ls.length := by rw [htext, List.length_cons, Nat.add_comm]
  have hshort (hu : u ≠ []) : l.text.length < 1 + (ls ++ u).length := by
    have := List.length_pos_iff.2 hu
    rw [hlen, List.length_append]
    omega
  rw [← hl']
  refine lexeme_recut hfirst ?_ (fun hc => ?_) (fun hk => ?_) (fun ho => ?_) hv
  · rw [hl', hlen, List.length_append]
    omega
  · rw [hl']
    exact hshort (hlast.resolve_right fun h => h.1 c (by rw [htext]; rfl) hc)
  · rw [hl'] at hk ⊢
    exact hlast.imp hshort fun h => h.2.1 hk
  · have hu : u ≠ [] := hlast.resolve_right fun h => h.2.2 (hl' ▸ ho)
    have hall := congrArg List.length (isOpen_lexeme ho).1
    have := hshort hu
    rw [hl'] at hall
    simp only [List.length_cons, List.length_append] at *
    omega

/-- A byte order mark is blank or an error. -/
theorem lexeme_byteOrderMark (awaited : Awaited) (first : Bool) (cs : Text) :
    (lexeme awaited first byteOrderMark cs).kind.isTrivia ∧
      (lexeme awaited first byteOrderMark cs).kind ≠ .quotedString := by
  have hsingle : single byteOrderMark = ⟨.error, [byteOrderMark], some (.unexpected byteOrderMark)⟩ :=
    rfl
  have hslash : ¬ ['/', '/'].isPrefixOf (byteOrderMark :: cs) := by simp [byteOrderMark]
  have hfence : ¬ dashFence.isPrefixOf (byteOrderMark :: cs) := by simp [byteOrderMark, dashFence]
  cases first with
  | true => exact ⟨rfl, by simp [lexeme]⟩
  | false =>
    have hlexeme : lexeme awaited false byteOrderMark cs = single byteOrderMark := by
      rw [lexeme, if_neg (by simp), if_neg (by decide), if_neg hslash, if_neg hfence,
        if_neg (by decide), significant, if_neg (fun h => absurd h.2 (by decide)), plain,
        if_neg (by decide), if_neg (by decide)]
      cases cs with
      | nil => rfl
      | cons d ds => rfl
    rw [hlexeme, hsingle]
    exact ⟨rfl, by decide⟩

end Lexeme

/-! ### A stretch of structural tokens -/

namespace Token

/-- The same token, some characters further on. -/
structure MovedBy (k : Int) (t u : Token) : Prop where
  kind : u.kind = t.kind
  text : u.text = t.text
  start : u.span.start.offset = t.span.start.offset + k
  stop : u.span.stop.offset = t.span.stop.offset + k

end Token

theorem toToken_movedBy (l : Lexeme) (p q : Position) :
    MovedBy (q.offset - p.offset) (l.toToken p) (l.toToken q) where
  kind := rfl
  text := rfl
  start := by simp only [Lexeme.toToken]; omega
  stop := by simp only [Lexeme.toToken, Position.offset_after]; omega

/-- A stretch of text that stood at one place gives, at another place, the same structural tokens,
when nothing or a new line follows. -/
def Rescans (m : ScanMode) (ts : List Token) (p q : Position) (u : Text) : Prop :=
  ∀ v, Breaks v → ∃ us, significantFrom m q (u ++ v) =
      us ++ significantFrom (m.afterAll ts) (q.after u) v ∧
    List.Forall₂ (MovedBy (q.offset - p.offset)) ts us

/-- A lexeme that gives a structural token stays as it is before a new line. -/
theorem stopsBefore_of_takes {m : ScanMode} {p : Position} {c : Char} {cs v : Text} {l : Lexeme}
    (hl : lexeme m.awaited (p.offset == 0) c cs = l) (h : m.takes l.kind) (hv : Breaks v) :
    l.StopsBefore v := by
  have hk := ScanMode.not_trivia_of_takes h
  refine ⟨fun d hd hblank => ?_, fun _ => hv, fun ho => ?_⟩
  · rw [← hl, Lexeme.head?_lexeme] at hd
    obtain rfl := Option.some.inj hd
    rw [Lexeme.lexeme_of_blank hblank] at hl
    exact hk (by simp [← hl])
  · subst hl
    exact hk (by simp [(Lexeme.isOpen_lexeme ho).2])

/-- Where a stretch of text that begins with a lexeme is scanned at another place, the lexeme is the
same. -/
theorem lexeme_elsewhere {m : ScanMode} {p q : Position} {c : Char} {cs u v w : Text} {l : Lexeme}
    (hl : lexeme m.awaited (p.offset == 0) c cs = l) (hu : c :: cs = l.text ++ u ++ w)
    (hplace : 0 < p.offset ∧ 0 < q.offset ∨ m.takes l.kind) (hlast : m.takes l.kind ∨ u ≠ [])
    (hv : Breaks v) :
    ∃ ls, l.text = c :: ls ∧ lexeme m.awaited (q.offset == 0) c (ls ++ u ++ v) = l := by
  refine Lexeme.lexeme_within hl hu (fun hc => ?_) (hlast.symm.imp_right fun h => ?_)
    hv.startsBlank
  · rcases hplace with ⟨hp, hq⟩ | htakes
    · rw [beq_eq_false_iff_ne.2 (by omega), beq_eq_false_iff_ne.2 (by omega)]
    · obtain ⟨htrivia, hquoted⟩ := Lexeme.lexeme_byteOrderMark m.awaited (p.offset == 0) cs
      rw [← hc, hl] at htrivia hquoted
      simp [ScanMode.takes, htrivia, hquoted] at htakes
  · exact stopsBefore_of_takes hl h hv

theorem offset_after_sub (p q : Position) (t : Text) :
    (q.after t).offset - (p.after t).offset = q.offset - p.offset := by
  rw [Position.offset_after, Position.offset_after]
  omega

section
variable {m : ScanMode} {p q : Position} {c : Char} {cs u w : Text} {l : Lexeme} {ts : List Token}

theorem rescans_nil (m : ScanMode) (p q : Position) : Rescans m [] p q [] :=
  fun _ _ => ⟨[], rfl, .nil⟩

/-- A stretch begins with a structural token. -/
theorem rescans_of_takes (hl : lexeme m.awaited (p.offset == 0) c cs = l)
    (hu : c :: cs = l.text ++ u ++ w) (h : m.takes l.kind)
    (hrest : Rescans (m.after l.kind) ts (p.after l.text) (q.after l.text) u) :
    Rescans m (l.toToken p :: ts) p q (l.text ++ u) := by
  intro v hv
  obtain ⟨ls, htext, hl'⟩ := lexeme_elsewhere (q := q) hl hu (.inr h) (.inl h) hv
  obtain ⟨us, hus, moved⟩ := hrest v hv
  refine ⟨l.toToken q :: us, ?_, .cons (toToken_movedBy l p q) ?_⟩
  · have hfirst : l.text ++ u ++ v = c :: (ls ++ u ++ v) := by rw [htext]; rfl
    have hdrop : (c :: (ls ++ u ++ v)).drop l.text.length = u ++ v := by
      rw [← hfirst, List.append_assoc, List.drop_left]
    rw [hfirst, significantFrom_of_takes hl' h, hdrop, hus, Position.after_append]
    rfl
  · rwa [offset_after_sub] at moved

/-- A stretch begins with trivia. -/
theorem rescans_of_not_takes (hl : lexeme m.awaited (p.offset == 0) c cs = l)
    (hu : c :: cs = l.text ++ u ++ w) (h : m.takes l.kind = false) (hne : u ≠ [])
    (hp : 0 < p.offset) (hq : 0 < q.offset)
    (hrest : Rescans m ts (p.after l.text) (q.after l.text) u) :
    Rescans m ts p q (l.text ++ u) := by
  intro v hv
  obtain ⟨ls, htext, hl'⟩ := lexeme_elsewhere (q := q) hl hu (.inl ⟨hp, hq⟩) (.inr hne) hv
  obtain ⟨us, hus, moved⟩ := hrest v hv
  refine ⟨us, ?_, by rwa [offset_after_sub] at moved⟩
  have hfirst : l.text ++ u ++ v = c :: (ls ++ u ++ v) := by rw [htext]; rfl
  have hdrop : (c :: (ls ++ u ++ v)).drop l.text.length = u ++ v := by
    rw [← hfirst, List.append_assoc, List.drop_left]
  rw [hfirst, significantFrom_of_not_takes hl' h, hdrop, hus, Position.after_append]

end

/-- Structural tokens of a text stand in a stretch of it that gives them wherever it stands. -/
theorem significantFrom_cut {m : ScanMode} {p : Position} {t : Text} {ts rest : List Token}
    (h : significantFrom m p t = ts ++ rest) (hts : ts ≠ []) (hrest : rest ≠ [])
    (hp : 0 ≤ p.offset) :
    ∃ gap raw tail, t = gap ++ raw ++ tail ∧ raw ≠ [] ∧
      (ts.headD default).span.start = p.after gap ∧
      (ts.getLastD default).span.stop = p.after (gap ++ raw) ∧
      rest = significantFrom (m.afterAll ts) (p.after (gap ++ raw)) tail ∧
      (∀ q, 0 ≤ q.offset → Rescans m ts (p.after gap) q raw) ∧
      ∀ q, 0 < p.offset → 0 < q.offset → Rescans m ts p q (gap ++ raw) := by
  -- Lexeme by lexeme. Trivia in front widen the gap; behind the first token they are within the
  -- stretch, where no start of the text is near: hence the last clause, for places other than 0.
  induction hn : t.length using Nat.strongRecOn generalizing m p t ts with
  | ind n ih =>
  cases t with
  | nil =>
    rw [significantFrom_nil] at h
    obtain ⟨t, ts, rfl⟩ := List.exists_cons_of_ne_nil hts
    obtain ⟨u, us, rfl⟩ := List.exists_cons_of_ne_nil hrest
    simp at h
  | cons c cs =>
    generalize hl : lexeme m.awaited (p.offset == 0) c cs = l
    have hpos : 0 < l.text.length := hl ▸ Lexeme.length_lexeme_pos ..
    have hsplit : c :: cs = l.text ++ (c :: cs).drop l.text.length :=
      hl ▸ (Lexeme.lexeme_append_drop ..).symm
    generalize (c :: cs).drop l.text.length = t at hsplit
    have hlen : t.length < n := by
      have := congrArg List.length hsplit
      rw [List.length_append] at this
      omega
    have hp' : 0 < (p.after l.text).offset := by
      rw [Position.offset_after]
      omega
    have hafter (q : Position) (hq : 0 ≤ q.offset) : 0 < (q.after l.text).offset := by
      rw [Position.offset_after]
      omega
    have hdrop : (c :: cs).drop l.text.length = t := by rw [hsplit, List.drop_left]
    cases htakes : m.takes l.kind with
    | true =>
      rw [significantFrom_of_takes hl htakes, hdrop] at h
      obtain ⟨u, us, rfl⟩ := List.exists_cons_of_ne_nil hts
      obtain ⟨rfl, hus'⟩ := List.cons.inj h
      by_cases hus : us = []
      · subst hus
        have here (q : Position) : Rescans m [l.toToken p] p q l.text := by
          have := rescans_of_takes (q := q) (u := []) (w := t) hl (by simpa using hsplit) htakes
            (rescans_nil _ _ _)
          simpa using this
        exact ⟨[], l.text, t, hsplit, List.length_pos_iff.1 hpos, rfl, rfl, hus'.symm,
          fun q _ => here q, fun q _ _ => here q⟩
      · obtain ⟨gap, raw, tail, rfl, hraw, -, hstop, hrest', -, inner⟩ :=
          ih _ hlen hus' hus (by omega) rfl
        have here (q : Position) (hq : 0 ≤ q.offset) :
            Rescans m (l.toToken p :: us) p q (l.text ++ (gap ++ raw)) :=
          rescans_of_takes hl (by simpa using hsplit) htakes (inner _ hp' (hafter q hq))
        refine ⟨[], l.text ++ (gap ++ raw), tail, by simpa using hsplit, by simp [hraw], rfl, ?_, ?_,
          fun q hq => here q hq, fun q _ hq => here q (by omega)⟩
        · rw [List.nil_append, Position.after_append, ← hstop]
          obtain ⟨u, us, rfl⟩ := List.exists_cons_of_ne_nil hus
          rfl
        · rw [List.nil_append, Position.after_append]
          exact hrest'
    | false =>
      rw [significantFrom_of_not_takes hl htakes, hdrop] at h
      obtain ⟨gap, raw, tail, rfl, hraw, hstart, hstop, hrest', alone, inner⟩ :=
        ih _ hlen h hts (by omega) rfl
      refine ⟨l.text ++ gap, raw, tail, by simpa using hsplit, hraw, ?_, ?_, ?_, ?_, fun q hp hq => ?_⟩
      · rw [Position.after_append, hstart]
      · rw [List.append_assoc, Position.after_append, hstop]
      · rw [List.append_assoc, Position.after_append, hrest']
      · rw [Position.after_append]
        exact alone
      · rw [List.append_assoc]
        exact rescans_of_not_takes hl (by simpa using hsplit) htakes (by simp [hraw]) hp hq
          (inner _ hp' (hafter q (by omega)))

end RelationNotation
