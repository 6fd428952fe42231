import Mathlib.Algebra.Ring.Parity
import RelationNotation.Proofs.Token.Tiling
import RelationNotation.Proofs.Token.Trivia

/-!
String positions. The scanner carries from token to token what it awaits and whether a single quote
is open; the structural tokens are picked out afterwards, by a pass of its own. The two agree: in
front of every token the scanner awaits a string exactly if the structural tokens scanned so far end
with an opener, and it awaits a file exactly where a quoted string is kept as the name of one. Main
statement: `awaits_string_iff`.
-/

namespace RelationNotation

open Token

/-! ### The mode in front of each token -/

/-- The tokens of a text, scanned in a mode from a place on, each with the mode in which it is
scanned. -/
def scanStepsFrom (m : ScanMode) (p : Position) : Text → List (ScanMode × Token)
  | [] => [(m, .endOfInput p)]
  | c :: cs =>
    let l := lexeme m.awaited (p.offset == 0) c cs
    (m, l.toToken p) ::
      scanStepsFrom (m.after l.kind) (p.after l.text) ((c :: cs).drop l.text.length)
termination_by t => t.length
decreasing_by
  have := Lexeme.length_lexeme_pos m.awaited (p.offset == 0) c cs
  simp only [List.length_drop, List.length_cons]
  omega

def scanSteps (t : Text) : List (ScanMode × Token) := scanStepsFrom {} .start t

theorem map_snd_scanStepsFrom (m : ScanMode) (p : Position) (t : Text) :
    (scanStepsFrom m p t).map Prod.snd = scanFrom m p t := by
  fun_induction scanStepsFrom m p t with
  | case1 m p => rw [scanFrom]; rfl
  | case2 m p c cs l ih => rw [scanFrom, List.map_cons, ih]

/-- The tokens are those of the scanner. -/
theorem map_snd_scanSteps (t : Text) : (scanSteps t).map Prod.snd = scan t :=
  map_snd_scanStepsFrom {} .start t

/-- The mode in front of a token is the mode behind all tokens before it. -/
theorem mode_of_scanStepsFrom {m n : ScanMode} {p : Position} {s : Text} {t : Token}
    {after : List (ScanMode × Token)} (before : List (ScanMode × Token))
    (h : scanStepsFrom m p s = before ++ (n, t) :: after) :
    n = m.afterAll (before.map Prod.snd) := by
  induction before generalizing m p s with
  | nil =>
    cases s <;> rw [scanStepsFrom] at h <;>
      exact (congrArg Prod.fst (List.cons.inj h).1).symm
  | cons e before ih =>
    cases s with
    | nil => rw [scanStepsFrom] at h; simp at h
    | cons c cs =>
      rw [scanStepsFrom] at h
      obtain ⟨rfl, further⟩ := List.cons.inj h
      exact ih further

/-- Every token but the end of the input fits its kind in the mode in which it is scanned. -/
theorem fits_of_mem_scanStepsFrom {m n : ScanMode} {p : Position} {s : Text} {t : Token}
    (h : (n, t) ∈ scanStepsFrom m p s) (ht : t.kind ≠ .endOfInput) :
    t.kind.Fits n.awaited t.text := by
  fun_induction scanStepsFrom m p s with
  | case1 m p =>
    obtain ⟨-, rfl⟩ := Prod.mk.inj (List.mem_singleton.1 h)
    exact absurd rfl ht
  | case2 m p c cs l ih =>
    rcases List.mem_cons.1 h with h | h
    · obtain ⟨rfl, rfl⟩ := Prod.mk.inj h
      exact Lexeme.lexeme_fits n.awaited (p.offset == 0) c cs
    · exact ih h

/-! ### String positions, by the tokens before -/

/-- How many quotes stand behind the last semicolon. -/
def quotesOpened (ts : List Token) : Nat :=
  (ts.reverse.takeWhile fun t => t.kind ≠ .semicolon).countP fun t => t.kind = .quote

/-- The structural tokens of a list end with an opener: with `#[`, with `#(`, or with a quote that
makes the number of quotes since the last semicolon odd. -/
def OpensString (ts : List Token) : Prop :=
  ∃ t ∈ (structural ts).getLast?,
    t.kind = .includeOpen ∨ t.kind = .fycoideOpen ∨ t.kind = .quote ∧ Odd (quotesOpened ts)

theorem quotesOpened_snoc (ts : List Token) (t : Token) :
    quotesOpened (ts ++ [t]) =
      if t.kind = .semicolon then 0
      else if t.kind = .quote then quotesOpened ts + 1 else quotesOpened ts := by
  unfold quotesOpened
  rw [List.reverse_append, List.reverse_singleton, List.singleton_append, List.takeWhile_cons]
  by_cases hs : t.kind = .semicolon
  · simp [hs]
  · simp [hs, List.countP_cons]
    split <;> rfl

theorem structural_append (ts us : List Token) :
    structural (ts ++ us) = structural ts ++ structuralIn (ScanMode.afterAll {} ts) us := by
  rw [structural_eq, structural_eq, structuralIn_append]

namespace ScanMode

/-- A quote is open exactly if the number of quotes since the last semicolon is odd. -/
theorem quoteOpen_afterAll (ts : List Token) :
    (afterAll {} ts).quoteOpen ↔ Odd (quotesOpened ts) := by
  induction ts using List.reverseRecOn with
  | nil => decide
  | append_singleton ts t ih =>
    rw [afterAll_append, afterAll_cons, afterAll_nil, quotesOpened_snoc]
    generalize afterAll {} ts = m at ih
    cases hk : t.kind
    case quote =>
      simp only [after, reduceCtorEq, if_false, if_true, Nat.odd_add_one, ← ih, Bool.not_eq_true',
        Bool.not_eq_true]
    case semicolon => simp [after]
    all_goals simpa [after, apply_ite ScanMode.quoteOpen] using ih

/-- What is awaited behind a structural token, by its kind and by whether a quote is open then. -/
def awaitedBehind (quoteOpen : Bool) : TokenKind → Awaited
  | .includeOpen => .file
  | .fycoideOpen => .string
  | .quote => if quoteOpen then .string else .token
  | _ => .token

theorem awaited_after {m : ScanMode} {k : TokenKind} (h : m.takes k) :
    (m.after k).awaited = awaitedBehind (m.after k).quoteOpen k := by
  cases k
  case quote => cases hq : m.quoteOpen <;> simp [after, awaitedBehind, hq]
  all_goals simp_all [takes, after, awaitedBehind, TokenKind.isTrivia]

/-- What is awaited follows from the last structural token. -/
theorem awaited_afterAll (ts : List Token) :
    (afterAll {} ts).awaited = (structural ts).getLast?.elim .token
      fun t => awaitedBehind (afterAll {} ts).quoteOpen t.kind := by
  induction ts using List.reverseRecOn with
  | nil => rfl
  | append_singleton ts t ih =>
    rw [structural_append, structuralIn, structuralIn, structuralIn, afterAll_append, afterAll_cons,
      afterAll_nil]
    cases h : (afterAll {} ts).takes t.kind with
    | true =>
      rw [if_pos rfl, List.getLast?_concat]
      exact awaited_after h
    | false =>
      rw [if_neg Bool.false_ne_true, List.append_nil, after_of_not_takes h]
      exact ih

/-- The scanner awaits a string behind an opener only. -/
theorem awaits_afterAll (ts : List Token) :
    (afterAll {} ts).awaited ≠ .token ↔ OpensString ts := by
  rw [awaited_afterAll, OpensString, ← quoteOpen_afterAll]
  cases (structural ts).getLast? with
  | none => simp
  | some t =>
    simp only [Option.elim_some, Option.mem_some_iff, exists_eq_left']
    cases t.kind
    case quote => cases hq : (afterAll {} ts).quoteOpen <;> simp [awaitedBehind]
    all_goals simp [awaitedBehind]

end ScanMode

/-! ### What is kept -/

/-- A token that takes text stands nowhere else among the tokens. -/
theorem not_mem_of_scanFrom {m : ScanMode} {p : Position} {s : Text} {t : Token}
    {before after : List Token} (h : scanFrom m p s = before ++ t :: after)
    (ht : t.kind ≠ .endOfInput) : t ∉ before ∧ t ∉ after := by
  have sorted := scanFrom_sorted m p s
  have proper := scanFrom_proper m p s t (h ▸ by simp) ht
  rw [h, List.pairwise_append, List.pairwise_cons] at sorted
  obtain ⟨-, ⟨behind, -⟩, inFront⟩ := sorted
  refine ⟨fun hmem => ?_, fun hmem => ?_⟩
  · have := inFront t hmem t List.mem_cons_self
    omega
  · have := behind t hmem
    omega

/-- A token is structural exactly if the scanner takes it in the mode in front of it; the structural
tokens of those before it stand before it then. -/
theorem structural_split {s : Text} {t : Token} {before after : List Token}
    (h : scan s = before ++ t :: after) (ht : t.kind ≠ .endOfInput) :
    structural before <+: structural (scan s) ∧
      (t ∈ structural (scan s) ↔ (ScanMode.afterAll {} before).takes t.kind) ∧
      (t ∈ structural (scan s) → structural before ++ [t] <+: structural (scan s)) := by
  obtain ⟨hbefore, hafter⟩ := not_mem_of_scanFrom h ht
  rw [h, structural_append, structuralIn]
  have notBefore : t ∉ structural before := fun hmem =>
    hbefore ((structural_sublist before).subset hmem)
  have notAfter (m : ScanMode) : t ∉ structuralIn m after := fun hmem =>
    hafter ((structuralIn_sublist m after).subset hmem)
  refine ⟨List.prefix_append _ _, ?_⟩
  cases (ScanMode.afterAll {} before).takes t.kind with
  | true =>
    refine ⟨by simp, fun _ => ⟨structuralIn ((ScanMode.afterAll {} before).after t.kind) after, ?_⟩⟩
    rw [if_pos rfl]
    exact (List.append_cons _ _ _).symm
  | false => simp [notBefore, notAfter]

/-- In front of every token but the end of the input the scanner is in a string position exactly if
the structural tokens before end with an opener. A quoted string is kept as structural exactly if
the scanner awaits a file there, and a unicode string stands right behind an opener among the
structural tokens. -/
theorem awaits_string_iff {source : Text} {m : ScanMode} {t : Token}
    {before after : List (ScanMode × Token)}
    (h : scanSteps source = before ++ (m, t) :: after) (ht : t.kind ≠ .endOfInput) :
    let earlier := before.map Prod.snd
    let kept := structural (scan source)
    structural earlier <+: kept ∧ (m.awaited ≠ .token ↔ OpensString earlier) ∧
      (t.kind = .quotedString → (t ∈ kept ↔ m.awaited = .file)) ∧
      (t.kind = .unicodeString → structural earlier ++ [t] <+: kept ∧ OpensString earlier) := by
  intro earlier kept
  have hscan : scan source = earlier ++ t :: after.map Prod.snd := by
    rw [← map_snd_scanSteps, h, List.map_append, List.map_cons]
  obtain ⟨hearlier, hkept, hnext⟩ := structural_split hscan ht
  obtain rfl : m = ScanMode.afterAll {} earlier := mode_of_scanStepsFrom before h
  refine ⟨hearlier, ScanMode.awaits_afterAll earlier, fun hk => ?_, fun hk => ?_⟩
  · rw [hkept, hk]
    simp [ScanMode.takes, TokenKind.isTrivia]
  · have taken : (ScanMode.afterAll {} earlier).takes t.kind := by
      rw [hk]
      rfl
    have fits := fits_of_mem_scanStepsFrom (h ▸ List.mem_append_right _ List.mem_cons_self) ht
    rw [hk] at fits
    exact ⟨hnext (hkept.2 taken), (ScanMode.awaits_afterAll earlier).1 fits.1⟩

/-- The quoted string behind `#[` is scanned while a file is awaited, so it is kept. -/
theorem awaits_string_include :
    let text := "#[\"f\"]".toList
    ∃ before t after, scanSteps text = before ++ (⟨.file, false⟩, t) :: after ∧
      t.kind = .quotedString ∧ t ∈ structural (scan text) ∧ OpensString (before.map Prod.snd) := by
  intro text
  have split : scanSteps text = (scanSteps text).take 1 ++
      (⟨.file, false⟩, ⟨.quotedString, "\"f\"".toList, ⟨⟨2, 1, 3⟩, ⟨5, 1, 6⟩⟩, none⟩) ::
        (scanSteps text).drop 2 := by decide +kernel
  obtain ⟨-, position, quoted, -⟩ := awaits_string_iff split (by decide)
  exact ⟨_, _, _, split, rfl, (quoted rfl).2 rfl, position.1 (by decide)⟩

end RelationNotation
