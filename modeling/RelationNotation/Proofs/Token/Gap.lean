import RelationNotation.Proofs.Token.Placing
import RelationNotation.Proofs.Token.Tiling
import RelationNotation.Proofs.Token.Trivia
import RelationNotation.Proofs.Token.Unclosed

/-!
Blanks put between two tokens of a text. Every token in front of them stays as it is, except that
blanks, a line comment or what is never closed goes on over them; behind them the scanner is in the
mode it was in. So structural tokens and errors stay the same: `scan_insert_blanks`.
-/

namespace RelationNotation

open Token

/-- A token without its place. -/
def Token.unplaced (t : Token) : Lexeme := ⟨t.kind, t.text, t.fault⟩

/-! ### Line comments -/

namespace Lexeme

theorem single_ne_lineComment (c : Char) : (single c).kind ≠ .lineComment := by
  unfold single
  split
  next h =>
    rintro rfl
    unfold oneChar at h
    split at h <;> cases h
  next => simp

theorem significant_ne_lineComment (awaited : Awaited) (c : Char) (cs : Text) :
    (significant awaited c cs).kind ≠ .lineComment := by
  unfold significant
  split
  · simp only [string]
    split <;> decide
  unfold plain
  split
  · simp only [word]
    split <;> decide
  split
  · unfold number
    split
    · split <;> simp
    · simp
  · unfold punctuation
    split
    · exact single_ne_lineComment c
    split
    next h =>
      rintro rfl
      unfold twoChars at h
      split at h <;> cases h
    next => exact single_ne_lineComment c

theorem lexeme_slashes (awaited : Awaited) (first : Bool) (s : Text) :
    lexeme awaited first '/' ('/' :: s) =
      ⟨.lineComment, '/' :: '/' :: s.takeWhile (· ≠ '\n'), none⟩ := by
  rw [lexeme, if_neg fun h => absurd h.2 (by decide), if_neg (by decide), if_pos (by simp)]
  simp

/-- A line comment starts with two slashes. -/
theorem slashes_of_lineComment {awaited : Awaited} {first : Bool} {c : Char} {cs : Text}
    (h : (lexeme awaited first c cs).kind = .lineComment) : ∃ s, c = '/' ∧ cs = '/' :: s := by
  unfold lexeme at h
  split at h
  · cases h
  split at h
  · cases h
  split at h
  next hslash =>
    obtain ⟨s, hs⟩ := List.isPrefixOf_iff_prefix.1 hslash
    exact ⟨s, (List.cons.inj hs).1.symm, (List.cons.inj hs).2.symm⟩
  split at h
  · unfold dashComment at h
    split at h <;> cases h
  split at h
  · unfold quotedString at h
    split at h <;> cases h
  · exact absurd h (significant_ne_lineComment awaited c cs)

/-- A line comment goes on to the end of its line. -/
theorem lineComment_split {awaited : Awaited} {first : Bool} {c : Char} {cs v : Text} {l : Lexeme}
    (hl : lexeme awaited first c cs = l) (split : c :: cs = l.text ++ v)
    (hk : l.kind = .lineComment) : ∃ s, l.text = '/' :: '/' :: s ∧ '\n' ∉ s ∧ Breaks v := by
  obtain ⟨s, rfl, rfl⟩ := slashes_of_lineComment (hl ▸ hk)
  rw [lexeme_slashes] at hl
  have htext : l.text = '/' :: '/' :: s.takeWhile (· ≠ '\n') := by rw [← hl]
  have hrest : s.dropWhile (· ≠ '\n') = v := by
    have same : l.text ++ s.dropWhile (· ≠ '\n') = l.text ++ v := by
      rw [← split, htext]
      simp
    exact List.append_cancel_left same
  refine ⟨_, htext, fun h => by simpa using List.mem_takeWhile_imp h, fun d hd => ?_⟩
  have := List.head?_dropWhile_not (fun c : Char => decide (c ≠ '\n')) s
  rw [hrest, hd] at this
  simpa using this

end Lexeme

theorem startsBlank_append {w : Text} (hw : ∀ d ∈ w, isBlank d) (hne : w ≠ []) (v : Text) :
    StartsBlank (w ++ v) := by
  obtain ⟨d, ds, rfl⟩ := List.exists_cons_of_ne_nil hne
  simpa [StartsBlank] using hw d List.mem_cons_self

/-- A line comment goes on over the blanks that are put behind it, up to a new line among them. -/
theorem withoutGaps_lineComment {m : ScanMode} {p : Position} {s v w : Text} (hs : '\n' ∉ s)
    (hw : ∀ c ∈ w, isBlank c) (hv : Breaks v) :
    withoutGaps (scanFrom m p ('/' :: '/' :: s ++ (w ++ v))) =
      withoutGaps (scanFrom m (p.after ('/' :: '/' :: s ++ w)) v) := by
  obtain ⟨a, b, rfl, ha, hb⟩ : ∃ a b, w = a ++ b ∧ '\n' ∉ a ∧ Breaks b := by
    refine ⟨w.takeWhile (· ≠ '\n'), w.dropWhile (· ≠ '\n'), by simp, fun h => ?_, fun d hd => ?_⟩
    · simpa using List.mem_takeWhile_imp h
    · have := List.head?_dropWhile_not (fun c : Char => decide (c ≠ '\n')) w
      rw [hd] at this
      simpa using this
  have hbv : ∀ d ∈ (b ++ v).head?, ¬ decide (d ≠ '\n') := by
    cases b with
    | nil => simpa [Breaks] using hv
    | cons d ds => simpa [Breaks] using hb
  have hsa : ∀ d ∈ s ++ a, decide (d ≠ '\n') := by
    intro d hd
    have : '\n' ∉ s ++ a := by simp [hs, ha]
    exact decide_eq_true fun he => this (he ▸ hd)
  have hl := Lexeme.lexeme_slashes m.awaited (p.offset == 0) (s ++ a ++ (b ++ v))
  rw [(Lexeme.takeWhile_run hsa hbv).1] at hl
  have split : '/' :: '/' :: (s ++ a ++ (b ++ v)) = '/' :: '/' :: (s ++ a) ++ (b ++ v) := rfl
  have hscan := scanFrom_lexeme hl split
  simp only [List.cons_append, List.append_assoc] at hscan ⊢
  have hblank : ∀ c ∈ b, isBlank c := fun c hc => hw c (List.mem_append_right a hc)
  rw [hscan, withoutGaps_cons_gap (by simp [Lexeme.toToken]), withoutGaps_behind_blanks v _ hblank,
    ← Position.after_append]
  simp [ScanMode.after]

/-! ### Between two tokens -/

namespace Cuts
variable {m : ScanMode} {p : Position} {u v v' x : Text} {ts : List Token}

/-- Tokens do not change with what stands behind the text that follows them, as long as it is
nothing or a blank. -/
theorem recut (h : Cuts m p u (x ++ v) ts) (hx : x ≠ []) (hv : StartsBlank v') :
    Cuts m p u (x ++ v') ts := by
  generalize hr : x ++ v = r at h
  induction h with
  | nil => exact .nil
  | @cons m p c cs u _ l ts first split further ih =>
    subst hr
    have split' : c :: cs = l.text ++ (u ++ x) ++ v := by rw [split]; simp
    obtain ⟨ls, htext, hl⟩ := Lexeme.lexeme_within (v := v') first split' (fun _ => rfl)
      (.inl (by simp [hx])) hv
    refine .cons hl ?_ (ih rfl)
    rw [htext]
    simp

/-- What is never closed leaves nothing behind. -/
theorem closed (h : Cuts m p u v ts) (hv : v ≠ []) : ∀ t ∈ ts, ¬ t.unplaced.IsOpen := by
  induction h with
  | nil => simp
  | @cons m p c cs u v l ts first split further ih =>
    refine List.forall_mem_cons.2 ⟨fun hopen => ?_, ih hv⟩
    have hall := (Lexeme.isOpen_lexeme (first ▸ hopen)).1
    rw [first, split] at hall
    exact hv (List.append_eq_nil_iff.1 (by simpa using hall)).2

/-- The last of the tokens in front of a boundary. -/
theorem last (h : Cuts m p u v ts) :
    u = [] ∧ ts = [] ∨ ∃ u₀ ts₀ c cs l, Cuts m p u₀ (l.text ++ v) ts₀ ∧
      lexeme (m.afterAll ts₀).awaited ((p.after u₀).offset == 0) c cs = l ∧
      c :: cs = l.text ++ v ∧ u = u₀ ++ l.text ∧ ts = ts₀ ++ [l.toToken (p.after u₀)] := by
  induction h with
  | nil => exact .inl ⟨rfl, rfl⟩
  | @cons m p c cs u v l ts first split further ih =>
    right
    rcases ih with ⟨rfl, rfl⟩ | ⟨u₀, ts₀, c', cs', l', cuts, hl, split', rfl, rfl⟩
    · exact ⟨[], [], c, cs, l, .nil, first, split, by simp, rfl⟩
    · refine ⟨l.text ++ u₀, l.toToken p :: ts₀, c', cs', l', .cons first ?_ cuts, ?_, split', ?_, ?_⟩
      · rw [split, List.append_assoc]
      · rw [Position.after_append]
        exact hl
      · rw [List.append_assoc]
      · rw [Position.after_append]
        rfl

end Cuts

section
variable {m : ScanMode} {p : Position} {u v v' w : Text} {ts : List Token}

/-- Blanks put behind a lexeme. What stands behind them is what stood behind the lexeme, or something
else where that was no new line. -/
theorem withoutGaps_behind_lexeme {c : Char} {cs : Text} {l : Lexeme}
    (hl : lexeme m.awaited (p.offset == 0) c cs = l) (split : c :: cs = l.text ++ v)
    (hclosed : ¬ l.IsOpen) (hw : ∀ d ∈ w, isBlank d) (hne : w ≠ [])
    (hv : v' = v ∨ ¬ Breaks v) :
    withoutGaps (scanFrom m p (l.text ++ (w ++ v'))) =
      withoutGaps (l.toToken p :: scanFrom (m.after l.kind) (p.after (l.text ++ w)) v') := by
  by_cases hblank : isBlank c
  · rw [Lexeme.lexeme_of_blank hblank] at hl
    have htext : ∀ d ∈ l.text, isBlank d := by
      rw [← hl]
      exact fun d hd => List.mem_takeWhile_imp hd
    have hkind : l.kind = .whitespace := by rw [← hl]
    have hall : ∀ d ∈ l.text ++ w, isBlank d := by simpa [or_imp, forall_and] using ⟨htext, hw⟩
    rw [← List.append_assoc, withoutGaps_behind_blanks v' p hall,
      withoutGaps_cons_gap (by simp [Lexeme.toToken, hkind]), hkind]
    rfl
  by_cases hcomment : l.kind = .lineComment
  · obtain ⟨s, htext, hs, hbreaks⟩ := Lexeme.lineComment_split hl split hcomment
    obtain rfl := hv.resolve_right fun h => h hbreaks
    rw [htext, withoutGaps_lineComment hs hw hbreaks,
      withoutGaps_cons_gap (by simp [Lexeme.toToken, hcomment]), hcomment]
    rfl
  · have hstart := startsBlank_append hw hne v'
    have stops : l.StopsBefore (w ++ v') := by
      refine ⟨fun d hd => ?_, fun h => absurd h hcomment, hclosed⟩
      rw [← hl, Lexeme.head?_lexeme] at hd
      rwa [← Option.some.inj hd]
    obtain ⟨ls, htext, hl'⟩ := Lexeme.lexeme_within (u := []) (w := v) hl (by simpa using split)
      (fun _ => rfl) (.inr stops) hstart
    rw [List.append_nil] at hl'
    have hfirst : l.text ++ (w ++ v') = c :: (ls ++ (w ++ v')) := by rw [htext]; rfl
    rw [hfirst, scanFrom_lexeme hl' hfirst.symm, ← List.singleton_append, withoutGaps_append,
      withoutGaps_behind_blanks v' _ hw, ← Position.after_append, ← withoutGaps_append]
    rfl

/-- Blanks put at a boundary. What stands behind them is what stood there, or something else where
that was no new line. -/
theorem withoutGaps_scan_gap (h : Cuts m p u v ts) (hclosed : ∀ t ∈ ts, ¬ t.unplaced.IsOpen)
    (hw : ∀ d ∈ w, isBlank d) (hne : w ≠ []) (hv : v' = v ∨ ¬ Breaks v) :
    withoutGaps (scanFrom m p (u ++ (w ++ v'))) =
      withoutGaps ts ++ withoutGaps (scanFrom (m.afterAll ts) (p.after (u ++ w)) v') := by
  have hstart := startsBlank_append hw hne v'
  rcases h.last with ⟨rfl, rfl⟩ | ⟨u₀, ts₀, c, cs, l, cuts, hl, split, rfl, rfl⟩
  · exact withoutGaps_behind_blanks v' p hw
  have hopen : ¬ l.IsOpen := hclosed (l.toToken (p.after u₀)) (by simp)
  have hne' : l.text ≠ [] := hl ▸ (Lexeme.covers_lexeme ..).1
  rw [List.append_assoc, (cuts.recut hne' hstart).scan, withoutGaps_append,
    withoutGaps_behind_lexeme hl split hopen hw hne hv, ← withoutGaps_append, ← withoutGaps_append,
    ScanMode.afterAll_append, ← Position.after_append, List.append_assoc, List.append_assoc]
  rfl

/-- Blanks put at the end of a text whose last token is never closed. -/
theorem scan_open_gap (h : Cuts m p u [] ts) (hopen : ∃ t ∈ ts, t.unplaced.IsOpen)
    (hw : ∀ d ∈ w, isBlank d) :
    ∃ ts₀ e e', ts = ts₀ ++ [e] ∧
      scanFrom m p (u ++ w) = ts₀ ++ [e', .endOfInput (p.after (u ++ w))] ∧
      e.kind = .error ∧ e'.kind = .error ∧ e'.fault = e.fault := by
  obtain ⟨t, ht, hopen⟩ := hopen
  rcases h.last with ⟨rfl, rfl⟩ | ⟨u₀, ts₀, c, cs, l, cuts, hl, split, rfl, rfl⟩
  · cases ht
  have hne : l.text ≠ [] := hl ▸ (Lexeme.covers_lexeme ..).1
  obtain rfl : t = l.toToken (p.after u₀) := by
    rcases List.mem_append.1 ht with ht | ht
    · exact absurd hopen (cuts.closed (by simpa using hne) t ht)
    · exact List.mem_singleton.1 ht
  rw [List.append_nil] at split
  subst hl
  have hstart : StartsBlank w := fun d hd => hw d (List.mem_of_mem_head? hd)
  have hquote : '"' ∉ w := fun h => absurd (hw _ h) (by decide)
  have hdash : '-' ∉ w := fun h => absurd (hw _ h) (by decide)
  have hopen' := Lexeme.IsOpen.append hopen hstart hquote hdash
  have hscan := scanFrom_of_isOpen hopen'
  rw [← List.cons_append, split, ← Position.after_append, ← List.append_assoc] at hscan
  refine ⟨ts₀, _, (lexeme _ _ c (cs ++ w)).toToken (p.after u₀), rfl, ?_,
    (Lexeme.isOpen_lexeme hopen).2, (Lexeme.isOpen_lexeme hopen').2,
    Lexeme.fault_append hopen hstart hquote hdash⟩
  rw [List.append_assoc, (cuts.recut hne hstart).scan, hscan, List.append_assoc]

end

/-! ### Away from places -/

/-- Tokens are the same wherever a text stands, but for their places. -/
theorem scanFrom_unplaced {m : ScanMode} {p q : Position} {s : Text} (hp : 0 ≤ p.offset)
    (hq : 0 ≤ q.offset) (hmark : s.head? = some byteOrderMark → (p.offset = 0 ↔ q.offset = 0)) :
    (scanFrom m p s).map unplaced = (scanFrom m q s).map unplaced := by
  fun_induction scanFrom m p s generalizing q with
  | case1 m p =>
    rw [scanFrom]
    rfl
  | case2 m p c cs l =>
    rename_i ih
    have hl : lexeme m.awaited (q.offset == 0) c cs = l := by
      by_cases hc : c = byteOrderMark
      · have hfirst : (q.offset == 0) = (p.offset == 0) := by
          rw [Bool.eq_iff_iff, beq_iff_eq, beq_iff_eq, hmark (by rw [hc]; rfl)]
        rw [hfirst]
      · exact lexeme_first hc ..
    have hpos : 0 < l.text.length := Lexeme.length_lexeme_pos ..
    have hfar (r : Position) (hr : 0 ≤ r.offset) : 0 < (r.after l.text).offset := by
      rw [Position.offset_after]
      omega
    have hp' := hfar p hp
    have hq' := hfar q hq
    rw [scanFrom, hl, List.map_cons, List.map_cons,
      ih (Int.le_of_lt hp') (Int.le_of_lt hq') fun _ => by omega]
    rfl

/-- Nor does it matter how much text stands in front, a byte order mark at the start apart. -/
theorem scanFrom_after_unplaced {u v : Text} (w : Text) (m : ScanMode)
    (mark : (u ++ v).head? = some byteOrderMark → 0 < u.length) :
    (scanFrom m (Position.start.after (u ++ w)) v).map unplaced =
      (scanFrom m (Position.start.after u) v).map unplaced := by
  refine scanFrom_unplaced ?_ ?_ fun hmark => ?_
  · rw [offset_start_after]
    omega
  · rw [offset_start_after]
    omega
  · have hu : 0 < u.length := by
      cases u with
      | nil => exact mark hmark
      | cons d ds => simp
    rw [offset_start_after, offset_start_after, List.length_append]
    omega

namespace Token

theorem structuralIn_unplaced {m : ScanMode} {ts us : List Token}
    (h : ts.map unplaced = us.map unplaced) :
    (structuralIn m ts).map unplaced = (structuralIn m us).map unplaced := by
  induction ts generalizing m us with
  | nil => rw [List.map_eq_nil_iff.1 h.symm]
  | cons t ts ih =>
    obtain ⟨u, us, rfl, hu, hus⟩ := List.map_eq_cons_iff.1 h.symm
    have hkind : u.kind = t.kind := congrArg Lexeme.kind hu
    rw [structuralIn, structuralIn, hkind]
    split
    · rw [List.map_cons, List.map_cons, hu, ih hus.symm]
    · exact ih hus.symm

theorem errors_unplaced (ts : List Token) :
    (errors ts).map unplaced = (ts.map unplaced).filter (·.kind == .error) := by
  rw [List.filter_map]
  rfl

theorem withoutGaps_unplaced (ts : List Token) : (withoutGaps ts).map unplaced =
    (ts.map unplaced).filter fun l => l.kind ∉ [.whitespace, .lineComment] := by
  rw [List.filter_map]
  rfl

/-- Kinds, texts and messages do not depend on gaps and places. -/
theorem readings_of_unplaced {ts us : List Token}
    (h : (withoutGaps ts).map unplaced = (withoutGaps us).map unplaced) :
    (structural ts).map form = (structural us).map form ∧
      (errors ts).map (·.fault.map ScanFault.message) =
        (errors us).map (·.fault.map ScanFault.message) := by
  have forms (ts : List Token) :
      ts.map form = (ts.map unplaced).map fun l => (l.kind, l.text) := by
    rw [List.map_map]
    rfl
  have messages (ts : List Token) : ts.map (·.fault.map ScanFault.message) =
      (ts.map unplaced).map (·.fault.map ScanFault.message) := by
    rw [List.map_map]
    rfl
  constructor
  · rw [structural_eq, structural_eq, forms, forms, ← structuralIn_withoutGaps _ ts,
      ← structuralIn_withoutGaps _ us, structuralIn_unplaced h]
  · rw [messages, messages, ← errors_withoutGaps ts, ← errors_withoutGaps us, errors_unplaced, h,
      errors_unplaced]

/-- Nor do they depend on how far what is never closed goes on. -/
theorem readings_of_open {ts : List Token} {e e' : Token} {p q : Position} (he : e.kind = .error)
    (he' : e'.kind = .error) (hfault : e'.fault = e.fault) :
    (structural (ts ++ [e', .endOfInput q])).map form =
        (structural (ts ++ [e, .endOfInput p])).map form ∧
      (errors (ts ++ [e', .endOfInput q])).map (·.fault.map ScanFault.message) =
        (errors (ts ++ [e, .endOfInput p])).map (·.fault.map ScanFault.message) := by
  have ends {m : ScanMode} {e : Token} (he : e.kind = .error) (p : Position) :
      structuralIn m [e, .endOfInput p] = [.endOfInput p] := by
    simp [structuralIn, ScanMode.takes, he, TokenKind.isTrivia, endOfInput]
  have wrong {e : Token} (he : e.kind = .error) (p : Position) :
      errors [e, .endOfInput p] = [e] := by
    simp [errors, he, endOfInput]
  constructor
  · rw [structural_eq, structural_eq, structuralIn_append, structuralIn_append, ends he, ends he',
      List.map_append, List.map_append]
    rfl
  · rw [errors, errors, List.filter_append, List.filter_append, ← errors, ← errors, ← errors,
      wrong he, wrong he', List.map_append, List.map_append, List.map_singleton, List.map_singleton,
      hfault]

end Token

/-- Blanks put where a token starts change neither the structural tokens nor what is wrong, unless
they take a byte order mark from the start of the text. -/
theorem scan_insert_blanks {source blanks : Text} {k : Nat}
    (boundary : ∃ t ∈ scan source, t.span.start.offset = k)
    (mark : source.head? = some byteOrderMark → 0 < k) (hblank : ∀ c ∈ blanks, isBlank c) :
    let widened := source.take k ++ blanks ++ source.drop k
    (structural (scan widened)).map form = (structural (scan source)).map form ∧
      (errors (scan widened)).map (·.fault.map ScanFault.message) =
        (errors (scan source)).map (·.fault.map ScanFault.message) := by
  intro widened
  obtain ⟨t, ht, hk⟩ := boundary
  obtain ⟨u, v, ts, us, rfl, cuts, hus⟩ := exists_cuts ht
  have hstart := scanFrom_head _ _ _ t (by rw [hus]; rfl)
  obtain rfl : u.length = k := by
    rw [hstart, offset_start_after] at hk
    omega
  have hwidened : widened = u ++ (blanks ++ v) := by
    simp only [widened, List.take_left, List.drop_left, List.append_assoc]
  rw [hwidened]
  by_cases hne : blanks = []
  · rw [hne]
    exact ⟨rfl, rfl⟩
  have hscan : scan (u ++ v) = _ := cuts.scan
  by_cases hclosed : ∀ t ∈ ts, ¬ t.unplaced.IsOpen
  · refine readings_of_unplaced ?_
    have hgap : withoutGaps (scan (u ++ (blanks ++ v))) = _ :=
      withoutGaps_scan_gap cuts hclosed hblank hne (.inl rfl)
    rw [hscan, hgap, withoutGaps_append, List.map_append, List.map_append, withoutGaps_unplaced,
      withoutGaps_unplaced (scanFrom _ _ v), withoutGaps_unplaced (scanFrom _ _ v),
      scanFrom_after_unplaced blanks _ mark]
  · have hopen : ∃ t ∈ ts, t.unplaced.IsOpen := by simpa using hclosed
    obtain rfl : v = [] := by
      by_contra hv
      exact hclosed (cuts.closed hv)
    obtain ⟨ts₀, e, e', rfl, hgap, he, he', hfault⟩ := scan_open_gap cuts hopen hblank
    rw [List.append_nil, scan, hgap, hscan, List.append_assoc, scanFrom]
    exact readings_of_open he he' hfault

/-- Between a stray character and the semicolon behind it a new line and a space make no
difference. -/
theorem scan_insert_blanks_stray :
    (∃ t ∈ scan "$;// ;".toList, t.span.start.offset = (1 : Nat)) ∧
      ("$;// ;".toList.head? = some byteOrderMark → 0 < 1) ∧ (∀ c ∈ ['\n', ' '], isBlank c) ∧
      (structural (scan "$\n ;// ;".toList)).map form = (structural (scan "$;// ;".toList)).map form ∧
      (errors (scan "$\n ;// ;".toList)).map (·.fault.map ScanFault.message) =
        (errors (scan "$;// ;".toList)).map (·.fault.map ScanFault.message) := by
  have boundary : ∃ t ∈ scan "$;// ;".toList, t.span.start.offset = (1 : Nat) := by
    decide +kernel
  have mark : "$;// ;".toList.head? = some byteOrderMark → 0 < 1 := fun _ => by decide
  have blank : ∀ c ∈ ['\n', ' '], isBlank c := by simp [isBlank_newline, isBlank_space]
  exact ⟨boundary, mark, blank, scan_insert_blanks boundary mark blank⟩

end RelationNotation
