import RelationNotation.Proofs.Parse.Mistake
import RelationNotation.Proofs.Tree.Spans

/-!
Where a mistake ends. From the token at which a statement is refused, tokens are skipped up to the
first semicolon at which no more openers than closers have been skipped. Openers and closers are
counted against each other, so a closer that closes nothing skipped makes up for an opener behind
it: the count follows the brackets as long as no opener is skipped behind such a closer, and ends a
mistake too early otherwise. Main statement: `mistakes_end`.
-/

namespace RelationNotation

open Token Cursor TokenKind

/-! ### Counting brackets -/

/-- How many more openers than closers there are among some tokens. -/
def surplus : List TokenKind → Int
  | [] => 0
  | k :: ks => depthChange k + surplus ks

/-- How many brackets are open behind one token more. A closer closes the bracket opened last, and
nothing if none is open. -/
def openBehind (n : Nat) (k : TokenKind) : Nat :=
  if k.isOpener then n + 1 else if k.isCloser then n - 1 else n

/-- How many of the brackets that some tokens open they leave open. -/
def leftOpen (ks : List TokenKind) : Nat := ks.foldl openBehind 0

@[simp] theorem surplus_nil : surplus [] = 0 := rfl

@[simp] theorem surplus_cons (k : TokenKind) (ks : List TokenKind) :
    surplus (k :: ks) = depthChange k + surplus ks := rfl

theorem surplus_snoc (ks : List TokenKind) (k : TokenKind) :
    surplus (ks ++ [k]) = surplus ks + depthChange k := by
  induction ks with
  | nil => exact Int.add_comm _ _
  | cons j ks ih => rw [List.cons_append, surplus_cons, surplus_cons, ih, Int.add_assoc]

theorem leftOpen_snoc (ks : List TokenKind) (k : TokenKind) :
    leftOpen (ks ++ [k]) = openBehind (leftOpen ks) k := by
  simp [leftOpen]

/-- The count never exceeds the brackets left open. -/
theorem surplus_le_leftOpen (ks : List TokenKind) : surplus ks ≤ leftOpen ks := by
  induction ks using List.reverseRecOn with
  | nil => exact Int.le_refl 0
  | append_singleton ks k ih =>
    rw [surplus_snoc, leftOpen_snoc, depthChange, openBehind]
    split
    · omega
    · split <;> omega

/-- No opener stands behind a closer that closes none of the tokens. -/
def OpensInTime (ks : List TokenKind) : Prop :=
  ∀ js k ls, ks = js ++ k :: ls → k.isOpener → 0 ≤ surplus js

theorem OpensInTime.of_prefix {js ks : List TokenKind} (h : OpensInTime ks) (hjs : js <+: ks) :
    OpensInTime js := by
  obtain ⟨ls, rfl⟩ := hjs
  rintro is k ms rfl hk
  exact h is k (ms ++ ls) (by simp) hk

/-- Then the count follows the brackets left open, down to none. -/
theorem OpensInTime.leftOpen_eq {ks : List TokenKind} (h : OpensInTime ks) :
    (leftOpen ks : Int) = max (surplus ks) 0 := by
  induction ks using List.reverseRecOn with
  | nil => rfl
  | append_singleton ks k ih =>
    have before := ih (h.of_prefix (List.prefix_append ks [k]))
    rw [surplus_snoc, leftOpen_snoc, depthChange, openBehind]
    split
    next hk =>
      have := h ks k [] rfl hk
      omega
    next => split <;> omega

/-! ### Where skipping ends -/

/-- Some tokens end at the first semicolon in front of which they satisfy a condition, or there is
none and nothing stands behind them. -/
structure EndsFirst (closed : List TokenKind → Prop) (ks rest : List TokenKind) : Prop where
  first : ∀ js ls, ks = js ++ .semicolon :: ls → closed js → ls = []
  ends : (∃ js, ks = js ++ [.semicolon] ∧ closed js) ∨ rest = []

/-- Whether the tokens in front of a semicolon satisfy a condition is all that matters. -/
theorem EndsFirst.congr {closed closed' : List TokenKind → Prop} {ks rest : List TokenKind}
    (h : EndsFirst closed ks rest) (same : ∀ js, js <+: ks → (closed js ↔ closed' js)) :
    EndsFirst closed' ks rest where
  first js ls hks hjs := h.first js ls hks ((same js ⟨_, hks.symm⟩).2 hjs)
  ends := h.ends.imp_left fun ⟨js, hks, hjs⟩ => ⟨js, hks, (same js ⟨_, hks.symm⟩).1 hjs⟩

namespace Cursor

/-- What is skipped ends at the first semicolon at which no more openers than closers have been
skipped. -/
theorem skipped_ends (depth : Int) (ts : List Token) :
    ∃ rest, ts = skipped depth ts ++ rest ∧
      EndsFirst (fun ks => depth + surplus ks ≤ 0) ((skipped depth ts).map Token.kind)
        (rest.map Token.kind) := by
  induction ts generalizing depth with
  | nil => exact ⟨[], rfl, fun js ls h => by simp [skipped] at h, .inr rfl⟩
  | cons t ts ih =>
    unfold skipped
    split
    next hk =>
      refine ⟨ts, rfl, fun js ls h _ => ?_, .inl ⟨[], congrArg (· :: []) hk.1, ?_⟩⟩
      · cases js with
        | nil => exact (List.cons.inj h).2.symm
        | cons j js => simp at h
      · simpa using hk.2
    next hne =>
      obtain ⟨rest, hts, ends⟩ := ih (depth + depthChange t.kind)
      refine ⟨rest, congrArg (t :: ·) hts, fun js ls h hjs => ?_, ends.ends.imp_left ?_⟩
      · cases js with
        | nil =>
          obtain ⟨hkind, -⟩ := List.cons.inj h
          exact absurd ⟨hkind, by simpa using hjs⟩ hne
        | cons j js =>
          obtain ⟨rfl, further⟩ := List.cons.inj h
          refine ends.first js ls further ?_
          rwa [surplus_cons, ← Int.add_assoc] at hjs
      · rintro ⟨js, hks, hjs⟩
        refine ⟨t.kind :: js, congrArg (t.kind :: ·) hks, ?_⟩
        rwa [surplus_cons, ← Int.add_assoc]

end Cursor

/-! ### Stretches of tokens -/

/-- The tokens from one offset up to another, the end of the input left out. -/
def tokensBetween (start stop : Int) (ts : List Token) : List Token :=
  ts.filter fun t =>
    t.kind ≠ .endOfInput ∧ start ≤ t.span.start.offset ∧ t.span.stop.offset ≤ stop

/-- The tokens from an offset on, the end of the input left out. -/
def tokensBehind (start : Int) (ts : List Token) : List Token :=
  ts.filter fun t => t.kind ≠ .endOfInput ∧ start ≤ t.span.start.offset

theorem filter_stretch {α : Type} {p : α → Bool} {as bs cs : List α} (has : ∀ a ∈ as, ¬ p a)
    (hbs : ∀ b ∈ bs, p b) (hcs : ∀ c ∈ cs, ¬ p c) : (as ++ bs ++ cs).filter p = bs := by
  rw [List.filter_append, List.filter_append, List.filter_eq_nil_iff.2 has,
    List.filter_eq_self.2 hbs, List.filter_eq_nil_iff.2 hcs, List.nil_append, List.append_nil]

/-- Of two tokens, one starts and stops before the other starts. -/
def Precedes (t u : Token) : Prop :=
  t.span.start.offset < u.span.start.offset ∧ t.span.stop.offset ≤ u.span.start.offset

section
variable {ts us rest : List Token} {stop z : Token}

/-- The last of some tokens stops last. -/
theorem stop_le_of_getLast? (sorted : ts.Pairwise Precedes)
    (filled : ∀ t ∈ ts, t.span.start.offset < t.span.stop.offset) (hlast : ts.getLast? = some z) :
    ∀ t ∈ ts, t.span.stop.offset ≤ z.span.stop.offset := by
  obtain ⟨ws, rfl⟩ := List.getLast?_eq_some_iff.1 hlast
  have hz := filled z (by simp)
  intro t ht
  rcases List.mem_append.1 ht with ht | ht
  · have := ((List.pairwise_append.1 sorted).2.2 t ht z (by simp)).2
    omega
  · exact Int.le_of_eq (by rw [List.mem_singleton.1 ht])

/-- Where the tokens behind some others start. -/
theorem start_headD (sorted : (ts ++ us ++ [stop]).Pairwise Precedes) :
    (∀ t ∈ ts, t.span.start.offset < (us.headD stop).span.start.offset) ∧
      ∀ t ∈ us, (us.headD stop).span.start.offset ≤ t.span.start.offset := by
  rw [List.append_assoc, List.pairwise_append] at sorted
  obtain ⟨-, inner, across⟩ := sorted
  cases us with
  | nil =>
    exact ⟨fun t ht => (across t ht stop (by simp)).1, fun t ht => absurd ht List.not_mem_nil⟩
  | cons u us =>
    refine ⟨fun t ht => (across t ht u (by simp)).1, fun t ht => ?_⟩
    rcases List.mem_cons.1 ht with rfl | ht
    · exact Int.le_refl _
    · exact Int.le_of_lt (List.rel_of_pairwise_cons inner (List.mem_append_left _ ht)).1

section
variable (filled : ∀ t ∈ ts ++ us ++ rest, t.kind ≠ .endOfInput ∧
  t.span.start.offset < t.span.stop.offset) (hstop : stop.kind = .endOfInput)
include filled hstop

/-- What stands behind some tokens is known from where the last of them stops. -/
theorem tokensBehind_eq (sorted : (ts ++ us ++ rest ++ [stop]).Pairwise Precedes)
    (hlast : (ts ++ us).getLast? = some z) :
    tokensBehind z.span.stop.offset (ts ++ us ++ rest ++ [stop]) = rest := by
  have inner := (List.pairwise_append.1 sorted).1
  have upTo := stop_le_of_getLast? (List.pairwise_append.1 inner).1
    (fun t ht => (filled t (List.mem_append_left _ ht)).2) hlast
  refine filter_stretch (fun t ht => ?_) (fun t ht => ?_) (fun t ht => ?_)
  · have := upTo t ht
    have := (filled t (List.mem_append_left _ ht)).2
    simp only [decide_eq_true_eq]
    omega
  · have hkind := (filled t (List.mem_append_right _ ht)).1
    have behind := (List.pairwise_append.1 inner).2.2 z (List.mem_of_getLast? hlast) t ht
    exact decide_eq_true ⟨hkind, behind.2⟩
  · simp [List.mem_singleton.1 ht, hstop]

/-- A stretch of the tokens of a text is known from where its first token starts and where its last
one, or the last one before it, stops. -/
theorem tokensBetween_eq (sorted : (ts ++ us ++ rest ++ [stop]).Pairwise Precedes)
    (hlast : (ts ++ us).getLast? = some z) :
    tokensBetween ((us ++ rest).headD stop).span.start.offset z.span.stop.offset
      (ts ++ us ++ rest ++ [stop]) = us := by
  have inner := (List.pairwise_append.1 sorted).1
  have upTo := stop_le_of_getLast? (List.pairwise_append.1 inner).1
    (fun t ht => (filled t (List.mem_append_left _ ht)).2) hlast
  obtain ⟨inFront, onwards⟩ := start_headD (by rwa [← List.append_assoc ts us rest])
  rw [List.append_assoc _ rest]
  refine filter_stretch (fun t ht => ?_) (fun t ht => ?_) (fun t ht => ?_)
  · have := inFront t ht
    simp only [decide_eq_true_eq]
    omega
  · have hkind := (filled t (by simp [ht])).1
    exact decide_eq_true ⟨hkind, onwards t (List.mem_append_left _ ht),
      upTo t (List.mem_append_right _ ht)⟩
  · rcases List.mem_append.1 ht with ht | ht
    · have := (filled t (List.mem_append_right _ ht)).2
      have behind := (List.pairwise_append.1 inner).2.2 z (List.mem_of_getLast? hlast) t ht
      have := behind.2
      simp only [decide_eq_true_eq]
      omega
    · simp [List.mem_singleton.1 ht, hstop]

end

end

/-! ### Mistakes in a text -/

/-- The structural tokens of a text in order, the end of the input last. -/
theorem structural_ordered {source : Text} {ts : List Token} {stop : Token}
    (h : structural (scan source) = ts ++ [stop]) :
    (ts ++ [stop]).Pairwise Precedes ∧
      (∀ t ∈ ts, t.kind ≠ .endOfInput ∧ t.span.start.offset < t.span.stop.offset) ∧
      stop.kind = .endOfInput := by
  have hsub : (ts ++ [stop]).Sublist (scan source) := h ▸ structural_sublist _
  have sorted :=
    ((scanFrom_starts {} .start source).and (scanFrom_sorted {} .start source)).sublist hsub
  obtain ⟨us, hus, fit⟩ := significantFrom_eq {} .start source
  rw [← structural_scan, h] at hus
  obtain ⟨rfl, hstop⟩ := List.append_inj' hus rfl
  refine ⟨sorted, fun t ht => ⟨fit.kind_ne t ht, ?_⟩, by rw [List.singleton_injective hstop]; rfl⟩
  exact scanFrom_proper {} .start source t (hsub.subset (List.mem_append_left _ ht))
    (fit.kind_ne t ht)

/-- The tokens that are skipped at a mistake: those within it from the token on that its diagnostic
is about. -/
def ErrorStatement.skipped (source : Text) (x : ErrorStatement) (g : Diagnostic) : List Token :=
  tokensBetween g.span.start.offset x.origin.span.stop.offset (structural (scan source))

/-- The tokens behind a mistake. -/
def ErrorStatement.behind (source : Text) (x : ErrorStatement) : List Token :=
  tokensBehind x.origin.span.stop.offset (structural (scan source))

/-- A mistake ends at the first semicolon in front of which the skipped tokens satisfy a
condition. -/
def ErrorStatement.EndsWhere (closed : List TokenKind → Prop) (source : Text) (x : ErrorStatement)
    (g : Diagnostic) : Prop :=
  EndsFirst closed ((x.skipped source g).map Token.kind) ((x.behind source).map Token.kind)

section
variable {source : Text} {limit : Int} {x : ErrorStatement} {g : Diagnostic} {c d : Cursor}
  {fault : SyntaxFault} {ts us : List Token}

/-- What is skipped at a refusal is known from the places of the mistake and its diagnostic. -/
theorem ArisesAt.skipped_eq
    (h : ArisesAt (structural (scan source)) limit x.claim g c d fault ts us) :
    x.skipped source g = us ∧ d.ahead = us ++ x.behind source ∧
      ∀ t ∈ us.getLast?, t.span.stop = x.origin.span.stop := by
  obtain ⟨rest, hahead, -⟩ := skipped_ends 0 d.ahead
  rw [← h.skipped] at hahead
  obtain ⟨ws, z, hz⟩ := (ts ++ us).eq_nil_or_concat.resolve_left h.nonempty
  rw [List.concat_eq_append] at hz
  have hspan : x.origin.span = (originOver (ts ++ us)).span := congrArg Prod.snd h.claimed
  have hstop : x.origin.span.stop = z.span.stop := by simp [hspan, hz, originOver, spanTo]
  have hstart : g.span = ((us ++ rest).headD c.stop).span := by
    rw [h.span_eq, Cursor.current, hahead, h.passed.stop]
  have whole : structural (scan source) = c.before.reverse ++ ts ++ us ++ rest ++ [c.stop] := by
    rw [← h.tokens, Cursor.tokens, h.passed.ahead, hahead]
    simp
  obtain ⟨sorted, filled, hended⟩ := structural_ordered whole
  have hlast : (c.before.reverse ++ ts ++ us).getLast? = some z := by
    rw [List.append_assoc, hz, ← List.append_assoc, List.getLast?_concat]
  have hskipped := tokensBetween_eq filled hended sorted hlast
  have hbehind := tokensBehind_eq filled hended sorted hlast
  refine ⟨?_, ?_, fun t ht => ?_⟩
  · rw [ErrorStatement.skipped, hstart, hstop, whole, hskipped]
  · rw [ErrorStatement.behind, hstop, whole, hbehind, hahead]
  · have hlast' : (ts ++ us).getLast? = some t := by
      rw [List.getLast?_append, ht]
      rfl
    rw [hz, List.getLast?_concat] at hlast'
    rw [hstop, Option.some.inj hlast']

/-- What is skipped at a refusal ends at the first semicolon at which no more openers than closers
have been skipped. -/
theorem ArisesAt.endsWhere
    (h : ArisesAt (structural (scan source)) limit x.claim g c d fault ts us) :
    x.EndsWhere (fun ks => surplus ks ≤ 0) source g := by
  obtain ⟨hskipped, hahead, -⟩ := h.skipped_eq
  obtain ⟨rest, hahead', ends⟩ := skipped_ends 0 d.ahead
  rw [← h.skipped] at hahead' ends
  obtain rfl : x.behind source = rest := List.append_cancel_left (hahead.symm.trans hahead')
  rw [ErrorStatement.EndsWhere, hskipped]
  exact ends.congr fun js _ => by rw [Int.zero_add]

end

/-- A mistake ends with the last token skipped. That is the first semicolon at which no more openers
than closers have been skipped, or nothing is left behind it. No semicolon outside all brackets
opened while skipping is passed over; and unless an opener is skipped behind a closer that closes
nothing skipped, the first such semicolon ends the mistake. -/
theorem mistakes_end (source : Text) (options : ParserOptions) :
    let parsed := parseDocument source options
    List.Forall₂
      (fun x g =>
        let ks := (x.skipped source g).map Token.kind
        (∀ t ∈ (x.skipped source g).getLast?, t.span.stop = x.origin.span.stop) ∧
          x.EndsWhere (fun js => surplus js ≤ 0) source g ∧
          (∀ js ls, ks = js ++ .semicolon :: ls → leftOpen js = 0 → ls = []) ∧
          (OpensInTime ks → x.EndsWhere (fun js => leftOpen js = 0) source g))
      parsed.document.mistakes (parsed.diagnostics.filter (·.kind == .grammatical)) := by
  refine (mistakes_arise source options).imp fun x g ⟨c, d, fault, ts, us, h⟩ => ?_
  obtain ⟨hskipped, -, hstop⟩ := h.skipped_eq
  have ends := h.endsWhere
  refine ⟨hskipped.symm ▸ hstop, ends, fun js ls hks hjs => ends.first js ls hks ?_, fun inTime => ?_⟩
  · have := surplus_le_leftOpen js
    omega
  · refine ends.congr fun js hjs => ?_
    have := (inTime.of_prefix hjs).leftOpen_eq
    omega

/-- A closer that closes nothing skipped makes up for the brace behind it, so the semicolon inside the
braces ends the mistake. -/
theorem mistakes_end_inside_braces :
    let text := "[a]::]\x7bb;\x7d;".toList
    let parsed := parseDocument text
    ¬ List.Forall₂ (ErrorStatement.EndsWhere (fun js => leftOpen js = 0) text)
      parsed.document.mistakes (parsed.diagnostics.filter (·.kind == .grammatical)) := by
  intro text parsed ends
  rw [(filter_diagnostics text {}).2] at ends
  have kinds : ([.rightBracket, .leftBrace, .identifier, .semicolon], [.rightBrace, .semicolon]) ∈
      (parsed.document.mistakes.zip (grammaticalDiagnostics text 64)).map
        fun (x, g) => ((x.skipped text g).map Token.kind, (x.behind text).map Token.kind) := by
    decide +kernel
  obtain ⟨⟨x, g⟩, hmem, heq⟩ := List.mem_map.1 kinds
  obtain ⟨hskipped, hbehind⟩ := Prod.mk.inj heq
  obtain ⟨-, last⟩ := (List.forall₂_iff_zip.1 ends).2 hmem
  rw [hskipped, hbehind] at last
  rcases last with ⟨js, hjs, closed⟩ | h
  · have inFront := congrArg List.dropLast hjs
    rw [List.dropLast_concat] at inFront
    rw [← inFront] at closed
    exact absurd closed (by decide)
  · cases h

end RelationNotation
