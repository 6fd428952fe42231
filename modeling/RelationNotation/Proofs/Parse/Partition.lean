import RelationNotation.Proofs.Parse.Document

/-!
Statements divide the structural tokens of a text among them. Each step of a session takes tokens in
a row, so there is a place for each statement where it begins, the next one's being where it ends:
`statements_partition`.
-/

namespace RelationNotation

open Token

/-- How a statement ends: what its last token is, given whether it is the last statement. -/
def Statement.EndsBy (final : Prop) (t : Token) : Statement → Prop
  | .block _ | .empty _ => t.kind = .semicolon
  | .dashComment _ => t.kind = .dashComment
  | .error _ => final ∨ t.kind = .semicolon

/-- Skipped text is the source text of its span. -/
def Statement.Quotes (source : Text) : Statement → Prop
  | .error x => x.text = x.origin.span.slice source
  | _ => True

/-- What trivia are kept in a statement makes no difference to where it stands and how it ends. -/
theorem Statement.span_attaching (x : Statement) (trivia : List Trivia) :
    (x.mapOrigins Trivia.attaching trivia).origin.span = x.origin.span := by
  cases x <;> rfl

theorem Statement.EndsBy.attaching {final : Prop} {t : Token} {x : Statement}
    (h : x.EndsBy final t) (trivia : List Trivia) :
    (x.mapOrigins Trivia.attaching trivia).EndsBy final t := by
  cases x <;> exact h

theorem Statement.Quotes.attaching {source : Text} {x : Statement} (h : x.Quotes source)
    (trivia : List Trivia) : (x.mapOrigins Trivia.attaching trivia).Quotes source := by
  cases x <;> exact h

theorem Statement.SpelledBy.endsBy {n : Nat} {x : Statement} {ts : List Token}
    (h : x.SpelledBy n ts) (final : Prop) : x.EndsBy final (ts.getLastD default) := by
  cases h with
  | empty kind => exact kind
  | dashComment kind => exact kind
  | block spelled semicolon => simpa [EndsBy] using semicolon

namespace Session

/-- Statements that share out tokens among them, each taking a row of its own. -/
inductive Parts (source : Text) : List Token → List Statement → Prop where
  | nil : Parts source [] []
  | cons {ts us : List Token} {x : Statement} {xs : List Statement} (nonempty : ts ≠ [])
      (origin : x.origin.span = (originOver ts).span)
      (ends : x.EndsBy (xs = []) (ts.getLastD default)) (quotes : x.Quotes source)
      (further : Parts source us xs) : Parts source (ts ++ us) (x :: xs)

/-- A session shares out all tokens ahead of it. -/
theorem parts_statements {s : Session} (hc : s.cursor.EndsOnce) :
    Parts s.source s.cursor.ahead s.statements.1 := by
  refine steps_induction (fun s ha => ?_) (fun s hc ha further => ?_) hc
  · rw [statements_of_nil ha, ha]
    exact .nil
  · rw [statements_of_ahead hc ha]
    cases hs : Parse.statement s.nesting s.cursor with
    | ok x d =>
      obtain ⟨ts, pass, spelled⟩ := Parse.statement_spelled s.nesting hc.ended hs
      rw [statement_of_ok hs] at further ⊢
      rw [pass.ahead]
      refine .cons spelled.ne_nil (by rw [origin_of_spelled spelled]) (spelled.endsBy _) ?_ further
      cases spelled <;> exact trivial
    | error fault d =>
      obtain ⟨ts, us, -, hus, hne, pass, step⟩ := statement_of_error ha hs
      rw [step] at further ⊢
      rw [pass.ahead]
      refine .cons hne rfl ?_ rfl further
      by_cases hstops : Cursor.SkipStops 0 d.ahead
      · obtain ⟨vs, z, hvs, hz⟩ := Cursor.skipped_of_stops hstops
        refine .inr ?_
        rw [hus, hvs, ← List.append_assoc]
        simpa using hz
      · refine .inl ?_
        have hnil : (s.behindMistake fault d).cursor.ahead = [] := Cursor.skip_of_not_stops hstops
        rw [statements_of_nil hnil]

end Session

/-- Where statements begin among structural tokens, `p n` being the place of the end of the input
behind the last of `n` statements. -/
structure Boundaries (source : Text) (ts : List Token) (xs : List Statement) (p : Nat → Nat) :
    Prop where
  first : p 0 = 0
  increasing : ∀ i < xs.length, p i < p (i + 1)
  stop : p xs.length + 1 = ts.length ∧ ∃ e, ts[p xs.length]? = some e ∧ e.kind = .endOfInput
  /-- Each statement runs from the start of its first token to the end of its last. -/
  statement : ∀ i x, xs[i]? = some x → ∃ t u, ts[p i]? = some t ∧ ts[p (i + 1) - 1]? = some u ∧
    x.origin.span = t.spanTo u ∧ x.EndsBy (i + 1 = xs.length) u ∧ x.Quotes source

/-- Where statements begin if one more stands before them, of a number of tokens. -/
def Boundaries.behind (n : Nat) (p : Nat → Nat) : Nat → Nat
  | 0 => 0
  | i + 1 => n + p i

@[simp] theorem Boundaries.behind_zero (n : Nat) (p : Nat → Nat) : behind n p 0 = 0 := rfl

@[simp] theorem Boundaries.behind_succ (n : Nat) (p : Nat → Nat) (i : Nat) :
    behind n p (i + 1) = n + p i := rfl

namespace Session.Parts
variable {source : Text} {ts : List Token} {xs : List Statement}

theorem boundaries (h : Parts source ts xs) {e : Token} (he : e.kind = .endOfInput) :
    ∃ p, Boundaries source (ts ++ [e]) xs p := by
  induction h with
  | nil => exact ⟨fun _ => 0, rfl, by simp, by simpa using he, by simp⟩
  | @cons ts us x xs nonempty origin ends quotes further ih =>
    obtain ⟨p, first, increasing, ⟨length, e', he', hkind⟩, statement⟩ := ih
    have hpos := List.length_pos_iff.2 nonempty
    -- The first statement takes the given row; all others begin that much further on.
    refine ⟨Boundaries.behind ts.length p, rfl, ?_, ?_, ?_⟩
    · rintro (_ | i) hi
      · simpa [first] using hpos
      · have := increasing i (by simpa using hi)
        simpa using this
    · refine ⟨?_, e', ?_, hkind⟩
      · simp only [List.length_append, List.length_cons, Boundaries.behind_succ] at length ⊢
        omega
      · simpa [List.append_assoc, List.getElem?_append_right] using he'
    · rintro (_ | i) y hy
      · obtain rfl : x = y := by simpa using hy
        obtain ⟨vs, v, rfl⟩ := ts.eq_nil_or_concat.resolve_left nonempty
        rw [List.concat_eq_append] at *
        refine ⟨(vs ++ [v]).headD default, v, ?_, ?_, ?_, ?_, quotes⟩
        · cases vs <;> simp
        · simp [first, List.append_assoc]
        · simpa [originOver] using origin
        · simpa [List.length_eq_zero_iff] using ends
      · obtain ⟨t, u, ht, hu, span, ends, quotes⟩ := statement i y (by simpa using hy)
        have hi : i < xs.length := (List.getElem?_eq_some_iff.1 (by simpa using hy)).1
        have hlt := increasing i hi
        refine ⟨t, u, ?_, ?_, span, ?_, quotes⟩
        · simpa [List.append_assoc, List.getElem?_append_right] using ht
        · have hback : ts.length + p (i + 1) - 1 - ts.length = p (i + 1) - 1 := by omega
          change (ts ++ us ++ [e])[ts.length + p (i + 1) - 1]? = some u
          rw [List.append_assoc, List.getElem?_append_right (by omega), hback, hu]
        · simpa using ends

theorem attaching (h : Parts source ts xs) (keep : Statement → List Trivia) :
    Parts source ts (xs.map fun x => x.mapOrigins Trivia.attaching (keep x)) := by
  induction h with
  | nil => exact .nil
  | cons nonempty origin ends quotes further ih =>
    refine .cons nonempty ((Statement.span_attaching _ _).trans origin) ?_ (quotes.attaching _) ih
    rw [List.map_eq_nil_iff]
    exact ends.attaching _

/-- Tokens in sequence lie within the statements that take them. -/
theorem contains (h : Parts source ts xs) (hts : InSequence Token.span ts) {t : Token}
    (ht : t ∈ ts) : ∃ (i : Nat) (x : Statement), xs[i]? = some x ∧ x.origin.span.contains t.span := by
  induction h with
  | nil => cases ht
  | @cons ts us x xs nonempty origin ends quotes further ih =>
    rcases List.mem_append.1 ht with ht | ht
    · refine ⟨0, x, rfl, ?_⟩
      rw [origin]
      exact contains_originOver (hts.sublist (List.sublist_append_left ts us)) ht
    · obtain ⟨i, y, hy, hcontains⟩ := ih (hts.sublist (List.sublist_append_right ts us)) ht
      exact ⟨i + 1, y, hy, hcontains⟩

end Session.Parts

/-- Of parts in sequence at most one is around a stretch of text that is not empty. -/
theorem InSequence.eq_of_contains {α : Type} {spanOf : α → Span} {xs : List α}
    (h : InSequence spanOf xs) {i j : Nat} {x y : α} (hx : xs[i]? = some x) (hy : xs[j]? = some y)
    {s : Span} (hs : s.start.offset < s.stop.offset) (hxs : (spanOf x).contains s)
    (hys : (spanOf y).contains s) : i = j := by
  rw [Span.contains_iff] at hxs hys
  have apart {i j : Nat} {x y : α} (hx : xs[i]? = some x) (hy : xs[j]? = some y) (hij : i < j) :
      (spanOf x).stop.offset ≤ (spanOf y).start.offset :=
    h.spans.le (by rw [List.getElem?_map, hx]; rfl) (by rw [List.getElem?_map, hy]; rfl) hij
  rcases Nat.lt_trichotomy i j with hij | hij | hij
  · have := apart hx hy hij
    omega
  · exact hij
  · have := apart hy hx hij
    omega

section
variable (source : Text) (options : ParserOptions)

theorem parts_parseDocument :
    Session.Parts source (startOf source options.maxDepth).cursor.ahead
      (parseDocument source options).document.statements := by
  have parts := Session.parts_statements (reads_startOf source options.maxDepth).endsOnce
  rw [statements_parseDocument]
  split
  · exact parts.attaching _
  · exact parts

theorem inSequence_parseDocument :
    InSequence (·.origin.span) (parseDocument source options).document.statements := by
  have kept := (covers_startOf source options.maxDepth).inSequence (inSequence_startOf source _)
  rw [statements_parseDocument]
  split
  · refine ⟨List.forall_mem_map.2 fun x hx => ?_, List.pairwise_map.2 ?_⟩
    · rw [Statement.span_attaching]
      exact kept.proper x hx
    · refine kept.apart.imp fun hxy => ?_
      rw [Statement.span_attaching, Statement.span_attaching]
      exact hxy
  · exact kept

/-- The statements of a text divide its structural tokens among them: each statement runs from its
first token to its last, right up to the next statement, and the last one up to the end of the
input. So every structural token but the end of the input lies in one statement, and what lies in
none is trivia. -/
theorem statements_partition :
    let tokens := structural (scan source)
    let statements := (parseDocument source options).document.statements
    (∃ p, Boundaries source tokens statements p) ∧
      (∀ t ∈ tokens, t.kind ≠ .endOfInput →
        ∃! i : Nat, ∃ x : Statement, statements[i]? = some x ∧ x.origin.span.contains t.span) ∧
      (∀ t ∈ scan source, t.kind ≠ .endOfInput →
        (∀ x ∈ statements, ¬ x.origin.span.contains t.span) → t ∈ trivia (scan source)) := by
  intro tokens statements
  have parts := parts_parseDocument source options
  have ends := (reads_startOf source options.maxDepth).endsOnce
  have upcoming : tokens = (startOf source options.maxDepth).cursor.ahead ++
      [(startOf source options.maxDepth).cursor.stop] := (upcoming_startOf source _).symm
  have within : ∀ t ∈ tokens, t.kind ≠ .endOfInput →
      ∃ (i : Nat) (x : Statement), statements[i]? = some x ∧ x.origin.span.contains t.span := by
    intro t ht hkind
    rw [upcoming] at ht
    refine parts.contains (inSequence_startOf source _) ((List.mem_append.1 ht).resolve_right ?_)
    exact fun hstop => hkind (List.mem_singleton.1 hstop ▸ ends.ended)
  refine ⟨?_, ?_, ?_⟩
  · rw [upcoming]
    exact parts.boundaries ends.ended
  · intro t ht hkind
    have proper := scanFrom_proper {} .start source t ((structural_sublist _).subset ht) hkind
    obtain ⟨i, x, hx, hcontains⟩ := within t ht hkind
    refine ⟨i, ⟨x, hx, hcontains⟩, ?_⟩
    rintro j ⟨y, hy, hcontains'⟩
    exact (inSequence_parseDocument source options).eq_of_contains hy hx proper hcontains' hcontains
  · intro t ht hkind hnone
    refine (mem_structuralFrom_or_triviaFrom ht).resolve_left fun hmem => ?_
    obtain ⟨i, x, hx, hcontains⟩ := within t hmem hkind
    exact hnone x (List.mem_of_getElem? hx) hcontains

end

end RelationNotation
