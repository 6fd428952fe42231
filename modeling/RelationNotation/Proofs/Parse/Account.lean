import RelationNotation.Proofs.Parse.Session
import RelationNotation.Proofs.Tree.Attach

/-!
What a session makes of its tokens. Statement by statement, the tokens ahead are either spelled by a
statement of the grammar or taken by a mistake; the diagnostics are those of the mistakes, and each
is about a token of its mistake or about the end of the input: `Session.account_statements`.
-/

namespace RelationNotation

open Token

theorem originOver_ends {ts : List Token} (hts : ts ≠ []) :
    (∃ t ∈ ts, (originOver ts).span.start = t.span.start) ∧
      ∃ t ∈ ts, (originOver ts).span.stop = t.span.stop := by
  obtain ⟨us, u, rfl⟩ := ts.eq_nil_or_concat.resolve_left hts
  rw [List.concat_eq_append]
  refine ⟨⟨(us ++ [u]).headD default, ?_, rfl⟩, ⟨(us ++ [u]).getLastD default, ?_, rfl⟩⟩
  · cases us <;> simp
  · simp

theorem originOver_proper {ts : List Token} (hts : ts ≠ []) (h : InSequence Token.span ts) :
    (originOver ts).span.start.offset ≤ (originOver ts).span.stop.offset := by
  obtain ⟨us, u, rfl⟩ := ts.eq_nil_or_concat.resolve_left hts
  rw [List.concat_eq_append] at h ⊢
  have hlast : (us ++ [u]).getLastD default = u := by simp
  rw [originOver, spanTo, hlast]
  cases us with
  | nil => exact h.proper u (List.mem_singleton_self u)
  | cons v vs =>
    have hfirst := h.proper v List.mem_cons_self
    have hapart := (List.pairwise_cons.1 h.apart).1 u (by simp)
    have hu := h.proper u (by simp)
    exact Int.le_trans hfirst (Int.le_trans hapart hu)

/-- Tokens in sequence lie within the span over them. -/
theorem contains_originOver {ts : List Token} {t : Token} (h : InSequence Token.span ts)
    (ht : t ∈ ts) : (originOver ts).span.contains t.span := by
  refine Span.contains_iff.2 ⟨?_, ?_⟩
  · cases ts with
    | nil => cases ht
    | cons v vs =>
      rcases List.mem_cons.1 ht with rfl | hvs
      · exact Int.le_refl _
      · have hapart := (List.pairwise_cons.1 h.apart).1 t hvs
        exact Int.le_trans (h.proper v List.mem_cons_self) hapart
  · obtain ⟨us, u, rfl⟩ := ts.eq_nil_or_concat.resolve_left (List.ne_nil_of_mem ht)
    rw [List.concat_eq_append] at h ht ⊢
    have hlast : (us ++ [u]).getLastD default = u := by simp
    rw [originOver, spanTo, hlast]
    rcases List.mem_append.1 ht with hus | hu
    · have hapart := (List.pairwise_append.1 h.apart).2.2 t hus u (List.mem_singleton_self u)
      exact Int.le_trans hapart (h.proper u (by simp))
    · obtain rfl := List.mem_singleton.1 hu
      exact Int.le_refl _

namespace Session

/-- Statements account for a list of tokens, the faults being those of the mistakes among them in
order. The source text, the levels of nesting and the token behind the list are given. -/
inductive Account (source : Text) (levels : Nat) (stop : Token) :
    List Token → List Statement → List SyntaxFault → Prop where
  | nil : Account source levels stop [] [] []
  | statement {ts us : List Token} {x : Statement} {xs : List Statement}
      {faults : List SyntaxFault} (spelled : x.SpelledBy levels ts)
      (further : Account source levels stop us xs faults) :
      Account source levels stop (ts ++ us) (x :: xs) faults
  | mistake {ts us : List Token} {fault : SyntaxFault} {xs : List Statement}
      {faults : List SyntaxFault} (nonempty : ts ≠ [])
      (found : fault.found ∈ ts ∨ us = [] ∧ fault.found = stop)
      (further : Account source levels stop us xs faults) :
      Account source levels stop (ts ++ us)
        (.error ⟨originOver ts, fault.message, (originOver ts).span.slice source⟩ :: xs)
        (fault :: faults)

variable {s : Session}

/-- A mistake takes the token that its fault is about, unless that is the end of the input. -/
theorem found_of_error {fault : SyntaxFault} {d : Cursor}
    (h : Parse.statement s.nesting s.cursor = .error fault d) :
    fault.found ∈ Cursor.skipped 0 d.ahead ∨ d.skip.ahead = [] ∧ fault.found = d.stop := by
  rw [(Parse.moves_statement s.nesting).found h, Cursor.current]
  cases ha : d.ahead with
  | nil => exact .inr ⟨by rw [Cursor.skip, ha]; rfl, rfl⟩
  | cons t ts =>
    refine .inl ?_
    rw [Cursor.skipped]
    split
    · exact List.mem_singleton_self t
    · exact List.mem_cons_self

/-- A session accounts for all tokens ahead of it. -/
theorem account_statements (hc : s.cursor.EndsOnce) (hdepth : s.nesting.depth = 0) :
    ∃ faults, Account s.source s.nesting.levels s.cursor.stop s.cursor.ahead s.statements.1 faults ∧
      s.statements.2.diagnostics = s.diagnostics ++ faults.map SyntaxFault.toDiagnostic ∧
      s.statements.2.cursor.ahead = [] ∧ s.statements.2.cursor.stop = s.cursor.stop := by
  revert hdepth
  refine steps_induction (fun s ha _ => ?_) (fun s hc ha further hdepth => ?_) hc
  · refine ⟨[], ?_, ?_, ?_, ?_⟩ <;> rw [statements_of_nil ha]
    · rw [ha]
      exact .nil
    · exact (List.append_nil _).symm
    · exact ha
  rw [statements_of_ahead hc ha]
  cases hs : Parse.statement s.nesting s.cursor with
  | ok x e =>
    obtain ⟨ts, pass, spelled⟩ := Parse.statement_spelled s.nesting hc.ended hs
    rw [statement_of_ok hs] at further ⊢
    obtain ⟨faults, account, hdiagnostics, hahead, hstop⟩ := further hdepth
    refine ⟨faults, ?_, hdiagnostics, hahead, hstop.trans pass.stop⟩
    rw [pass.ahead, ← pass.stop]
    exact .statement spelled account
  | error fault e =>
    obtain ⟨ts, us, pass₁, rfl, hne, pass, step⟩ := statement_of_error ha hs
    rw [step] at further ⊢
    obtain ⟨faults, account, hdiagnostics, hahead, hstop⟩ := further rfl
    refine ⟨fault :: faults, ?_, ?_, hahead, hstop.trans pass.stop⟩
    · have found := found_of_error hs
      rw [pass₁.stop] at found
      have hlevels : (s.behindMistake fault e).nesting.levels = s.nesting.levels := by
        rw [Nesting.levels, Nesting.levels, hdepth]
        rfl
      rw [pass.ahead, ← pass.stop, ← hlevels]
      refine .mistake hne ?_ account
      rw [pass.stop]
      exact found.imp_left (List.mem_append_right ts)
    · rw [hdiagnostics, behindMistake, List.append_assoc]
      rfl

namespace Account
variable {source : Text} {levels : Nat} {stop : Token} {ts : List Token} {xs : List Statement}
  {faults : List SyntaxFault}

theorem eq_nil (h : Account source levels stop [] xs faults) : xs = [] ∧ faults = [] := by
  generalize hts : ([] : List Token) = ts at h
  cases h with
  | nil => exact ⟨rfl, rfl⟩
  | statement spelled further => exact absurd (List.append_eq_nil_iff.1 hts.symm).1 spelled.ne_nil
  | mistake nonempty found further =>
    exact absurd (List.append_eq_nil_iff.1 hts.symm).1 nonempty

/-- The faults are about tokens in the order of the text, each about one of its own. -/
theorem found_sublist (h : Account source levels stop ts xs faults) :
    (faults.map (·.found)).Sublist (ts ++ [stop]) := by
  induction h with
  | nil => exact List.nil_sublist _
  | @statement ts us x xs faults spelled further ih =>
    rw [List.append_assoc]
    exact ih.trans (List.sublist_append_right ts _)
  | @mistake ts us fault xs faults nonempty found further ih =>
    rcases found with hmem | ⟨rfl, hstop⟩
    · rw [List.append_assoc]
      exact (List.singleton_sublist.2 hmem).append ih
    · obtain ⟨-, rfl⟩ := further.eq_nil
      rw [List.map_cons, hstop]
      exact List.sublist_append_right _ [stop]

end Account

/-! ### Where statements stand -/

/-- Statements that stand in stretches of tokens in a row. -/
inductive Covers : List Token → List Statement → Prop where
  | nil : Covers [] []
  | cons {ts us : List Token} {x : Statement} {xs : List Statement} (hne : ts ≠ [])
      (origin : x.origin = originOver ts) (further : Covers us xs) : Covers (ts ++ us) (x :: xs)

theorem origin_of_spelled {n : Nat} {x : Statement} {ts : List Token} (h : x.SpelledBy n ts) :
    x.origin = originOver ts := by
  cases h <;> rfl

theorem Account.covers {source : Text} {levels : Nat} {stop : Token} {ts : List Token}
    {xs : List Statement} {faults : List SyntaxFault}
    (h : Account source levels stop ts xs faults) : Covers ts xs := by
  induction h with
  | nil => exact .nil
  | statement spelled further ih => exact .cons spelled.ne_nil (origin_of_spelled spelled) ih
  | mistake nonempty found further ih => exact .cons nonempty rfl ih

namespace Covers
variable {ts : List Token} {xs : List Statement}

theorem ends (h : Covers ts xs) {x : Statement} (hx : x ∈ xs) :
    (∃ t ∈ ts, x.origin.span.start = t.span.start) ∧
      ∃ t ∈ ts, x.origin.span.stop = t.span.stop := by
  induction h with
  | nil => cases hx
  | @cons ts us y ys hne origin further ih =>
    rcases List.mem_cons.1 hx with rfl | hx
    · rw [origin]
      obtain ⟨⟨t, ht, hstart⟩, u, hu, hstop⟩ := originOver_ends hne
      exact ⟨⟨t, List.mem_append_left _ ht, hstart⟩, u, List.mem_append_left _ hu, hstop⟩
    · obtain ⟨⟨t, ht, hstart⟩, u, hu, hstop⟩ := ih hx
      exact ⟨⟨t, List.mem_append_right _ ht, hstart⟩, u, List.mem_append_right _ hu, hstop⟩

theorem inSequence (h : Covers ts xs) (hts : InSequence Token.span ts) :
    InSequence (·.origin.span) xs := by
  induction h with
  | nil => exact ⟨by simp, List.Pairwise.nil⟩
  | @cons ts us x xs hne origin further ih =>
    obtain ⟨proper, apart⟩ := hts
    obtain ⟨first, rest, across⟩ := List.pairwise_append.1 apart
    have here : InSequence Token.span ts :=
      ⟨fun t ht => proper t (List.mem_append_left _ ht), first⟩
    have there : InSequence Token.span us :=
      ⟨fun t ht => proper t (List.mem_append_right _ ht), rest⟩
    obtain ⟨hproper, hapart⟩ := ih there
    refine ⟨List.forall_mem_cons.2 ⟨?_, hproper⟩, List.pairwise_cons.2 ⟨?_, hapart⟩⟩
    · rw [origin]
      exact originOver_proper hne here
    · intro y hy
      obtain ⟨-, u, hu, hstop⟩ := originOver_ends hne
      obtain ⟨⟨t, ht, hstart⟩, -⟩ := further.ends hy
      rw [origin, hstop, hstart]
      exact across u hu t ht

end Covers

end Session

end RelationNotation
