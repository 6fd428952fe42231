import RelationNotation.Proofs.Canonical.Statement
import RelationNotation.Proofs.Grammar.Completeness
import RelationNotation.Proofs.Locality.Displacement
import RelationNotation.Proofs.Parse.Account
import RelationNotation.Proofs.Parse.Recovery

/-!
Sessions over part of a longer text. Where a session's tokens stand, moved, before other tokens, a
session over the longer text reads the same statements and records the same mistakes, moved, as long
as every mistake ends with a semicolon: `Follows.statements`.
-/

namespace RelationNotation

open Token Cursor

/-! ### Statements that are not moved -/

theorem Statement.SpelledBy.displace_still {n : Nesting} {x : Statement} {ts : List Token}
    (h : x.SpelledBy n.levels ts) : x.displace .still = x := by
  have moved := h.displace (d := .still)
  rw [List.map_id'' Token.displace_still] at moved
  have pass : (⟨[], ts, default⟩ : Cursor).Passes ts ⟨ts.reverse, [], default⟩ :=
    ⟨(List.append_nil ts).symm, (List.append_nil _).symm, rfl⟩
  have read := Parse.statement_reads h pass
  rw [Parse.statement_reads moved pass] at read
  injection read

namespace Session
variable {s s' : Session} {d : Displacement} {limit : Int} {rest : List Token}
  {before : List Diagnostic}

theorem displace_still_statement (ha : s.cursor.ahead ≠ []) (hc : s.cursor.EndsOnce) :
    s.statement.1.displace .still = s.statement.1 := by
  cases h : Parse.statement s.nesting s.cursor with
  | ok x e =>
    obtain ⟨ts, -, spelled⟩ := Parse.statement_spelled s.nesting hc.ended h
    rw [statement_of_ok h]
    exact spelled.displace_still
  | error fault e =>
    obtain ⟨ts, us, -, -, -, -, hs⟩ := statement_of_error ha h
    rw [hs]
    simp [Statement.displace, Statement.mapOrigins, ErrorStatement.mapOrigins, mistake,
      OriginMap.leaf, OriginMap.each, Origin.displace, Span.displace, originOver]

theorem displace_still_statements (hc : s.cursor.EndsOnce) :
    s.statements.1.map (Statement.displace .still) = s.statements.1 := by
  refine steps_induction (fun s ha => ?_) (fun s hc ha rest => ?_) hc
  · rw [statements_of_nil ha]
    rfl
  · rw [statements_of_ahead hc ha, List.map_cons, displace_still_statement ha hc, rest]

/-! ### One step beside another -/

/-- A session in which every mistake ends with a semicolon. -/
inductive Closes : Session → Prop where
  | ended {s : Session} (ha : s.cursor.ahead = []) : Closes s
  | step {s : Session} (ha : s.cursor.ahead ≠ [])
      (stops : ∀ fault e, Parse.statement s.nesting s.cursor = .error fault e → SkipStops 0 e.ahead)
      (further : Closes s.statement.2) : Closes s

end Session

/-- A token that lies within a text. -/
def Token.Within (source : Text) (t : Token) : Prop :=
  0 ≤ t.span.start.offset ∧ t.span.start.offset ≤ t.span.stop.offset ∧
    t.span.stop.offset ≤ source.length

/-- Two sessions between statements, the second over a text around the first one's: before the
second stand the tokens ahead of the first, moved, and others. -/
structure Session.Follows (d : Displacement) (limit : Int) (rest : List Token)
    (before : List Diagnostic) (s s' : Session) : Prop where
  source : ∃ u v, s'.source = u ++ s.source ++ v ∧ u.length = d.offset
  ahead : s'.cursor.ahead = s.cursor.ahead.map (Token.displace d) ++ rest
  here : s.nesting = ⟨0, limit⟩
  there : s'.nesting = ⟨0, limit⟩
  diagnostics : s'.diagnostics = before ++ s.diagnostics.map (Diagnostic.displace d)
  within : ∀ t ∈ s.cursor.upcoming, t.Within s.source
  found : ∀ x ∈ s.diagnostics, 0 ≤ x.span.start.offset ∧ x.span.start.offset ≤ s.source.length

theorem unseen_displace (d : Displacement) (P : Token → Prop) :
    Unseen fun t u => u = t.displace d ∧ P t where
  kind h := by rw [h.1]; rfl
  text h := by rw [h.1]; rfl
  touches h₁ h₂ _ := by rw [h₁.1, h₂.1, touches_displace]

theorem within_originOver {source : Text} {ts : List Token} (hts : ts ≠ [])
    (h : ∀ t ∈ ts, t.Within source) :
    0 ≤ (originOver ts).span.start.offset ∧ 0 ≤ (originOver ts).span.stop.offset ∧
      (originOver ts).span.stop.offset ≤ source.length := by
  obtain ⟨⟨t, ht, hstart⟩, u, hu, hstop⟩ := originOver_ends hts
  obtain ⟨hpos, hle, hend⟩ := h u hu
  rw [hstart, hstop]
  exact ⟨(h t ht).1, Int.le_trans hpos hle, hend⟩

namespace Session
variable {s s' : Session} {d : Displacement} {limit : Int} {rest : List Token}
  {before : List Diagnostic}

theorem Follows.nesting (h : Follows d limit rest before s s') : s'.nesting = s.nesting :=
  h.there.trans h.here.symm

theorem Follows.mistake (h : Follows d limit rest before s s') {fault fault' : SyntaxFault}
    {ps : List Token} (hne : ps ≠ []) (hps : ∀ t ∈ ps, t.Within s.source)
    (hdemand : fault'.demand = fault.demand) (hfound : fault'.found = fault.found.displace d) :
    Statement.error (s'.mistake fault' (ps.map (Token.displace d))) =
      (Statement.error (s.mistake fault ps)).displace d := by
  obtain ⟨u, v, hsource, hu⟩ := h.source
  obtain ⟨hstart, hstop, hle⟩ := within_originOver hne hps
  have hmessage : fault'.message = fault.message := by
    apply SyntaxFault.message_congr hdemand <;> rw [hfound] <;> rfl
  have hslice := Span.slice_displace d v hu hstart hstop hle
  change Statement.error ⟨originOver (ps.map (Token.displace d)), _, _⟩ =
    Statement.error ⟨(originOver ps).displace d, _, _⟩
  rw [hmessage, hsource, ← originOver_displace d hne]
  exact congrArg (fun text => Statement.error ⟨_, _, text⟩) hslice

theorem toDiagnostic_displace {fault fault' : SyntaxFault} (hdemand : fault'.demand = fault.demand)
    (hfound : fault'.found = fault.found.displace d) :
    fault'.toDiagnostic = fault.toDiagnostic.displace d := by
  have hmessage : fault'.message = fault.message := by
    apply SyntaxFault.message_congr hdemand <;> rw [hfound] <;> rfl
  rw [SyntaxFault.toDiagnostic, hmessage, SyntaxFault.span, SyntaxFault.expected, hfound, hdemand]
  rfl

theorem Follows.statement_ok (h : Follows d limit rest before s s') (hc : s.cursor.EndsOnce)
    {x : Statement} {e : Cursor} (hs : Parse.statement s.nesting s.cursor = .ok x e) :
    s'.statement.1 = s.statement.1.displace d ∧
      Follows d limit rest before s.statement.2 s'.statement.2 ∧
      s'.statement.2.cursor.stop = s'.cursor.stop := by
  obtain ⟨ts, pass, spelled⟩ := Parse.statement_spelled s.nesting hc.ended hs
  have ahead' := h.ahead
  rw [pass.ahead, List.map_append, List.append_assoc] at ahead'
  have pass' : s'.cursor.Passes (ts.map (Token.displace d))
      ⟨(ts.map (Token.displace d)).reverse ++ s'.cursor.before,
        e.ahead.map (Token.displace d) ++ rest, s'.cursor.stop⟩ := ⟨ahead', rfl, rfl⟩
  have hs' : Parse.statement s'.nesting s'.cursor = _ :=
    Parse.statement_reads (by rw [h.nesting]; exact spelled.displace) pass'
  rw [statement_of_ok hs, statement_of_ok hs']
  refine ⟨rfl, ⟨h.source, rfl, h.here, h.there, h.diagnostics, fun t ht => ?_, h.found⟩, rfl⟩
  apply h.within t
  rw [pass.upcoming]
  exact List.mem_append_right _ ht

theorem Follows.statement_error (h : Follows d limit rest before s s') (hc : s.cursor.EndsOnce)
    (ha : s.cursor.ahead ≠ []) {fault : SyntaxFault} {e : Cursor}
    (hs : Parse.statement s.nesting s.cursor = .error fault e)
    (bounded : SkipStops 0 e.ahead ∨ rest = [] ∧ s'.cursor.stop = s.cursor.stop.displace d) :
    s'.statement.1 = s.statement.1.displace d ∧
      Follows d limit rest before s.statement.2 s'.statement.2 ∧
      s'.statement.2.cursor.stop = s'.cursor.stop := by
  obtain ⟨ts, us, -, -, hne, pass, step⟩ := statement_of_error ha hs
  generalize ts ++ us = ps at hne pass step
  have hps : ∀ t ∈ ps, t.Within s.source := by
    intro t ht
    apply h.within t
    rw [pass.upcoming]
    exact List.mem_append_left _ ht
  have alike : List.Forall₂ (fun t u => u = t.displace d ∧ t.Within s.source) ps
      (ps.map (Token.displace d)) := by
    rw [List.forall₂_map_right_iff, List.forall₂_same]
    exact fun t ht => ⟨rfl, hps t ht⟩
  have ahead' := h.ahead
  rw [pass.ahead, List.map_append, List.append_assoc] at ahead'
  have bounded' : SkipStops 0 e.ahead ∨ e.skip.ahead = [] ∧
      e.skip.ahead.map (Token.displace d) ++ rest = [] ∧
      (s'.cursor.stop = s.cursor.stop.displace d ∧ s.cursor.stop.Within s.source) ∧
      s.cursor.stop.Ends := by
    by_cases hstops : SkipStops 0 e.ahead
    · exact .inl hstops
    · obtain ⟨hrest, hstop⟩ := bounded.resolve_left hstops
      have hskip := skip_of_not_stops hstops
      refine .inr ⟨hskip, by rw [hskip, hrest]; rfl, ⟨hstop, h.within _ ?_⟩, .inr hc.ended⟩
      exact List.mem_append_right _ (List.mem_singleton_self _)
  obtain ⟨fault', e', hdemand, ⟨hfound, hwithin⟩, hskip, pass', step'⟩ :=
    statement_recurs (unseen_displace d _) pass.ahead ahead' alike hne h.nesting hs rfl bounded'
  rw [step, step']
  refine ⟨h.mistake hne hps hdemand hfound,
    ⟨h.source, hskip, ?_, ?_, ?_, fun t ht => ?_, ?_⟩, pass'.stop⟩
  · rw [behindMistake, h.here]
  · rw [behindMistake, h.there]
  · rw [behindMistake, behindMistake, h.diagnostics, toDiagnostic_displace hdemand hfound,
      List.map_append, List.append_assoc]
    rfl
  · apply h.within t
    rw [pass.upcoming]
    exact List.mem_append_right _ ht
  · intro x hx
    rcases List.mem_append.1 hx with hx | hx
    · exact h.found x hx
    · rw [List.mem_singleton.1 hx]
      exact ⟨hwithin.1, Int.le_trans hwithin.2.1 hwithin.2.2⟩

/-- What follows stays behind while both sessions take a step. -/
theorem Follows.statement (h : Follows d limit rest before s s') (hc : s.cursor.EndsOnce)
    (ha : s.cursor.ahead ≠ [])
    (bounded : (∀ fault e, Parse.statement s.nesting s.cursor = .error fault e →
        SkipStops 0 e.ahead) ∨ rest = [] ∧ s'.cursor.stop = s.cursor.stop.displace d) :
    s'.statement.1 = s.statement.1.displace d ∧
      Follows d limit rest before s.statement.2 s'.statement.2 ∧
      s'.statement.2.cursor.stop = s'.cursor.stop := by
  cases hs : Parse.statement s.nesting s.cursor with
  | ok x e => exact h.statement_ok hc hs
  | error fault e =>
    exact h.statement_error hc ha hs (bounded.imp_left fun stops => stops fault e hs)

/-! ### Whole sessions beside another -/

theorem source_statement (s : Session) : s.statement.2.source = s.source := by
  unfold Session.statement
  split <;> rfl

theorem source_statements (s : Session) : s.statements.2.source = s.source := by
  unfold Session.statements
  generalize s.cursor.remaining = k
  induction k generalizing s with
  | zero => rfl
  | succ k ih =>
    unfold statementsWithin
    split
    · rfl
    · exact (ih _).trans s.source_statement

/-- Once the first session has read all its tokens, the second goes on with what follows. -/
theorem Follows.statements (h : Follows d limit rest before s s') (hc : s.cursor.EndsOnce)
    (hc' : s'.cursor.EndsOnce)
    (bounded : s.Closes ∨ rest = [] ∧ s'.cursor.stop = s.cursor.stop.displace d) :
    ∃ r, Follows d limit rest before s.statements.2 r ∧ s.statements.2.cursor.ahead = [] ∧
      r.source = s'.source ∧ r.cursor.stop = s'.cursor.stop ∧ r.cursor.EndsOnce ∧
      s'.statements = (s.statements.1.map (Statement.displace d) ++ r.statements.1,
        r.statements.2) := by
  induction hn : s.cursor.remaining using Nat.strongRecOn generalizing s s' with
  | ind n ih =>
    by_cases ha : s.cursor.ahead = []
    · rw [statements_of_nil ha]
      exact ⟨s', h, ha, rfl, rfl, hc', rfl⟩
    · have hlt := remaining_statement_lt ha hc
      have ha' : s'.cursor.ahead ≠ [] := by
        rw [h.ahead]
        simp [ha]
      have hstops : (∀ fault e, Parse.statement s.nesting s.cursor = .error fault e →
          SkipStops 0 e.ahead) ∨ rest = [] ∧ s'.cursor.stop = s.cursor.stop.displace d := by
        apply bounded.imp_left
        intro closes
        cases closes with
        | ended hnil => exact absurd hnil ha
        | step _ stops _ => exact stops
      obtain ⟨hstatement, hfollows, hstop⟩ := h.statement hc ha hstops
      have further : s.statement.2.Closes ∨
          rest = [] ∧ s'.statement.2.cursor.stop = s.statement.2.cursor.stop.displace d := by
        refine bounded.imp (fun closes => ?_) fun ⟨hrest, hsame⟩ => ⟨hrest, ?_⟩
        · cases closes with
          | ended hnil => exact absurd hnil ha
          | step _ _ further => exact further
        · obtain ⟨ts, -, pass⟩ := passes_statement ha hc
          rw [hstop, hsame, pass.stop]
      obtain ⟨r, hr, hnil, hsource, hrstop, hrc, hrun⟩ := ih _ (hn ▸ hlt) hfollows
        (endsOnce_statement ha hc) (endsOnce_statement ha' hc') further rfl
      rw [statements_of_ahead hc ha, statements_of_ahead hc' ha', hrun, hstatement]
      exact ⟨r, hr, hnil, hsource.trans s'.source_statement, hrstop.trans hstop, hrc, rfl⟩

theorem mistake_stops_of_append {ps : List Token} {fault fault' : SyntaxFault} {e e' : Cursor}
    (hn : s'.nesting = s.nesting) (h : Parse.statement s.nesting s.cursor = .error fault e)
    (h' : Parse.statement s'.nesting s'.cursor = .error fault' e') (hstops : SkipStops 0 e'.ahead)
    (hps : s'.cursor.ahead = ps ++ e'.skip.ahead) (hinitial : ps <+: s.cursor.ahead) :
    SkipStops 0 e.ahead := by
  obtain ⟨us, hus⟩ := hinitial
  have same : Unseen (@Eq Token) :=
    ⟨fun h => by rw [h], fun h => by rw [h], fun h₁ h₂ _ => by rw [h₁, h₂]⟩
  have alike : List.Forall₂ Eq ps ps := List.forall₂_same.2 fun _ _ => rfl
  obtain ⟨fault'', e'', h'', -, -, -, hstops''⟩ :=
    mistake_recurs same hps hus.symm alike hn.symm h' rfl (.inl hstops)
  rw [h] at h''
  cases h''
  exact hstops'' hstops

/-- A session with at most one token more before it reads no statement more, unless every mistake
ends without that token. -/
theorem Follows.closes_or_length_le (h : Follows .still limit rest before s s') (hrest : rest.length ≤ 1)
    (hc : s.cursor.EndsOnce) (hc' : s'.cursor.EndsOnce) :
    s.Closes ∨ s'.statements.1.length ≤ s.statements.1.length := by
  induction hn : s.cursor.remaining using Nat.strongRecOn generalizing s s' with
  | ind n ih =>
    by_cases ha : s.cursor.ahead = []
    · exact .inl (.ended ha)
    have hlt := remaining_statement_lt ha hc
    have ha' : s'.cursor.ahead ≠ [] := by
      rw [h.ahead]
      simp [ha]
    have hrun := statements_of_ahead hc ha
    have hrun' := statements_of_ahead hc' ha'
    by_cases stops : ∀ fault e, Parse.statement s.nesting s.cursor = .error fault e →
        SkipStops 0 e.ahead
    · obtain ⟨-, hfollows, -⟩ := h.statement hc ha (.inl stops)
      refine (ih _ (hn ▸ hlt) hfollows (endsOnce_statement ha hc) (endsOnce_statement ha' hc')
        rfl).imp (.step ha stops) fun hle => ?_
      rw [hrun, hrun', List.length_cons, List.length_cons]
      omega
    · right
      obtain ⟨fault, stops⟩ := not_forall.1 stops
      obtain ⟨e, stops⟩ := not_forall.1 stops
      obtain ⟨hs, hopen⟩ := Classical.not_imp.1 stops
      suffices hnil : s'.statement.2.cursor.ahead = [] by
        rw [hrun, hrun', statements_of_nil hnil]
        simp
      by_contra hnil
      -- A step that leaves a token behind takes tokens of the shorter session only.
      have hinitial {ps : List Token} {c : Cursor} (pass : s'.cursor.Passes ps c)
          (hleft : c.ahead ≠ []) : ps <+: s.cursor.ahead := by
        have hahead := h.ahead
        rw [List.map_id'' Token.displace_still, pass.ahead] at hahead
        have hpos := List.length_pos_iff.2 hleft
        have hlength := congrArg List.length hahead
        rw [List.length_append, List.length_append] at hlength
        refine List.prefix_of_prefix_length_le ⟨c.ahead, rfl⟩ ?_ (by omega)
        rw [hahead]
        exact List.prefix_append _ _
      cases h' : Parse.statement s'.nesting s'.cursor with
      | ok x e' =>
        obtain ⟨ps, pass, spelled⟩ := Parse.statement_spelled s'.nesting hc'.ended h'
        rw [statement_of_ok h'] at hnil
        obtain ⟨us, hus⟩ := hinitial pass hnil
        have pass' : s.cursor.Passes ps ⟨ps.reverse ++ s.cursor.before, us, s.cursor.stop⟩ :=
          ⟨hus.symm, rfl, rfl⟩
        rw [h.nesting] at spelled
        rw [Parse.statement_reads spelled pass'] at hs
        cases hs
      | error fault' e' =>
        obtain ⟨ts, us, -, -, -, pass, step⟩ := statement_of_error ha' h'
        rw [step] at hnil
        by_cases hstops : SkipStops 0 e'.ahead
        · exact hopen (mistake_stops_of_append h.nesting hs h' hstops pass.ahead (hinitial pass hnil))
        · exact hnil (skip_of_not_stops hstops)

/-- Where every mistake ends with a semicolon, the scanner awaits any token behind the last. -/
theorem Closes.clean (h : s.Closes) (hc : s.cursor.EndsOnce) (fit : Fitting {} s.cursor.ahead) :
    ScanMode.afterAll {} s.cursor.ahead = {} := by
  induction h with
  | ended ha => rw [ha, ScanMode.afterAll_nil]
  | @step s ha stops further ih =>
    have clean : ∃ ps, s.cursor.Passes ps s.statement.2.cursor ∧
        ScanMode.afterAll {} ps = {} := by
      cases hs : Parse.statement s.nesting s.cursor with
      | ok x e =>
        obtain ⟨ps, pass, spelled⟩ := Parse.statement_spelled s.nesting hc.ended hs
        rw [pass.ahead, fitting_append] at fit
        rw [statement_of_ok hs]
        exact ⟨ps, pass, (statement_rewrites spelled fit.1).1⟩
      | error fault e =>
        obtain ⟨ts, us, -, hus, -, pass, step⟩ := statement_of_error ha hs
        obtain ⟨vs, z, hvs, hz⟩ := skipped_of_stops (stops fault e hs)
        rw [step]
        refine ⟨ts ++ us, pass, ?_⟩
        rw [hus, hvs, ← List.append_assoc]
        exact ScanMode.afterAll_semicolon _ _ hz
    obtain ⟨ps, pass, hps⟩ := clean
    rw [pass.ahead, fitting_append, hps] at fit
    rw [pass.ahead, ScanMode.afterAll_append, hps]
    exact ih (hc.passes pass) fit.2

end Session

end RelationNotation
