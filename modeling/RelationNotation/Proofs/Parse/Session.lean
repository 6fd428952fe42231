import RelationNotation.Proofs.Grammar.Soundness

/-!
A session step by step. Each step passes one token at least and either reads a statement or records
a mistake, whose text is that of the tokens it passes; `statements_of_ahead` unfolds a whole session
into its first step and the rest.
-/

namespace RelationNotation

open Token

/-! ### Skipping a mistake -/

namespace Cursor

/-- The end of the input stands behind all other tokens, and only there. -/
structure EndsOnce (c : Cursor) : Prop where
  ended : c.Ended
  ahead : ∀ t ∈ c.ahead, t.kind ≠ .endOfInput

variable {c d : Cursor} {ts us : List Token}

theorem EndsOnce.passes (hc : c.EndsOnce) (h : c.Passes ts d) : d.EndsOnce where
  ended := h.ended hc.ended
  ahead := fun t ht => hc.ahead t (by rw [h.ahead]; exact List.mem_append_right _ ht)

theorem EndsOnce.kind_eq_iff (hc : c.EndsOnce) : c.kind = .endOfInput ↔ c.ahead = [] := by
  refine ⟨fun h => ?_, hc.ended.kind_of_nil⟩
  cases ha : c.ahead with
  | nil => rfl
  | cons t ts =>
    have ht : c.kind = t.kind := by simp [kind, current, ha]
    exact absurd (ht.symm.trans h) (hc.ahead t (by simp [ha]))

/-- The tokens that are skipped at a mistake, given how many more openers than closers have been
skipped so far. -/
def skipped (depth : Int) : List Token → List Token
  | [] => []
  | t :: ts =>
    if t.kind = .semicolon ∧ depth ≤ 0 then [t] else t :: skipped (depth + depthChange t.kind) ts

/-- Whether a mistake ends before the tokens do. -/
def SkipStops (depth : Int) : List Token → Prop
  | [] => False
  | t :: ts => t.kind = .semicolon ∧ depth ≤ 0 ∨ SkipStops (depth + depthChange t.kind) ts

theorem skipFrom_passes (depth : Int) (before : List Token) (stop : Token) (ts : List Token) :
    (⟨before, ts, stop⟩ : Cursor).Passes (skipped depth ts) (skipFrom depth before stop ts) := by
  induction ts generalizing depth before with
  | nil => exact .refl _
  | cons t ts ih =>
    unfold skipped skipFrom
    split
    · exact ⟨rfl, rfl, rfl⟩
    · have step : (⟨before, t :: ts, stop⟩ : Cursor).Passes [t] ⟨t :: before, ts, stop⟩ :=
        ⟨rfl, rfl, rfl⟩
      exact step.trans (ih _ _)

theorem skip_passes (c : Cursor) : c.Passes (skipped 0 c.ahead) c.skip :=
  skipFrom_passes 0 c.before c.stop c.ahead

theorem skipped_ne_nil (depth : Int) (h : ts ≠ []) : skipped depth ts ≠ [] := by
  cases ts with
  | nil => exact absurd rfl h
  | cons t ts =>
    unfold skipped
    split <;> simp

theorem skipped_append_of_stops {depth : Int} (h : SkipStops depth ts) (us : List Token) :
    skipped depth (ts ++ us) = skipped depth ts := by
  induction ts generalizing depth with
  | nil => exact h.elim
  | cons t ts ih =>
    simp only [List.cons_append, skipped]
    split
    · rfl
    · next hne => rw [ih (h.resolve_left hne)]

theorem skipped_append_of_not_stops {depth : Int} (h : ¬ SkipStops depth ts) :
    ∃ depth', ∀ us, skipped depth (ts ++ us) = ts ++ skipped depth' us := by
  induction ts generalizing depth with
  | nil => exact ⟨depth, fun _ => rfl⟩
  | cons t ts ih =>
    obtain ⟨hne, hts⟩ := not_or.1 h
    obtain ⟨depth', h'⟩ := ih hts
    refine ⟨depth', ?_⟩
    intro us
    rw [List.cons_append, skipped, if_neg hne, h', List.cons_append]

theorem skip_of_not_stops (h : ¬ SkipStops 0 d.ahead) : d.skip.ahead = [] := by
  obtain ⟨depth, hall⟩ := skipped_append_of_not_stops h
  have hnil := hall []
  rw [List.append_nil, skipped, List.append_nil] at hnil
  have skips := d.skip_passes.ahead
  rw [hnil] at skips
  exact List.self_eq_append_right.1 skips

/-- A mistake that ends before the tokens do ends with a semicolon. -/
theorem skipped_of_stops {depth : Int} (h : SkipStops depth ts) :
    ∃ us t, skipped depth ts = us ++ [t] ∧ t.kind = .semicolon := by
  induction ts generalizing depth with
  | nil => exact h.elim
  | cons t ts ih =>
    unfold skipped
    split
    next hk => exact ⟨[], t, rfl, hk.1⟩
    next hne =>
      obtain ⟨us, u, hus, hu⟩ := ih (h.resolve_left hne)
      exact ⟨t :: us, u, by rw [hus]; rfl, hu⟩

end Cursor

/-! ### One step -/

namespace Session
variable {s : Session}

/-- The session behind a mistake. -/
def behindMistake (s : Session) (fault : SyntaxFault) (d : Cursor) : Session :=
  { s with
    cursor := d.skip
    nesting := { s.nesting with depth := 0 }
    diagnostics := s.diagnostics ++ [fault.toDiagnostic] }

/-- A mistake as a statement, given the tokens that it takes. -/
def mistake (s : Session) (fault : SyntaxFault) (ts : List Token) : ErrorStatement :=
  ⟨originOver ts, fault.message, (originOver ts).span.slice s.source⟩

theorem statement_of_ok {x : Statement} {d : Cursor}
    (h : Parse.statement s.nesting s.cursor = .ok x d) :
    s.statement = (x, { s with cursor := d }) := by
  rw [statement, h]

theorem getD_tokens_index {c : Cursor} {t : Token} {ts : List Token} (h : c.ahead = t :: ts)
    (u : Token) : c.tokens.getD c.index u = t := by
  simp [Cursor.tokens, Cursor.index, h]

theorem statement_of_error {fault : SyntaxFault} {d : Cursor} (ha : s.cursor.ahead ≠ [])
    (h : Parse.statement s.nesting s.cursor = .error fault d) :
    ∃ ts us, s.cursor.Passes ts d ∧ us = Cursor.skipped 0 d.ahead ∧ ts ++ us ≠ [] ∧
      s.cursor.Passes (ts ++ us) d.skip ∧
      s.statement = (.error (s.mistake fault (ts ++ us)), s.behindMistake fault d) := by
  obtain ⟨ts, pass₁⟩ := (Parse.moves_statement s.nesting).passes s.cursor
  rw [h] at pass₁
  change s.cursor.Passes ts d at pass₁
  have pass := pass₁.trans d.skip_passes
  have hne : ts ++ Cursor.skipped 0 d.ahead ≠ [] := by
    intro hnil
    obtain ⟨rfl, hus⟩ := List.append_eq_nil_iff.1 hnil
    rw [pass₁.eq_of_nil] at hus
    exact Cursor.skipped_ne_nil 0 ha hus
  refine ⟨ts, _, pass₁, rfl, hne, pass, ?_⟩
  rw [statement, h]
  dsimp only [recover]
  generalize hus : ts ++ Cursor.skipped 0 d.ahead = us at pass hne
  cases us with
  | nil => exact absurd rfl hne
  | cons u us =>
    have hindex : ¬ d.skip.index = s.cursor.index := by
      rw [pass.index, List.length_cons]
      omega
    have hfirst : d.skip.tokens.getD s.cursor.index d.skip.stop = u := by
      rw [pass.tokens]
      exact getD_tokens_index pass.ahead _
    have horigin := pass.originFrom
    simp only [if_neg hindex, hfirst, mistake, ← horigin]
    rfl

/-! ### Whole sessions -/

theorem passes_statement (ha : s.cursor.ahead ≠ []) (hc : s.cursor.EndsOnce) :
    ∃ ts, ts ≠ [] ∧ s.cursor.Passes ts s.statement.2.cursor := by
  cases h : Parse.statement s.nesting s.cursor with
  | ok x d =>
    obtain ⟨ts, pass, spelled⟩ := Parse.statement_spelled s.nesting hc.ended h
    exact ⟨ts, spelled.ne_nil, by rw [statement_of_ok h]; exact pass⟩
  | error fault d =>
    obtain ⟨ts, us, -, -, hne, pass, hs⟩ := statement_of_error ha h
    exact ⟨ts ++ us, hne, by rw [hs]; exact pass⟩

theorem remaining_statement_lt (ha : s.cursor.ahead ≠ []) (hc : s.cursor.EndsOnce) :
    s.statement.2.cursor.remaining < s.cursor.remaining := by
  obtain ⟨ts, hne, pass⟩ := passes_statement ha hc
  have := List.length_pos_iff.2 hne
  rw [pass.remaining]
  omega

theorem endsOnce_statement (ha : s.cursor.ahead ≠ []) (hc : s.cursor.EndsOnce) :
    s.statement.2.cursor.EndsOnce := by
  obtain ⟨ts, -, pass⟩ := passes_statement ha hc
  exact hc.passes pass

theorem statements_of_nil (ha : s.cursor.ahead = []) :
    s.statements = ([], s) := by
  simp [statements, Cursor.remaining, ha, statementsWithin]

/-- More steps than there are tokens ahead make no difference. -/
theorem statementsWithin_eq {j k : Nat} (hc : s.cursor.EndsOnce) (hj : s.cursor.remaining ≤ j)
    (hk : s.cursor.remaining ≤ k) : s.statementsWithin j = s.statementsWithin k := by
  induction j generalizing k s with
  | zero =>
    have ha : s.cursor.ahead = [] := List.length_eq_zero_iff.1 (Nat.le_zero.1 hj)
    cases k with
    | zero => rfl
    | succ k => rw [statementsWithin, statementsWithin, if_pos (hc.kind_eq_iff.2 ha)]
  | succ j ih =>
    by_cases ha : s.cursor.ahead = []
    · cases k with
      | zero => rw [statementsWithin, statementsWithin, if_pos (hc.kind_eq_iff.2 ha)]
      | succ k => simp only [statementsWithin, if_pos (hc.kind_eq_iff.2 ha)]
    · have hlt := remaining_statement_lt ha hc
      obtain ⟨k, rfl⟩ : ∃ i, k = i + 1 := ⟨k - 1, by omega⟩
      simp only [statementsWithin, if_neg (mt hc.kind_eq_iff.1 ha)]
      rw [ih (endsOnce_statement ha hc) (by omega) (show _ ≤ k by omega)]

/-- A session with tokens ahead takes one step and goes on. -/
theorem statements_of_ahead (hc : s.cursor.EndsOnce) (ha : s.cursor.ahead ≠ []) :
    s.statements = (s.statement.1 :: s.statement.2.statements.1, s.statement.2.statements.2) := by
  have hlt := remaining_statement_lt ha hc
  obtain ⟨k, hk⟩ : ∃ k, s.cursor.remaining = k + 1 := ⟨s.cursor.remaining - 1, by omega⟩
  rw [statements, hk, statementsWithin, if_neg (mt hc.kind_eq_iff.1 ha)]
  dsimp only
  rw [statementsWithin_eq (endsOnce_statement ha hc) (show _ ≤ k by omega) (Nat.le_refl _)]
  rfl

/-- What holds of every session with nothing ahead, and of a session with tokens ahead if it holds
behind the next step, holds of all sessions. -/
@[elab_as_elim]
theorem steps_induction {motive : Session → Prop}
    (ended : ∀ s : Session, s.cursor.ahead = [] → motive s)
    (step : ∀ s : Session, s.cursor.EndsOnce → s.cursor.ahead ≠ [] → motive s.statement.2 → motive s)
    (hc : s.cursor.EndsOnce) : motive s := by
  induction hn : s.cursor.remaining using Nat.strongRecOn generalizing s with
  | ind n ih =>
    by_cases ha : s.cursor.ahead = []
    · exact ended s ha
    · exact step s hc ha (ih _ (hn ▸ remaining_statement_lt ha hc) (endsOnce_statement ha hc) rfl)

end Session

end RelationNotation
