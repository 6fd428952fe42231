import RelationNotation.Proofs.Parse.Agreement

/-!
A mistake recurs wherever its tokens do: what is skipped depends on the kinds of the skipped tokens,
so a mistake that ends with a semicolon takes up alike tokens before any others.
-/

namespace RelationNotation

open Token Cursor

section
variable {T : Token → Token → Prop} {ts us : List Token}

theorem forall₂_append_cases {α β : Type} {R : α → β → Prop} {as bs : List α} {cs : List β}
    (h : List.Forall₂ R (as ++ bs) cs) :
    ∃ ds es, cs = ds ++ es ∧ List.Forall₂ R as ds ∧ List.Forall₂ R bs es := by
  induction as generalizing cs with
  | nil => exact ⟨[], cs, rfl, .nil, h⟩
  | cons a as ih =>
    cases h with
    | cons ha h =>
      obtain ⟨ds, es, rfl, hds, hes⟩ := ih h
      exact ⟨_ :: ds, es, rfl, .cons ha hds, hes⟩

namespace Cursor

theorem skipStops_skipped {depth : Int} (h : SkipStops depth ts) :
    SkipStops depth (skipped depth ts) := by
  induction ts generalizing depth with
  | nil => exact h.elim
  | cons t ts ih =>
    unfold skipped
    split
    next hk => exact .inl hk
    next hne => exact .inr (ih (h.resolve_left hne))

theorem SkipStops.append {depth : Int} (h : SkipStops depth ts) (us : List Token) :
    SkipStops depth (ts ++ us) := by
  induction ts generalizing depth with
  | nil => exact h.elim
  | cons t ts ih => exact h.imp_right ih

theorem skipped_skipped (depth : Int) (ts : List Token) :
    skipped depth (skipped depth ts) = skipped depth ts := by
  induction ts generalizing depth with
  | nil => rfl
  | cons t ts ih =>
    by_cases hk : t.kind = .semicolon ∧ depth ≤ 0
    · rw [skipped, if_pos hk, skipped, if_pos hk]
    · rw [skipped, if_neg hk, skipped, if_neg hk, ih]

theorem SkipStops.alike (unseen : Unseen T) {depth : Int} (h : SkipStops depth ts)
    (alike : List.Forall₂ T ts us) : SkipStops depth us := by
  induction alike generalizing depth with
  | nil => exact h.elim
  | cons ht _ ih =>
    rw [SkipStops, unseen.kind ht]
    exact h.imp_right ih

theorem skipped_alike (unseen : Unseen T) {depth : Int} (h : skipped depth ts = ts)
    (alike : List.Forall₂ T ts us) : skipped depth us = us := by
  induction alike generalizing depth with
  | nil => rfl
  | @cons t u ts us ht alike ih =>
    unfold skipped at h ⊢
    rw [unseen.kind ht]
    split
    next hk =>
      rw [if_pos hk] at h
      obtain rfl := (List.cons.inj h).2
      cases alike
      rfl
    next hk =>
      rw [if_neg hk] at h
      rw [ih (List.cons.inj h).2]

end Cursor

/-- The message of a fault shows the kind and the text of the token found, and no more. -/
theorem SyntaxFault.message_congr {f g : SyntaxFault} (hdemand : g.demand = f.demand)
    (hkind : g.found.kind = f.found.kind) (htext : g.found.text = f.found.text) :
    g.message = f.message := by
  rw [message, message, hdemand, describeFound, describeFound, hkind, htext]

namespace Session
variable {s s' : Session} {ps ps' rest rest' : List Token} {fault : SyntaxFault} {d : Cursor}

/-- The tokens of a mistake that reaches up to a place are those passed and those skipped. -/
theorem mistake_tokens (hs : s.cursor.ahead = ps ++ rest)
    (h : Parse.statement s.nesting s.cursor = .error fault d) (hrest : d.skip.ahead = rest) :
    ∃ ts us, ps = ts ++ us ∧ s.cursor.Passes ts d ∧ d.ahead = us ++ rest ∧
      us = skipped 0 d.ahead := by
  obtain ⟨ts, pass⟩ := (Parse.moves_statement s.nesting).passes s.cursor
  rw [h] at pass
  have skips := d.skip_passes.ahead
  rw [hrest] at skips
  have hps := pass.ahead
  rw [show (Parse.place (.error fault d : EStateM.Result SyntaxFault Cursor Statement)).ahead =
    d.ahead from rfl, skips, hs, ← List.append_assoc] at hps
  exact ⟨ts, _, List.append_cancel_right hps, pass, skips, rfl⟩

/-- Two runs that stand a number of tokens before the same place pass as many tokens to get as close
to it. -/
theorem passed_length {r r' : List Token} {j k : Nat} {c c' d d' : Cursor}
    (h : Abreast T r r' k c c') (h' : Abreast T r r' j d d') (pass : c.Passes ts d)
    (pass' : c'.Passes us d') : us.length = ts.length := by
  obtain ⟨a, a', z, z', hc, hc', ha, -, -, hk⟩ := h
  obtain ⟨b, b', y, y', hd, hd', hb, -, -, hj⟩ := h'
  have h₁ := congrArg List.length pass.upcoming
  have h₂ := congrArg List.length pass'.upcoming
  have h₃ := ha.length_eq
  have h₄ := hb.length_eq
  rw [hc, hd] at h₁
  rw [hc', hd'] at h₂
  simp only [List.length_append, List.length_cons] at h₁ h₂
  omega

/-- Alike tokens keep two runs abreast, up to the semicolon that ends a mistake or up to the end of
both inputs. -/
theorem abreast_of_alike (hs : s.cursor.ahead = (ts ++ us) ++ rest)
    (hs' : s'.cursor.ahead = ps' ++ rest') (alike : List.Forall₂ T (ts ++ us) ps')
    (hus : us = skipped 0 d.ahead)
    (bounded : SkipStops 0 d.ahead ∨
      rest = [] ∧ rest' = [] ∧ T s.cursor.stop s'.cursor.stop ∧ s.cursor.stop.Ends) :
    ∃ r r' k, Abreast T r r' k s.cursor s'.cursor := by
  rcases bounded with hstops | ⟨rfl, rfl, hstop, hends⟩
  · obtain ⟨vs, z, hvs, hz⟩ := skipped_of_stops hstops
    rw [← hus] at hvs
    subst hvs
    rw [← List.append_assoc] at alike hs
    obtain ⟨as, bs, rfl, has, hbs⟩ := forall₂_append_cases alike
    cases hbs with
    | @cons _ z' _ _ hz' hbs =>
      cases hbs
      refine ⟨rest ++ [s.cursor.stop], rest' ++ [s'.cursor.stop], _, _, as, z, z', ?_, ?_, has, hz',
        .inl hz, rfl⟩
      · rw [upcoming, hs, List.append_assoc, List.append_assoc]
        rfl
      · rw [upcoming, hs', List.append_assoc, List.append_assoc]
        rfl
  · refine ⟨[], [], _, _, _, s.cursor.stop, s'.cursor.stop, ?_, ?_, alike, hstop, hends, rfl⟩
    · rw [upcoming, hs, List.append_nil]
    · rw [upcoming, hs', List.append_nil]

/-- A mistake recurs where its tokens do, if it ends with a semicolon or both inputs end behind
it. -/
theorem mistake_recurs (unseen : Unseen T) (hs : s.cursor.ahead = ps ++ rest)
    (hs' : s'.cursor.ahead = ps' ++ rest') (alike : List.Forall₂ T ps ps')
    (hn : s'.nesting = s.nesting) (h : Parse.statement s.nesting s.cursor = .error fault d)
    (hrest : d.skip.ahead = rest)
    (bounded : SkipStops 0 d.ahead ∨
      rest = [] ∧ rest' = [] ∧ T s.cursor.stop s'.cursor.stop ∧ s.cursor.stop.Ends) :
    ∃ fault' d', Parse.statement s'.nesting s'.cursor = .error fault' d' ∧
      fault'.demand = fault.demand ∧ T fault.found fault'.found ∧ d'.skip.ahead = rest' ∧
      (SkipStops 0 d.ahead → SkipStops 0 d'.ahead) := by
  obtain ⟨ts, us, rfl, pass, hd, hus⟩ := mistake_tokens hs h hrest
  obtain ⟨r, r', k, habreast⟩ := abreast_of_alike hs hs' alike hus bounded
  -- Abreast of it, the second parser fails as the first does, with as many tokens passed.
  obtain ⟨fault', d', h', hdemand, hfound, j, habreast'⟩ :=
    Parse.statement_fails unseen s.nesting habreast h
  rw [← hn] at h'
  refine ⟨fault', d', h', hdemand, hfound, ?_⟩
  obtain ⟨ts', pass'⟩ := (Parse.moves_statement s'.nesting).passes s'.cursor
  rw [h'] at pass'
  obtain ⟨as, bs, rfl, has, hbs⟩ := forall₂_append_cases alike
  have hlen : as.length = ts'.length :=
    has.length_eq.symm.trans (passed_length habreast habreast' pass pass').symm
  have hsplit := pass'.ahead
  rw [hs', List.append_assoc] at hsplit
  obtain ⟨-, hd'⟩ := List.append_inj hsplit hlen
  -- So the rest of the mistake is skipped as before, and no token behind it.
  have hfixed : skipped 0 us = us := by
    rw [hus]
    exact skipped_skipped 0 _
  have hstops' (hstops : SkipStops 0 d.ahead) : SkipStops 0 bs := by
    have hus' : SkipStops 0 us := by
      rw [hus]
      exact skipStops_skipped hstops
    exact hus'.alike unseen hbs
  have hskipped : skipped 0 (bs ++ rest') = bs := by
    rcases bounded with hstops | ⟨-, rfl, -⟩
    · rw [skipped_append_of_stops (hstops' hstops), skipped_alike unseen hfixed hbs]
    · rw [List.append_nil, skipped_alike unseen hfixed hbs]
  have skips := d'.skip_passes.ahead
  have hahead : d'.ahead = bs ++ rest' := hd'.symm
  rw [hahead, hskipped] at skips
  refine ⟨(List.append_cancel_left skips).symm, ?_⟩
  intro hstops
  rw [hahead]
  exact (hstops' hstops).append rest'

/-- A step that records the mistake again. -/
theorem statement_recurs (unseen : Unseen T) (hs : s.cursor.ahead = ps ++ rest)
    (hs' : s'.cursor.ahead = ps' ++ rest') (alike : List.Forall₂ T ps ps') (hne : ps ≠ [])
    (hn : s'.nesting = s.nesting) (h : Parse.statement s.nesting s.cursor = .error fault d)
    (hrest : d.skip.ahead = rest)
    (bounded : SkipStops 0 d.ahead ∨
      rest = [] ∧ rest' = [] ∧ T s.cursor.stop s'.cursor.stop ∧ s.cursor.stop.Ends) :
    ∃ fault' d', fault'.demand = fault.demand ∧ T fault.found fault'.found ∧
      d'.skip.ahead = rest' ∧ s'.cursor.Passes ps' d'.skip ∧
      s'.statement = (.error (s'.mistake fault' ps'), s'.behindMistake fault' d') := by
  obtain ⟨fault', d', h', hdemand, hfound, hskip, -⟩ :=
    mistake_recurs unseen hs hs' alike hn h hrest bounded
  have hne' : ps' ≠ [] := by
    rintro rfl
    cases alike
    exact hne rfl
  have hahead : s'.cursor.ahead ≠ [] := by
    intro hnil
    rw [hs'] at hnil
    exact hne' (List.append_eq_nil_iff.1 hnil).1
  obtain ⟨ts, us, -, -, -, pass, step⟩ := statement_of_error hahead h'
  obtain rfl : ts ++ us = ps' := by
    have := pass.ahead
    rw [hs', hskip] at this
    exact (List.append_cancel_right this).symm
  exact ⟨fault', d', hdemand, hfound, hskip, pass, step⟩

end Session

end

end RelationNotation
