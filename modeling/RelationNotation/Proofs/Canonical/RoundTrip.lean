import RelationNotation.Proofs.Canonical.Statement
import RelationNotation.Proofs.Grammar.Completeness
import RelationNotation.Proofs.Parse.Reading
import RelationNotation.Proofs.Parse.Recovery
import RelationNotation.Proofs.Tree.Rebuilding

/-!
Canonical text read again. Two sessions run side by side, one over a text and one over the canonical
text of its statements: at each step they read the same statement, positions aside, or record the
same mistake, over tokens of the same forms.
-/

namespace RelationNotation

open Token Cursor

/-! ### Mistakes written again -/

/-- A token that looks like another, some characters further on; where the input ends makes no
difference. -/
def Token.Resembles (k : Int) (t u : Token) : Prop :=
  u.form = t.form ∧ (t.kind ≠ .endOfInput →
    u.span.start.offset = t.span.start.offset + k ∧ u.span.stop.offset = t.span.stop.offset + k)

theorem unseen_resembles (k : Int) : Unseen (Resembles k) where
  kind h := congrArg Prod.fst h.1
  text h := congrArg Prod.snd h.1
  touches h₁ h₂ attaches := by
    obtain ⟨hne, hne'⟩ := attaches.ne_endOfInput
    rw [Bool.eq_iff_iff, touches, touches, beq_iff_eq, beq_iff_eq, (h₁.2 hne).2, (h₂.2 hne').1]
    omega

theorem Token.MovedBy.resembles {k : Int} {t u : Token} (h : MovedBy k t u) : Resembles k t u :=
  ⟨by rw [form, form, h.kind, h.text], fun _ => ⟨h.start, h.stop⟩⟩

theorem map_form_of_moved {k : Int} {ts us : List Token} (h : List.Forall₂ (MovedBy k) ts us) :
    us.map form = ts.map form := by
  induction h with
  | nil => rfl
  | cons ht _ ih => rw [List.map_cons, List.map_cons, ih, ht.resembles.1]

theorem moved_ends {k : Int} {ts us : List Token} (h : List.Forall₂ (MovedBy k) ts us)
    (hts : ts ≠ []) :
    MovedBy k (ts.headD default) (us.headD default) ∧
      MovedBy k (ts.getLastD default) (us.getLastD default) := by
  constructor
  · cases h with
    | nil => exact absurd rfl hts
    | cons ht _ => exact ht
  · obtain ⟨vs, t, rfl⟩ := ts.eq_nil_or_concat.resolve_left hts
    rw [List.concat_eq_append] at h ⊢
    obtain ⟨as, bs, rfl, -, hbs⟩ := forall₂_append_cases h
    cases hbs with
    | cons ht hbs =>
      cases hbs
      simpa using ht

namespace Session
variable {s s' : Session} {u u' t v : Text}

/-- One session has read a piece of its text, another a piece of the text written again: the same
statement, from tokens of the same forms. -/
structure Repeats (s s' : Session) (u' v : Text) : Prop where
  erased : s'.statement.1.mapOrigins .bare () = s.statement.1.mapOrigins .bare ()
  nesting : s'.statement.2.nesting = s.statement.2.nesting
  forms : ∃ ps ps', s.cursor.upcoming = ps ++ s.statement.2.cursor.upcoming ∧
    s'.cursor.upcoming = ps' ++ s'.statement.2.cursor.upcoming ∧ ps'.map form = ps.map form
  here : ∃ w x, s.statement.2.Reads w x
  there : s'.statement.2.Reads (u' ++ s.statement.1.canonical) v

/-- A statement written at a session's place is the next one that the session reads. -/
theorem statement_of_written {x : Statement} {ts us : List Token} (hs : s.Reads u (t ++ v))
    (clean : ScanMode.afterAll {} ts = {})
    (written : Writes {} (Position.start.after u) t v ts us)
    (spelled : x.SpelledBy s.nesting.levels us) :
    ∃ d, s.cursor.Passes us d ∧ s.statement = (x, { s with cursor := d }) ∧
      Session.Reads { s with cursor := d } (u ++ t) v := by
  have hup : s.cursor.upcoming = us ++ significantFrom {} (Position.start.after (u ++ t)) v := by
    rw [hs.upcoming, written.scan, clean, Position.after_append]
  obtain ⟨vs, hvs, -⟩ := significantFrom_eq {} (Position.start.after (u ++ t)) v
  rw [hvs, ← List.append_assoc] at hup
  obtain ⟨ha, hstop⟩ := List.append_inj' hup rfl
  have pass : s.cursor.Passes us ⟨us.reverse ++ s.cursor.before, vs, s.cursor.stop⟩ :=
    ⟨ha, rfl, rfl⟩
  refine ⟨_, pass, statement_of_ok (Parse.statement_reads spelled pass), ?_, ?_⟩
  · rw [hs.source, List.append_assoc]
  · rw [hvs, ← hstop]
    rfl

theorem repeats_of_ok (hs : s.Reads u t) {x : Statement} {d : Cursor}
    (h : Parse.statement s.nesting s.cursor = .ok x d) (hn : s'.nesting = s.nesting)
    (hv : Breaks v) (hs' : s'.Reads u' (x.canonical ++ v)) : Repeats s s' u' v := by
  obtain ⟨ps, pass, spelled⟩ := Parse.statement_spelled s.nesting hs.endsOnce.ended h
  obtain ⟨-, fit⟩ := upcoming_split hs.upcoming
  rw [pass.ahead] at fit
  obtain ⟨clean, again⟩ := statement_rewrites spelled (fitting_append.1 fit).1
  obtain ⟨gap, raw, tail, rfl, -, -, hrest, -⟩ := hs.cut pass.ahead spelled.ne_nil
  obtain ⟨ps', y, written, hy, erased⟩ := again (Position.start.after u') v hv
  have step := statement_of_ok h
  obtain ⟨d', pass', step', there⟩ := statement_of_written hs' clean written (by rw [hn]; exact hy)
  refine ⟨by rw [step, step']; exact erased, by rw [step, step']; exact hn, ?_, ?_, ?_⟩
  · exact ⟨ps, ps', by rw [step]; exact pass.upcoming, by rw [step']; exact pass'.upcoming,
      written.form⟩
  · rw [step]
    refine ⟨u ++ gap ++ raw, tail, ?_, ?_⟩
    · rw [show s.source = _ from hs.source]
      simp
    · rw [clean, ← pass.stop] at hrest
      exact hrest
  · rw [step, step']
    exact there

/-- The text of a mistake is the stretch that its tokens stand in. -/
theorem mistake_text {gap raw tail : Text} {ps : List Token} (fault : SyntaxFault)
    (hsource : s.source = gap ++ raw ++ tail)
    (hstart : (ps.headD default).span.start.offset = gap.length)
    (hstop : (ps.getLastD default).span.stop.offset = (gap ++ raw).length) :
    (s.mistake fault ps).text = raw := by
  rw [mistake, hsource]
  exact slice_middle hstart hstop

theorem repeats_of_error (hs : s.Reads u t) (ha : s.cursor.ahead ≠ []) {fault : SyntaxFault}
    {d : Cursor} (h : Parse.statement s.nesting s.cursor = .error fault d)
    (hn : s'.nesting = s.nesting) (hv : Breaks v)
    (hlast : s.statement.2.cursor.ahead = [] → v = [])
    (hs' : s'.Reads u' (s.statement.1.canonical ++ v)) : Repeats s s' u' v := by
  obtain ⟨ts, us, -, hus, hne, pass, step⟩ := statement_of_error ha h
  generalize hps : ts ++ us = ps at hne pass step
  obtain ⟨gap, raw, tail, rfl, hstart, hstop, hrest, again⟩ := hs.cut pass.ahead hne
  have htext : (s.mistake fault ps).text = raw :=
    mistake_text fault (show s.source = u ++ gap ++ raw ++ tail by rw [hs.source]; simp) hstart hstop
  have hcanonical : s.statement.1.canonical = raw := by rw [step]; exact htext
  rw [hcanonical] at hs'
  obtain ⟨ps', hscan, moved⟩ := again (Position.start.after u')
    (by rw [offset_start_after]; omega) v hv
  have hup := hs'.upcoming
  rw [hscan, ← Position.after_append] at hup
  obtain ⟨vs, hvs, -⟩ := significantFrom_eq (ScanMode.afterAll {} ps)
    (Position.start.after (u' ++ raw)) v
  rw [hvs, ← List.append_assoc] at hup
  obtain ⟨ha', hstop'⟩ := List.append_inj' hup rfl
  have hend : s.cursor.stop = .endOfInput _ := (upcoming_split hs.upcoming).1
  have hend' : s'.cursor.stop = .endOfInput _ := (upcoming_split hs'.upcoming).1
  -- A mistake ends with a semicolon, which clears the scanner's mode, or runs to the end.
  have hends : SkipStops 0 d.ahead ∧ ScanMode.afterAll {} ps = {} ∨ d.skip.ahead = [] ∧ v = [] := by
    by_cases hstops : SkipStops 0 d.ahead
    · obtain ⟨us', z, hz, hkind⟩ := skipped_of_stops hstops
      rw [← hps, hus, hz, ← List.append_assoc]
      exact .inl ⟨hstops, ScanMode.afterAll_semicolon _ _ hkind⟩
    · have hnone := skip_of_not_stops hstops
      refine .inr ⟨hnone, hlast ?_⟩
      rw [step]
      exact hnone
  have hvs' : v = [] → vs = [] := by
    rintro rfl
    rw [significantFrom_nil] at hvs
    simpa using hvs
  obtain ⟨fault', d', hdemand, hfound, hrest', pass', step'⟩ :=
    statement_recurs (unseen_resembles _) pass.ahead ha' (moved.imp fun _ _ => MovedBy.resembles)
      hne hn h rfl (hends.imp And.left fun ⟨hnone, hnil⟩ => ⟨hnone, hvs' hnil,
        by rw [hend, hend']; exact ⟨rfl, fun hk => absurd rfl hk⟩, by rw [hend]; exact .inr rfl⟩)
  have htext' : (s'.mistake fault' ps').text = raw := by
    obtain ⟨hhead, hlast⟩ := moved_ends moved hne
    have hsource : s'.source = u' ++ raw ++ v := by rw [hs'.source, List.append_assoc]
    refine mistake_text fault' hsource ?_ ?_
    · rw [hhead.start, hstart, offset_start_after, offset_start_after]
      omega
    · rw [hlast.stop, hstop, offset_start_after, offset_start_after]
      simp only [List.length_append]
      omega
  refine ⟨?_, ?_, ?_, ?_, ?_⟩
  · rw [step, step']
    refine congrArg₂ (fun a b => Statement.error ⟨default, a, b⟩) ?_ (htext'.trans htext.symm)
    exact SyntaxFault.message_congr hdemand (congrArg Prod.fst hfound.1) (congrArg Prod.snd hfound.1)
  · rw [step, step', behindMistake, behindMistake, hn]
  · exact ⟨ps, ps', by rw [step]; exact pass.upcoming, by rw [step']; exact pass'.upcoming,
      map_form_of_moved moved⟩
  · rw [step]
    rcases hends with ⟨-, clean⟩ | ⟨hnone, -⟩
    · rw [clean, ← pass.stop] at hrest
      exact ⟨_, tail, hs.source.trans (by simp), hrest⟩
    · have hstop' : d.skip.stop = .endOfInput (Position.start.after (u ++ (gap ++ raw ++ tail))) := by
        rw [pass.stop, hend, ← Position.after_append]
      exact ⟨_, [], reads_of_nil (s := s.behindMistake fault d) hs.source hstop' hnone⟩
  · rw [step', hcanonical]
    refine ⟨hs'.source.trans (List.append_assoc ..).symm, ?_⟩
    have hup' : d'.skip.upcoming = vs ++ [s'.cursor.stop] := by
      rw [upcoming, hrest', pass'.stop]
    rw [show (s'.behindMistake fault' d').cursor.upcoming = _ from hup', hstop', ← hvs]
    rcases hends with ⟨-, clean⟩ | ⟨-, rfl⟩
    · rw [clean]
    · rw [significantFrom_nil, significantFrom_nil]

theorem repeats (hs : s.Reads u t) (ha : s.cursor.ahead ≠ []) (hn : s'.nesting = s.nesting)
    (hv : Breaks v) (hlast : s.statement.2.cursor.ahead = [] → v = [])
    (hs' : s'.Reads u' (s.statement.1.canonical ++ v)) : Repeats s s' u' v := by
  cases h : Parse.statement s.nesting s.cursor with
  | ok x d =>
    rw [statement_of_ok h] at hs'
    exact repeats_of_ok hs h hn hv hs'
  | error fault d => exact repeats_of_error hs ha h hn hv hlast hs'

/-- The lines behind another, each behind a newline. -/
def furtherLines : List Text → Text
  | [] => []
  | l :: ls => '\n' :: Text.joinLines (l :: ls)

theorem joinLines_cons (l : Text) (ls : List Text) :
    Text.joinLines (l :: ls) = l ++ furtherLines ls := by
  cases ls with
  | nil => exact (List.append_nil l).symm
  | cons m ls => rfl

theorem breaks_furtherLines (ls : List Text) : Breaks (furtherLines ls) := by
  cases ls with
  | nil => exact breaks_nil
  | cons l ls => exact breaks_newline _

theorem Reads.furtherLines {ls : List Text} (hs : s.Reads u (furtherLines ls)) :
    ∃ w, s.Reads w (Text.joinLines ls) := by
  cases ls with
  | nil => exact ⟨u, hs⟩
  | cons l ls => exact ⟨_, hs.newline⟩

/-- A session over canonical text reads the statements that the text is made of, from tokens of the
same forms. -/
theorem statements_again (hs : s.Reads u t) (hn : s'.nesting = s.nesting)
    (hs' : s'.Reads u' (Text.joinLines (s.statements.1.map (·.canonical)))) :
    s'.cursor.upcoming.map form = s.cursor.upcoming.map form ∧
      s'.statements.1.map (·.mapOrigins .bare ()) = s.statements.1.map (·.mapOrigins .bare ()) := by
  induction hk : s.cursor.remaining using Nat.strongRecOn generalizing s s' u t u' with
  | ind k ih =>
    by_cases ha : s.cursor.ahead = []
    · rw [statements_of_nil ha] at hs' ⊢
      have hup := hs'.upcoming
      rw [show Text.joinLines (([] : List Statement).map (·.canonical)) = [] from rfl,
        significantFrom_nil] at hup
      have ha' : s'.cursor.ahead = [] := (List.append_eq_singleton_iff.1 hup).elim And.left
        fun h => absurd h.2 (List.cons_ne_nil _ _)
      rw [statements_of_nil ha', hup, upcoming, ha, (upcoming_split hs.upcoming).1]
      exact ⟨rfl, rfl⟩
    · have hlt := remaining_statement_lt ha hs.endsOnce
      rw [statements_of_ahead hs.endsOnce ha, List.map_cons, joinLines_cons] at hs'
      -- Behind a last mistake without a semicolon no line follows, or it would be skipped as well.
      have hlast : s.statement.2.cursor.ahead = [] →
          Session.furtherLines (s.statement.2.statements.1.map (·.canonical)) = [] := by
        intro hnil
        rw [statements_of_nil hnil]
        rfl
      have step := repeats hs ha hn (breaks_furtherLines _) hlast hs'
      obtain ⟨w, x, here⟩ := step.here
      obtain ⟨w', there⟩ := step.there.furtherLines
      obtain ⟨hforms, herased⟩ := ih _ (hk ▸ hlt) here step.nesting there rfl
      obtain ⟨ps, ps', hup, hup', forms⟩ := step.forms
      have ha' : s'.cursor.ahead ≠ [] := by
        intro hnil
        have h₁ := congrArg List.length hup
        have h₂ := congrArg List.length hup'
        have h₃ := congrArg List.length forms
        simp only [upcoming, hnil, List.length_append, List.length_map, List.length_singleton,
          List.length_nil] at h₁ h₂ h₃
        unfold remaining at hlt
        omega
      rw [statements_of_ahead hs.endsOnce ha, statements_of_ahead hs'.endsOnce ha', hup, hup',
        List.map_append, List.map_append, List.map_cons, List.map_cons, forms, hforms, herased,
        step.erased]
      exact ⟨rfl, rfl⟩

end Session

/-! ### Documents -/

/-- Trivia make no difference to a bare node. -/
theorem attaching_fuses_bare :
    Trivia.attaching.Fuses id .bare .bare fun _ _ _ => True where
  span _ _ _ := rfl
  here _ _ _ := rfl
  below _ _ _ := trivial

theorem Document.bare_attach (d : Document) (items : List Trivia) :
    (d.attach items).bare = d.bare := by
  rw [attach_eq]
  exact d.mapOrigins_fuse attaching_fuses_bare trivial

/-- The statements of a bare document are bare. -/
theorem Document.bare_eq (d : Document) :
    d.bare = ⟨default, d.statements.map (·.mapOrigins .bare ())⟩ := by
  refine congrArg (Document.mk default) (List.ext_getElem (by simp) fun i h₁ h₂ => ?_)
  simp [OriginMap.each]

section
variable (source : Text) (options : ParserOptions)

theorem document_canonical :
    (parseDocument source options).document.canonical =
      Text.joinLines ((startOf source options.maxDepth).statements.1.map (·.canonical)) := by
  unfold parseDocument
  dsimp only
  split
  · exact Document.canonical_mapOrigins _ _ _
  · rfl

theorem document_bare :
    (parseDocument source options).document.bare =
      ⟨default, (startOf source options.maxDepth).statements.1.map (·.mapOrigins .bare ())⟩ := by
  unfold parseDocument
  dsimp only
  split
  · rw [Document.bare_attach]
    exact Document.bare_eq _
  · exact Document.bare_eq _

/-- A session over the canonical text of a document stands beside one over the text itself. -/
theorem startOf_again :
    let canonical := (parseDocument source options).document.canonical
    let s := startOf source options.maxDepth
    let s' := startOf canonical options.maxDepth
    s'.cursor.upcoming.map form = s.cursor.upcoming.map form ∧
      s'.statements.1.map (·.mapOrigins .bare ()) = s.statements.1.map (·.mapOrigins .bare ()) := by
  refine Session.statements_again (reads_startOf source _) rfl (?_ : Session.Reads _ [] _)
  rw [← document_canonical]
  exact reads_startOf _ _

/-- Canonical text has the structural tokens of the text it was made of, mistakes included. -/
theorem structural_canonical :
    (structural (scan (parseDocument source options).document.canonical)).map form =
      (structural (scan source)).map form := by
  have h := (startOf_again source options).1
  rwa [upcoming_startOf, upcoming_startOf] at h

theorem document_canonical_bare :
    (parseDocument (parseDocument source options).document.canonical options).document.bare =
      (parseDocument source options).document.bare := by
  rw [document_bare, document_bare, (startOf_again source options).2]

/-- Canonical text is read as the document it was made of, positions and trivia aside, mistakes
included; so it is its own canonical text. -/
theorem parseDocument_canonical :
    (parseDocument (parseDocument source options).document.canonical options).document.bare =
        (parseDocument source options).document.bare ∧
      (parseDocument (parseDocument source options).document.canonical options).document.canonical =
        (parseDocument source options).document.canonical := by
  have erased := document_canonical_bare source options
  refine ⟨erased, ?_⟩
  have texts := congrArg Document.canonical erased
  rwa [Document.bare, Document.bare, Document.canonical_mapOrigins,
    Document.canonical_mapOrigins] at texts

end

end RelationNotation
