import RelationNotation.Proofs.Grammar.Viability
import RelationNotation.Proofs.Parse.Level
import RelationNotation.Proofs.Parse.Limit
import RelationNotation.Proofs.Parse.Mistake

/-!
A mistake is found at the earliest token. The tokens before it are the beginning of a statement, in
some other text (`beginsStatement_of_error`); with it they are the beginning of none, whatever
stands before and behind them (`forcesMistake_of_error`). `mistakes_found_early` says both of all
mistakes in a text.
-/

namespace RelationNotation

open Token Cursor

/-- A parser that has read the structural tokens of some text, the same as the given ones before `e`,
reads a statement from `s` on, and up to `e` at least. -/
def BeginsStatement (tokens : List Token) (limit : Int) (s e : Nat) : Prop :=
  ∃ (source : Text) (c d : Cursor) (x : Statement), c.tokens = structural (scan source) ∧
    c.index = s ∧ (∀ i < e, c.tokens[i]? = tokens[i]?) ∧
    Parse.statement ⟨0, limit⟩ c = .ok x d ∧ e ≤ d.index

/-- A parser before tokens that are the given ones from `s` up to `e`, whatever stands behind them,
refuses the statement at `e`. -/
def ForcesMistake (tokens : List Token) (limit : Int) (s e : Nat) (g : Diagnostic) : Prop :=
  ∀ c : Cursor, c.EndsOnce → c.index = s → (∀ i, s ≤ i → i ≤ e → c.tokens[i]? = tokens[i]?) →
    ∃ fault d, Parse.statement ⟨0, limit⟩ c = .error fault d ∧ d.index = e ∧ fault.toDiagnostic = g

/-- A mistake, given by what is claimed of it, is found at the earliest token, unless it is that the
nesting was too deep. -/
def FoundEarly (tokens : List Token) (limit : Int) (claim : String × Span) (g : Diagnostic) : Prop :=
  claim.1 = g.message ∧ (¬ g.FindsTooDeep →
    ∃ s e t u, tokens[s]? = some t ∧ claim.2.start = t.span.start ∧
      tokens[e]? = some u ∧ g.span = u.span ∧ s ≤ e ∧
      BeginsStatement tokens limit s e ∧ ForcesMistake tokens limit s e g)

namespace Cursor
variable {c d : Cursor} {us : List Token}

/-- Tokens that are the same behind a cursor are ahead of any cursor at the same place. -/
theorem upcoming_of_same {c' : Cursor} {r : List Token} (hup : c.upcoming = us ++ r)
    (hindex : c'.index = c.index)
    (same : ∀ i, c.index ≤ i → i < c.index + us.length → c'.tokens[i]? = c.tokens[i]?) :
    ∃ r', c'.upcoming = us ++ r' := by
  have htake : c'.upcoming.take us.length = us := by
    refine List.ext_getElem? fun i => ?_
    by_cases hi : i < us.length
    · rw [List.getElem?_take_of_lt hi, ← getElem?_tokens, hindex, same _ (by omega) (by omega),
        getElem?_tokens, hup, List.getElem?_append_left hi]
    · rw [List.getElem?_take_eq_none (by omega), List.getElem?_eq_none (by omega)]
  refine ⟨c'.upcoming.drop us.length, ?_⟩
  conv_lhs => rw [← List.take_append_drop us.length c'.upcoming, htake]

/-- Tokens that are the same from a cursor up to another are ahead of any cursor at the same place. -/
theorem Passes.upcoming_of_same {c' : Cursor} (pass : c.Passes us d) (hindex : c'.index = c.index)
    (same : ∀ i, c.index ≤ i → i ≤ d.index → c'.tokens[i]? = c.tokens[i]?) :
    ∃ r, c'.upcoming = us ++ d.current :: r := by
  have hlength : d.index = c.index + us.length := pass.index
  obtain ⟨r, hr⟩ := d.upcoming_cons
  have hup : c.upcoming = (us ++ [d.current]) ++ r := by rw [pass.upcoming, hr]; simp
  obtain ⟨r', hr'⟩ := Cursor.upcoming_of_same hup hindex fun i hle hlt =>
    same i hle (by rw [List.length_append, List.length_singleton] at hlt; omega)
  exact ⟨r', by rw [hr', List.append_assoc]; rfl⟩

end Cursor

namespace Parse
variable {c c' d : Cursor} {fault : SyntaxFault} {n : Nesting}

theorem unseen_eq : Unseen (Eq : Token → Token → Prop) where
  kind := by rintro t _ rfl; rfl
  text := by rintro t _ rfl; rfl
  touches := by rintro t _ u _ rfl rfl _; rfl

/-- What was passed before makes no difference to a mistake. -/
theorem statement_error_of_ahead {us : List Token} (hc : c.Ended) (ahead : c'.ahead = c.ahead)
    (stop : c'.stop = c.stop) (pass : c.Passes us d) (h : statement n c = .error fault d) :
    ∃ d', c'.Passes us d' ∧ statement n c' = .error fault d' := by
  have level : Cursor.Level Eq c c' :=
    ⟨ahead ▸ List.forall₂_refl _, stop.symm, hc⟩
  have agree := agree_statement unseen_eq n level
  have behind := level_statement unseen_eq n level
  obtain ⟨vs, pass'⟩ := (moves_statement n).passes c'
  cases h' : statement n c' with
  | ok x d' =>
    rw [h, h'] at agree
    exact agree.elim
  | error fault' d' =>
    rw [h, h'] at agree behind
    rw [h'] at pass'
    obtain ⟨demand, found, -⟩ := agree
    have same : fault' = fault := by
      cases fault
      cases fault'
      simp_all
    have hahead : d'.ahead = d.ahead := (List.forall₂_eq_eq_eq ▸ behind.ahead : _ = _).symm
    have joined : us ++ d.ahead = vs ++ d.ahead := by
      rw [← pass.ahead, ← ahead, pass'.ahead, ← hahead]
      rfl
    exact ⟨d', List.append_cancel_right joined ▸ pass', by rw [same]⟩

/-- A mistake is made again over the same tokens up to the one it is about, whatever stands before
and behind them. -/
theorem forcesMistake_of_error {limit : Int} (hc : c.EndsOnce) (hdeep : ¬ fault.TooDeep)
    (h : statement ⟨0, limit⟩ c = .error fault d) :
    ForcesMistake c.tokens limit c.index d.index fault.toDiagnostic := by
  intro c' hc' hindex same
  obtain ⟨us, pass⟩ := (moves_statement ⟨0, limit⟩).passes c
  rw [h] at pass
  obtain ⟨r, hr⟩ := pass.upcoming_of_same hindex same
  -- First the tokens behind are others, then those before.
  let c'' : Cursor := { c' with before := c.before }
  have twins : Twins (c.remaining + 1) (c''.remaining + 1) c c'' :=
    ⟨hc, ⟨hc'.ended, hc'.ahead⟩, rfl, Nat.le_succ _, Nat.le_succ _⟩
  have again := (retraces_statement (.refl ⟨0, limit⟩)).again twins (by rw [h]; exact pass)
    (by rw [h]; exact hr)
  rw [h] at again
  obtain ⟨d', pass', read⟩ := again.resolve_left hdeep
  obtain ⟨e, pass₁, read₁⟩ : ∃ e, c'.Passes us e ∧ statement ⟨0, limit⟩ c' = .error fault e :=
    statement_error_of_ahead (c := c'') hc'.ended rfl rfl pass' read
  refine ⟨fault, e, read₁, ?_, rfl⟩
  rw [pass₁.index, hindex]
  exact pass.index.symm

/-- What is passed before a mistake begins a statement. -/
theorem beginsStatement_of_error {source : Text} {limit : Int} (hc : c.Ended)
    (htokens : c.tokens = structural (scan source)) (hdeep : ¬ fault.TooDeep)
    (h : statement ⟨0, limit⟩ c = .error fault d) :
    BeginsStatement c.tokens limit c.index d.index := by
  obtain ⟨us, pass, completable⟩ := statement_completes _ hc h hdeep
  have split : c.tokens = (c.before.reverse ++ us) ++ d.upcoming := by
    rw [tokens_eq, pass.upcoming, List.append_assoc]
  obtain ⟨u, settled⟩ := settles_of_structural (htokens.symm.trans split) (by simp [upcoming])
  obtain ⟨u', vs, ⟨x, spelled⟩, settled'⟩ := completable.settles settled
  let e : Token := .endOfInput (Position.start.after u')
  let c' : Cursor := ⟨c.before, us ++ vs, e⟩
  let d' : Cursor := ⟨(us ++ vs).reverse ++ c.before, [], e⟩
  have pass' : c'.Passes (us ++ vs) d' := ⟨(List.append_nil _).symm, rfl, rfl⟩
  have tokens' : c'.tokens = (c.before.reverse ++ us) ++ (vs ++ [e]) := by simp [c', Cursor.tokens]
  refine ⟨u', c', d', x, ?_, rfl, fun i hi => ?_, statement_reads spelled pass', ?_⟩
  · rw [settled'.structural]
    rfl
  · have hi : i < (c.before.reverse ++ us).length := by
      rw [pass.index] at hi
      simpa [Cursor.index] using hi
    rw [tokens', split, List.getElem?_append_left hi, List.getElem?_append_left hi]
  · rw [pass.index, pass'.index, List.length_append]
    exact Nat.add_le_add_left (Nat.le_add_right _ _) _

end Parse

theorem ArisesAt.foundEarly {source : Text} {limit : Int} {claim : String × Span} {g : Diagnostic}
    {c d : Cursor} {fault : SyntaxFault} {ts us : List Token}
    (h : ArisesAt (structural (scan source)) limit claim g c d fault ts us) :
    FoundEarly (structural (scan source)) limit claim g := by
  refine ⟨by rw [h.claimed, h.diagnostic]; rfl, fun shallow => ?_⟩
  have hdeep : ¬ fault.TooDeep := fun deep => shallow (h.diagnostic ▸ deep.findsTooDeep)
  refine ⟨c.index, d.index, c.current, d.current, ?_, h.start_eq, ?_, h.span_eq, ?_, ?_, ?_⟩
  · rw [← h.tokens, getElem?_tokens_index]
  · rw [← h.tokens, ← h.passed.tokens, getElem?_tokens_index]
  · rw [h.passed.index]
    exact Nat.le_add_right _ _
  · exact h.tokens ▸ Parse.beginsStatement_of_error h.endsOnce.ended h.tokens hdeep h.refused
  · exact h.tokens ▸ h.diagnostic ▸ Parse.forcesMistake_of_error h.endsOnce hdeep h.refused

theorem Session.foundEarly_statements {source : Text} {s : Session} (hc : s.cursor.EndsOnce)
    (hdepth : s.nesting.depth = 0) (htokens : s.cursor.tokens = structural (scan source)) :
    ∃ gs, s.statements.2.diagnostics = s.diagnostics ++ gs ∧
      List.Forall₂ (FoundEarly (structural (scan source)) s.nesting.limit) (claims s.statements.1)
        gs := by
  obtain ⟨gs, hgs, arise⟩ := arises_statements hc hdepth
  rw [htokens] at arise
  exact ⟨gs, hgs, arise.imp fun claim g ⟨c, d, fault, ts, us, h⟩ => h.foundEarly⟩

/-- The mistakes in a text, each with its diagnostic, are found at the earliest token: what stands
before it begins a statement, and what stands before it together with it begins none. -/
theorem mistakes_found_early (source : Text) (options : ParserOptions) :
    let parsed := parseDocument source options
    List.Forall₂
      (fun x g => FoundEarly (structural (scan source)) options.maxDepth x.claim g)
      parsed.document.mistakes (parsed.diagnostics.filter (·.kind == .grammatical)) := by
  intro parsed
  have tokens : (startOf source options.maxDepth).cursor.tokens = structural (scan source) := by
    rw [tokens_eq, upcoming_startOf]
    rfl
  obtain ⟨gs, hgs, early⟩ := Session.foundEarly_statements
    (reads_startOf source options.maxDepth).endsOnce rfl tokens
  obtain rfl : grammaticalDiagnostics source options.maxDepth = gs := hgs
  rw [(filter_diagnostics source options).2]
  rw [← claims_parseDocument, List.forall₂_map_left_iff] at early
  exact early

/-- A gac word that is not closed: what is missing is missed where it should stand. -/
theorem unclosed_word_found_early :
    let text := "[a;".toList
    let parsed := parseDocument text ⟨64, true⟩
    ∃ x g, parsed.document.mistakes = [x] ∧
      parsed.diagnostics.filter (·.kind == .grammatical) = [g] ∧ ¬ g.FindsTooDeep ∧
      ∃ s e, s < e ∧ BeginsStatement (structural (scan text)) 64 s e ∧
        ForcesMistake (structural (scan text)) 64 s e g := by
  intro text parsed
  have mistakes : parsed.document.mistakes.map (·.origin.span.start.offset) = [0] := by
    decide +kernel
  have shallow : (parsed.diagnostics.filter (·.kind == .grammatical)).map
      (fun g => (decide g.FindsTooDeep, g.span.start.offset)) = [(false, 2)] := by
    decide +kernel
  have early : List.Forall₂ (fun x g => FoundEarly (structural (scan text)) 64 x.claim g)
      parsed.document.mistakes (parsed.diagnostics.filter (·.kind == .grammatical)) :=
    mistakes_found_early text ⟨64, true⟩
  obtain ⟨x, hx, hstart⟩ := List.map_eq_singleton_iff.1 mistakes
  obtain ⟨g, hg, hfinds⟩ := List.map_eq_singleton_iff.1 shallow
  obtain ⟨hdeep, hplace⟩ := Prod.mk.inj hfinds
  have hdeep : ¬ g.FindsTooDeep := of_decide_eq_false hdeep
  rw [hx, hg] at early
  cases early with
  | cons early _ =>
    obtain ⟨-, early⟩ := early
    obtain ⟨s, e, t, u, ht, hstart', hu, hspan, hle, begins, forces⟩ := early hdeep
    refine ⟨x, g, hx, hg, hdeep, s, e, Nat.lt_of_le_of_ne hle fun heq => ?_, begins, forces⟩
    rw [heq, hu] at ht
    obtain rfl := Option.some.inj ht
    rw [hspan, ← hstart'] at hplace
    exact absurd (hplace.symm.trans hstart) (by decide)

end RelationNotation
