import RelationNotation.Proofs.Diagnostic.Completeness
import RelationNotation.Proofs.Parse.Reading
import RelationNotation.Proofs.Parse.Retracing

/-!
Where the mistakes in a text come from. Each mistake in a document, with its diagnostic, comes from a
parser that stands among the structural tokens of the text and refuses a statement there; what holds
of every refusal holds of every mistake: `mistakes_arise`.
-/

namespace RelationNotation

open Token Cursor

namespace Cursor

theorem tokens_eq (c : Cursor) : c.tokens = c.before.reverse ++ c.upcoming := by
  rw [tokens, upcoming, List.append_assoc]

theorem getElem?_tokens (c : Cursor) (i : Nat) : c.tokens[c.index + i]? = c.upcoming[i]? := by
  rw [tokens_eq, List.getElem?_append_right (by rw [List.length_reverse]; exact Nat.le_add_right _ _),
    List.length_reverse]
  exact congrArg _ (Nat.add_sub_cancel_left c.index i)

theorem getElem?_tokens_index (c : Cursor) : c.tokens[c.index]? = some c.current := by
  obtain ⟨r, hr⟩ := c.upcoming_cons
  have := c.getElem?_tokens 0
  rwa [hr, Nat.add_zero, List.getElem?_cons_zero] at this

end Cursor

/-- Among some tokens, a mistake with its diagnostic comes from a parser at `c`: it refuses a statement
at `d`, behind the tokens `ts`, and skips the tokens `us`. A mistake is given by what is claimed of
it. -/
structure ArisesAt (tokens : List Token) (limit : Int) (claim : String × Span) (g : Diagnostic)
    (c d : Cursor) (fault : SyntaxFault) (ts us : List Token) : Prop where
  endsOnce : c.EndsOnce
  tokens : c.tokens = tokens
  refused : Parse.statement ⟨0, limit⟩ c = .error fault d
  passed : c.Passes ts d
  skipped : us = Cursor.skipped 0 d.ahead
  nonempty : ts ++ us ≠ []
  claimed : claim = (fault.message, (originOver (ts ++ us)).span)
  diagnostic : g = fault.toDiagnostic

def Arises (tokens : List Token) (limit : Int) (claim : String × Span) (g : Diagnostic) : Prop :=
  ∃ c d fault ts us, ArisesAt tokens limit claim g c d fault ts us

namespace ArisesAt
variable {tokens : List Token} {limit : Int} {claim : String × Span} {g : Diagnostic} {c d : Cursor}
  {fault : SyntaxFault} {ts us : List Token}

/-- The diagnostic is about the token at which the statement is refused. -/
theorem span_eq (h : ArisesAt tokens limit claim g c d fault ts us) :
    g.span = d.current.span := by
  rw [h.diagnostic, ← (Parse.moves_statement _).found h.refused]
  rfl

/-- The mistake starts where the parser stands. -/
theorem start_eq (h : ArisesAt tokens limit claim g c d fault ts us) :
    claim.2.start = c.current.span.start := by
  obtain ⟨v, vs, hvs⟩ := List.exists_cons_of_ne_nil h.nonempty
  have pass := h.passed.trans d.skip_passes
  rw [← h.skipped, hvs] at pass
  rw [h.claimed, hvs, pass.current]
  rfl

end ArisesAt

/-- The mistakes of a session at the start of a statement come from refusals among its tokens. -/
theorem Session.arises_statements {s : Session} (hc : s.cursor.EndsOnce)
    (hdepth : s.nesting.depth = 0) :
    ∃ gs, s.statements.2.diagnostics = s.diagnostics ++ gs ∧
      List.Forall₂ (Arises s.cursor.tokens s.nesting.limit) (claims s.statements.1) gs := by
  revert hdepth
  refine steps_induction (fun s ha _ => ?_) (fun s hc ha ih hdepth => ?_) hc
  · rw [statements_of_nil ha]
    exact ⟨[], (List.append_nil _).symm, .nil⟩
  · rw [statements_of_ahead hc ha]
    cases hs : Parse.statement s.nesting s.cursor with
    | ok x d =>
      obtain ⟨ts, pass, spelled⟩ := Parse.statement_spelled s.nesting hc.ended hs
      rw [statement_of_ok hs] at ih ⊢
      rw [claims_of_spelled spelled, ← pass.tokens]
      exact ih hdepth
    | error fault d =>
      obtain ⟨ts, us, pass, hus, hne, pass', step⟩ := statement_of_error ha hs
      rw [step] at ih ⊢
      obtain ⟨gs, hgs, arise⟩ := ih rfl
      have hn : s.nesting = ⟨0, s.nesting.limit⟩ := by rw [← hdepth]
      have here : ArisesAt s.cursor.tokens s.nesting.limit
          (fault.message, (originOver (ts ++ us)).span) fault.toDiagnostic s.cursor d fault ts us :=
        ⟨hc, rfl, hn ▸ hs, pass, hus, hne, rfl, rfl⟩
      refine ⟨fault.toDiagnostic :: gs, ?_, .cons ⟨_, _, _, _, _, here⟩ (pass'.tokens ▸ arise)⟩
      rw [hgs, behindMistake, List.append_assoc]
      rfl

/-- Each mistake in a text, with its diagnostic, comes from a refusal among the structural tokens of
the text. -/
theorem mistakes_arise (source : Text) (options : ParserOptions) :
    List.Forall₂ (fun x g => Arises (structural (scan source)) options.maxDepth x.claim g)
      (parseDocument source options).document.mistakes
      ((parseDocument source options).diagnostics.filter (·.kind == .grammatical)) := by
  obtain ⟨gs, hgs, arise⟩ :=
    Session.arises_statements (reads_startOf source options.maxDepth).endsOnce rfl
  obtain rfl : grammaticalDiagnostics source options.maxDepth = gs := hgs
  rw [tokens_eq, upcoming_startOf] at arise
  rw [(filter_diagnostics source options).2]
  rw [← claims_parseDocument, List.forall₂_map_left_iff] at arise
  exact arise

end RelationNotation
