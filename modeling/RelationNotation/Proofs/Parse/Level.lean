import RelationNotation.Proofs.Parse.Recovery
import RelationNotation.Proofs.Parse.Skipped

/-!
Two sessions side by side to the end of their inputs. While all tokens ahead are alike, the two read
the same statements, positions and skipped text aside, and find the same mistakes with alike tokens:
`Session.Level` holds after each step if it held before, so a whole run keeps it
(`Session.Level.statements`).
-/

namespace RelationNotation

open Token Cursor

variable {T : Token → Token → Prop}

namespace Cursor
variable {c c' : Cursor} {k : Nat}

theorem remaining_advance_le (c : Cursor) : c.advance.remaining ≤ c.remaining := by
  rw [remaining_advance]
  exact Nat.sub_le _ _

/-- Two cursors with alike tokens ahead of them, up to the end of the input. -/
structure Level (T : Token → Token → Prop) (c c' : Cursor) : Prop where
  ahead : List.Forall₂ T c.ahead c'.ahead
  stop : T c.stop c'.stop
  ended : c.Ended

theorem Level.abreast (h : Level T c c') : Abreast T [] [] c.remaining c c' :=
  ⟨c.ahead, c'.ahead, c.stop, c'.stop, rfl, rfl, h.ahead, h.stop, .inr h.ended, rfl⟩

/-- Where nothing stands behind the tokens that are alike, the last one is the end of the input. -/
theorem Abreast.level (h : Abreast T [] [] k c c') (ended : c.Ended) : Level T c c' := by
  obtain ⟨s, s', z, z', hs, hs', alike, hz, -, -⟩ := h
  obtain ⟨ahead, stop⟩ := List.append_inj' hs rfl
  obtain ⟨ahead', stop'⟩ := List.append_inj' hs' rfl
  obtain rfl := List.singleton_injective stop
  obtain rfl := List.singleton_injective stop'
  exact ⟨by rwa [ahead, ahead'], hz, ended⟩

namespace Level

theorem current (h : Level T c c') : T c.current c'.current := h.abreast.current

theorem kind (h : Level T c c') (unseen : Unseen T) : c'.kind = c.kind := unseen.kind h.current

/-- Before any token but the end of the input both cursors can step on, over semicolons too. -/
theorem advance (h : Level T c c') (hk : c.kind ≠ .endOfInput) :
    Level T c.advance c'.advance := by
  obtain ⟨before, ahead, stop⟩ := c
  obtain ⟨before', ahead', stop'⟩ := c'
  obtain ⟨alike, hstop, ended⟩ := h
  cases alike with
  | nil => exact absurd ended hk
  | cons _ alike => exact ⟨alike, hstop, ended⟩

/-- A mistake is skipped by the kinds of its tokens only. -/
theorem skipFrom (unseen : Unseen T) {ts us before before' : List Token} {stop stop' : Token}
    (alike : List.Forall₂ T ts us) (hstop : T stop stop') (ended : stop.kind = .endOfInput)
    (depth : Int) :
    Level T (Cursor.skipFrom depth before stop ts) (Cursor.skipFrom depth before' stop' us) := by
  induction alike generalizing depth before before' with
  | nil => exact ⟨.nil, hstop, ended⟩
  | cons ht alike ih =>
    unfold Cursor.skipFrom
    rw [unseen.kind ht]
    split
    · exact ⟨alike, hstop, ended⟩
    · exact ih _

theorem skip (unseen : Unseen T) (h : Level T c c') : Level T c.skip c'.skip :=
  skipFrom unseen h.ahead h.stop h.ended 0

end Level

end Cursor

/-! ### One statement -/

namespace Parse
variable {c c' : Cursor}

theorem agree_expect_level (unseen : Unseen T) {k₀ : TokenKind} (hne : k₀ ≠ .endOfInput)
    (h : Level T c c') : Agree T [] [] T c.remaining (expect k₀ c) (expect k₀ c') := by
  rw [expect_apply, expect_apply, h.kind unseen]
  split
  next hk =>
    exact ⟨h.current, _, remaining_advance_le c, (h.advance (hk ▸ hne)).abreast⟩
  next => exact agree_refuse _ h.abreast

/-- Over tokens that are alike to the end two runs read the same statement. -/
theorem agree_statement (unseen : Unseen T) (n : Nesting) (h : Level T c c') :
    Agree T [] [] (SameBare Statement.mapOrigins) c.remaining (statement n c) (statement n c') := by
  unfold statement
  rw [bind_current, bind_current, unseen.kind h.current]
  have ht := h.current
  have advanced (hk : c.current.kind ≠ .endOfInput) := (h.advance hk).abreast
  have fewer := remaining_advance_le c
  generalize hk : c.current.kind = k₀ at advanced
  split
  · exact ⟨rfl, _, fewer, advanced (by decide)⟩
  · refine ⟨?_, _, fewer, advanced (by decide)⟩
    exact congrArg (fun text => Statement.dashComment ⟨default, text⟩) (unseen.text ht)
  · refine agree_bind_ok (agree_functionBlock unseen n h.abreast)
      fun {x y j d d'} read same hj habreast => ?_
    -- Both stand where all tokens ahead are alike, so both can step over the semicolon.
    obtain ⟨ts, pass⟩ := (moves_functionBlock n).passes c
    rw [read] at pass
    have level : Level T d d' := habreast.level (pass.ended h.ended)
    have fewer : d.remaining ≤ c.remaining := by
      rw [pass.remaining]
      exact Nat.le_add_left _ _
    refine agree_bind (agree_expect_level unseen (by decide) level) fun _ hj h =>
      agree_node h (fun _ _ => ?_) (Nat.le_trans hj fewer)
    exact congrArg (fun block => Statement.block ⟨default, block⟩) same

/-- What two such runs leave behind is alike to the end again. -/
theorem level_statement (unseen : Unseen T) (n : Nesting) (h : Level T c c') :
    Level T (place (statement n c)) (place (statement n c')) := by
  obtain ⟨ts, pass⟩ := (moves_statement n).passes c
  have ended := pass.ended h.ended
  have agree := agree_statement unseen n h
  cases hs : statement n c <;> cases hs' : statement n c' <;> rw [hs, hs'] at agree <;>
    rw [hs] at ended
  case ok.ok =>
    obtain ⟨-, j, -, habreast⟩ := agree
    exact habreast.level ended
  case error.error =>
    obtain ⟨-, -, j, habreast⟩ := agree
    exact habreast.level ended
  all_goals exact agree.elim

end Parse

/-! ### Whole sessions -/

/-- Two diagnostics that say the same of tokens that are alike. -/
def Diagnostic.SameOf (T : Token → Token → Prop) (x y : Diagnostic) : Prop :=
  ∃ t u, T t u ∧ x.span = t.span ∧ y = { x with span := u.span }

/-- Two faults with one demand, about alike tokens, say the same. -/
theorem SyntaxFault.sameOf (unseen : Unseen T) {f g : SyntaxFault} (demand : g.demand = f.demand)
    (found : T f.found g.found) : Diagnostic.SameOf T f.toDiagnostic g.toDiagnostic := by
  refine ⟨_, _, found, rfl, ?_⟩
  rw [toDiagnostic, toDiagnostic, expected, expected, demand,
    message_congr demand (unseen.kind found) (unseen.text found)]
  rfl

namespace Session
variable {s s' : Session}

/-- Two sessions with alike tokens ahead of them that have found the same mistakes. -/
structure Level (T : Token → Token → Prop) (s s' : Session) : Prop where
  cursor : Cursor.Level T s.cursor s'.cursor
  nesting : s'.nesting = s.nesting
  diagnostics : List.Forall₂ (Diagnostic.SameOf T) s.diagnostics s'.diagnostics

/-- Two statements that are equal without positions, trivia and skipped text. -/
def SameRead (x y : Statement) : Prop :=
  SameBare Statement.mapOrigins x.withoutSkipped y.withoutSkipped

namespace Level

/-- A step of each of two level sessions reads the same statement and leaves them level. -/
theorem statement (unseen : Unseen T) (h : Level T s s') :
    SameRead s.statement.1 s'.statement.1 ∧ Level T s.statement.2 s'.statement.2 := by
  have agree := Parse.agree_statement unseen s.nesting h.cursor
  have level := Parse.level_statement unseen s.nesting h.cursor
  unfold Session.statement
  rw [h.nesting]
  cases hs : Parse.statement s.nesting s.cursor <;>
    cases hs' : Parse.statement s.nesting s'.cursor <;> rw [hs, hs'] at agree level
  case ok.ok x d y d' =>
    refine ⟨?_, level, rfl, h.diagnostics⟩
    obtain ⟨same, -⟩ := agree
    rw [SameRead, SameBare, ← Statement.withoutSkipped_mapOrigins, same,
      Statement.withoutSkipped_mapOrigins]
  case error.error fault d fault' d' =>
    obtain ⟨demand, found, -⟩ := agree
    have message := SyntaxFault.message_congr demand (unseen.kind found) (unseen.text found)
    refine ⟨?_, level.skip unseen, rfl, ?_⟩
    · exact congrArg (fun message => Statement.error ⟨default, message, []⟩) message
    · exact List.rel_append h.diagnostics (.cons (SyntaxFault.sameOf unseen demand found) .nil)
  all_goals exact agree.elim

theorem statementsWithin (unseen : Unseen T) (h : Level T s s') (k : Nat) :
    List.Forall₂ SameRead (s.statementsWithin k).1 (s'.statementsWithin k).1 ∧
      Level T (s.statementsWithin k).2 (s'.statementsWithin k).2 := by
  induction k generalizing s s' with
  | zero => exact ⟨.nil, h⟩
  | succ k ih =>
    rw [Session.statementsWithin, Session.statementsWithin, h.cursor.kind unseen]
    split
    · exact ⟨.nil, h⟩
    · obtain ⟨first, left⟩ := h.statement unseen
      obtain ⟨rest, final⟩ := ih left
      exact ⟨.cons first rest, final⟩

/-- Two level sessions read the same statements and find the same mistakes. -/
theorem statements (unseen : Unseen T) (h : Level T s s') :
    List.Forall₂ SameRead s.statements.1 s'.statements.1 ∧
      Level T s.statements.2 s'.statements.2 := by
  have remaining : s'.cursor.remaining = s.cursor.remaining := h.cursor.ahead.length_eq.symm
  rw [Session.statements, Session.statements, remaining]
  exact h.statementsWithin unseen _

end Level

end Session

end RelationNotation
