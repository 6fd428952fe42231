import RelationNotation.Proofs.Grammar.Soundness
import RelationNotation.Proofs.Parse.Retracing
import RelationNotation.Proofs.Token.Settled

/-!
What a routine has passed where it fails is the beginning of something the grammar spells. Tokens of
ordinary kinds, asked for one after the other, complete it, in the levels of nesting that are left:
`statement_completes`. So does a text: `Completable.settles`.
-/

namespace RelationNotation

open Token

/-- Tokens that make up a whole with tokens of the ordinary kinds asked for put behind them. -/
inductive Completable (whole : List Token → Prop) : List Token → Prop where
  | done {us : List Token} (h : whole us) : Completable whole us
  | more {us : List Token} (k : TokenKind) (ordinary : k ∈ TokenKind.ordinary)
      (further : ∀ t : Token, t.kind = k → Completable whole (us ++ [t])) : Completable whole us

namespace Completable
variable {whole whole' : List Token → Prop} {us : List Token}

/-- A whole is part of a greater whole. -/
theorem within (h : Completable whole us) (hw : ∀ ts, whole ts → Completable whole' ts) :
    Completable whole' us := by
  induction h with
  | done h => exact hw _ h
  | more k ordinary further ih => exact .more k ordinary ih

/-- Tokens in front belong to the whole. -/
theorem behind (ts : List Token) (h : Completable (fun us => whole (ts ++ us)) us) :
    Completable whole (ts ++ us) := by
  induction h with
  | done h => exact .done h
  | more k ordinary further ih =>
    exact .more k ordinary fun t ht => by rw [List.append_assoc]; exact ih t ht

/-- Text for what completes the tokens can be put behind a settled text. -/
theorem settles {u : Text} {ts : List Token} (h : Completable whole us) (hu : Settles u (ts ++ us)) :
    ∃ u' vs, whole (us ++ vs) ∧ Settles u' (ts ++ (us ++ vs)) := by
  induction h generalizing u with
  | @done us h => exact ⟨u, [], by rwa [List.append_nil], by rwa [List.append_nil]⟩
  | @more us k ordinary further ih =>
    obtain ⟨u₁, t, ht, hu₁⟩ := hu.token ordinary
    rw [List.append_assoc] at hu₁
    obtain ⟨u₂, vs, complete, hu₂⟩ := ih t ht hu₁
    refine ⟨u₂, t :: vs, ?_, ?_⟩
    · simpa using complete
    · simpa using hu₂

/-- The whole begins with what is completed. -/
theorem extends_self (h : Completable whole us) :
    Completable (fun ts => whole ts ∧ us <+: ts) us := by
  induction h with
  | done h => exact .done ⟨h, List.prefix_refl _⟩
  | more k ordinary further ih =>
    refine .more k ordinary fun t ht => (ih t ht).within fun ts h => .done ⟨h.1, ?_⟩
    exact (List.prefix_append _ _).trans h.2

end Completable

namespace Parse
open Cursor
variable {α β : Type} {p : Parse α} {f : α → Parse β} {c d : Cursor}
  {whole whole' : List Token → Prop}

/-- Where the routine fails, and not for too deep a nesting, what it has passed can be completed to a
whole. -/
def Completes (p : Parse α) (whole : List Token → Prop) : Prop :=
  ∀ ⦃c d : Cursor⦄ ⦃fault : SyntaxFault⦄, c.Ended → p c = .error fault d → ¬ fault.TooDeep →
    ∃ us, c.Passes us d ∧ Completable whole us

theorem Completes.within (h : Completes p whole) (hw : ∀ ts, whole ts → Completable whole' ts) :
    Completes p whole' := by
  intro c d fault hc hp hdeep
  obtain ⟨us, pass, completable⟩ := h hc hp hdeep
  exact ⟨us, pass, completable.within hw⟩

/-- Behind tokens that are passed, the rest is completed. -/
theorem Completes.behind {e : Cursor} {fault : SyntaxFault} {ts : List Token} (hc : c.Ended)
    (pass : c.Passes ts e) (h : Completes p fun us => whole (ts ++ us))
    (hp : p e = .error fault d) (hdeep : ¬ fault.TooDeep) :
    ∃ us, c.Passes us d ∧ Completable whole us := by
  obtain ⟨us, pass', completable⟩ := h (pass.ended hc) hp hdeep
  exact ⟨ts ++ us, pass.trans pass', completable.behind ts⟩

theorem completes_of_returns (h : ∀ c, ∃ x d, p c = .ok x d) : Completes p whole := by
  intro c d fault _ hp
  obtain ⟨x, e, hx⟩ := h c
  rw [hx] at hp
  cases hp

theorem completes_refuse {demand : Demand} (h : Completable whole []) :
    Completes (refuse demand : Parse α) whole := by
  intro c d fault _ hp _
  rw [refuse_apply] at hp
  injection hp with _ hd
  exact ⟨[], hd ▸ .refl c, h⟩

theorem completes_bind {spelled : α → List Token → Token → Prop} (hp : Spells p spelled)
    (first : Completes p whole)
    (rest : ∀ {x ts next}, spelled x ts next → Completes (f x) fun us => whole (ts ++ us)) :
    Completes (p >>= f) whole := by
  intro c d fault hc h hdeep
  rcases bind_error h with h | ⟨x, e, hx, h⟩
  · exact first hc h hdeep
  · obtain ⟨ts, pass, spelled⟩ := hp hc hx
    exact (rest spelled).behind hc pass h hdeep

theorem completes_of_rest_returns (h : Completes p whole) (hf : ∀ x c, ∃ y d, f x c = .ok y d) :
    Completes (p >>= f) whole := by
  intro c d fault hc hp hdeep
  rcases bind_error hp with hp | ⟨x, e, -, hp⟩
  · exact h hc hp hdeep
  · obtain ⟨y, e', hy⟩ := hf x e
    rw [hy] at hp
    cases hp

theorem completes_map (g : α → β) (h : Completes p whole) :
    Completes (p >>= fun x => pure (g x)) whole :=
  completes_of_rest_returns h fun _ _ => ⟨_, _, rfl⟩

theorem completes_ite {P : Prop} [Decidable P] {q : Parse α} (hp : Completes p whole)
    (hq : Completes q whole) : Completes (if P then p else q) whole := by
  split
  · exact hp
  · exact hq

theorem completes_kind {f : TokenKind → Parse β} (h : ∀ k, Completes (f k) whole) :
    Completes (kind >>= f) whole :=
  fun c _ _ hc hp hdeep => h c.kind hc hp hdeep

/-- A token that is missing can be put there. -/
theorem completes_expect {k : TokenKind} {f : Token → Parse β} (ordinary : k ∈ TokenKind.ordinary)
    (begun : ∀ t : Token, t.kind = k → Completable whole [t])
    (rest : ∀ t : Token, t.kind = k → Completes (f t) fun us => whole (t :: us)) :
    Completes (expect k >>= f) whole := by
  intro c d fault hc h hdeep
  rcases bind_error h with h | ⟨t, e, ht, h⟩
  · rw [expect_apply] at h
    split at h
    · cases h
    · injection h with _ hd
      exact ⟨[], hd ▸ .refl c, .more k ordinary begun⟩
  · have hend : k ≠ .endOfInput := by
      rintro rfl
      exact absurd ordinary (by decide)
    obtain ⟨pass, hk⟩ := expect_ok hend hc ht
    exact (rest t hk).behind hc pass h hdeep

/-! ### Strings and references -/

theorem string_completes :
    Completes string fun ts => ∃ (t : Token) (x : StringValue), ts = [t] ∧ x.SpelledBy t := by
  intro c d fault hc h hdeep
  simp only [string, bind_current] at h
  generalize c.current.kind = k at h
  split at h
  next => cases h
  next => cases h
  next =>
    refine completes_refuse ?_ hc h hdeep
    exact .more .identifier (by decide) fun t ht => .done ⟨t, _, rfl, .identifier ht⟩

theorem string_spells : Spells string fun x ts _ => ∃ t, ts = [t] ∧ x.SpelledBy t := by
  intro c d x hc h
  obtain ⟨t, pass, spelled⟩ := string_spelled hc h
  exact ⟨[t], pass, t, rfl, spelled⟩

/-- A string between an opener and a closer. -/
theorem enclosed_completes {o₀ e₀ : TokenKind} {g : Token → StringValue → Token → Parse α}
    (opener : o₀ ∈ TokenKind.ordinary) (closer : e₀ ∈ TokenKind.ordinary)
    (hg : ∀ o x e c, ∃ y d, g o x e c = .ok y d)
    (hwhole : ∀ {o s e : Token} {x : StringValue}, o.kind = o₀ → x.SpelledBy s → e.kind = e₀ →
      whole [o, s, e]) :
    Completes (expect o₀ >>= fun o => string >>= fun x => expect e₀ >>= g o x) whole := by
  have closed {o s : Token} {x : StringValue} (ho : o.kind = o₀) (hx : x.SpelledBy s) :
      Completable (fun us => whole (o :: us)) [s] :=
    .more e₀ closer fun e he => .done (hwhole ho hx he)
  refine completes_expect opener (fun o ho => ?_) fun o ho => ?_
  · exact .more .identifier (by decide) fun s hs => (closed ho (.identifier hs)).behind [o]
  · refine completes_bind string_spells (string_completes.within ?_) ?_
    · rintro ts ⟨s, x, rfl, hx⟩
      exact closed ho hx
    · rintro x ts next ⟨s, rfl, hx⟩
      exact completes_expect closer (fun e he => .done (hwhole ho hx he)) fun e he =>
        completes_of_returns (hg o x e)

theorem typeDesc_completes : Completes typeDesc fun ts => ∃ x : TypeDesc, x.SpelledBy ts :=
  enclosed_completes (by decide) (by decide) (fun _ _ _ _ => ⟨_, _, rfl⟩)
    fun ho hx he => ⟨_, .intro ho hx he⟩

theorem fycoide_completes : Completes fycoide fun ts => ∃ x : Fycoide, x.SpelledBy ts :=
  enclosed_completes (by decide) (by decide) (fun _ _ _ _ => ⟨_, _, rfl⟩)
    fun ho hx he => ⟨_, .intro ho hx he⟩

/-- A pointer expression can be put where a pointer's target is missing. -/
theorem pointerExpression_finishes {whole : List Token → Prop} {us : List Token}
    (h : ∀ {x : PointerExpression} {ts : List Token}, x.SpelledBy ts → Completable whole (us ++ ts)) :
    Completable whole us := by
  refine .more .leftBracket (by decide) fun o ho => .more .equals (by decide) fun t ht =>
    .more .rightBracket (by decide) fun e he => ?_
  have among : ∀ u ∈ [t], u.kind ∈ TokenKind.pointerTerms :=
    List.forall_mem_singleton.2 (by rw [ht]; decide)
  simpa using h (.intro ho among he)

theorem pointerExpression_completes :
    Completes pointerExpression fun ts => ∃ x : PointerExpression, x.SpelledBy ts := by
  have among {t : Token} (ht : t.kind = .equals) : ∀ u ∈ [t], u.kind ∈ TokenKind.pointerTerms :=
    List.forall_mem_singleton.2 (by rw [ht]; decide)
  have opened {o : Token} (ho : o.kind = .leftBracket) :
      Completable (fun us => ∃ x : PointerExpression, x.SpelledBy (o :: us)) [] :=
    .more .equals (by decide) fun t ht => .more .rightBracket (by decide) fun e he =>
      .done ⟨_, .intro ho (among ht) he⟩
  have terms : Spells (takeKinds TokenKind.pointerTerms) fun ts us _ =>
      us = ts ∧ ∀ t ∈ ts, t.kind ∈ TokenKind.pointerTerms := by
    intro c d ts _ h
    obtain ⟨pass, among⟩ := takeKinds_passes h
    exact ⟨ts, pass, rfl, among⟩
  refine completes_expect (by decide) (fun o ho => (opened ho).behind [o]) fun o ho => ?_
  refine completes_bind terms (completes_of_returns fun c => ⟨_, _, rfl⟩) ?_
  rintro ts us next ⟨rfl, among⟩
  cases us with
  | nil => exact completes_refuse (opened ho)
  | cons t ts =>
    refine completes_expect (by decide) (fun e he => .done ⟨_, .intro ho among he⟩) fun e he => ?_
    exact completes_of_returns fun _ => ⟨_, _, rfl⟩

theorem pointerId_completes : Completes pointerId fun ts => ∃ x : PointerId, x.SpelledBy ts := by
  refine completes_kind fun k => completes_ite (completes_of_returns fun _ => ⟨_, _, rfl⟩)
    (completes_ite (completes_map _ (pointerExpression_completes.within ?_)) (completes_refuse ?_))
  · rintro ts ⟨x, hx⟩
    exact .done ⟨_, .expression hx⟩
  · exact pointerExpression_finishes fun hx => .done ⟨_, .expression hx⟩

/-- A target can be put behind a lone sign. -/
theorem sign_completes {g : Token → PointerId → Cursor → EStateM.Result SyntaxFault Cursor α}
    (hg : ∀ a x c, ∃ y d, g a x c = .ok y d)
    (hwhole : ∀ {a : Token} {x : PointerId} {ts : List Token}, a.kind = .atSign → x.SpelledBy ts →
      whole (a :: ts)) :
    Completes (expect .atSign >>= fun a => pointerId >>= g a) whole := by
  refine completes_expect (by decide) (fun a ha => ?_) fun a ha => ?_
  · exact pointerExpression_finishes fun hx => .done (hwhole ha (.expression hx))
  · refine completes_bind pointerId_spelled (pointerId_completes.within ?_) fun _ =>
      completes_of_returns (hg a _)
    rintro ts ⟨x, hx⟩
    exact .done (hwhole ha hx)

theorem pointer_completes : Completes pointer fun ts => ∃ x : Pointer, x.SpelledBy ts :=
  sign_completes (fun _ _ _ => ⟨_, _, rfl⟩) fun ha hx => ⟨_, .intro ha hx⟩

theorem pointerRef_completes : Completes pointerRef fun ts => ∃ x : PointerRef, x.SpelledBy ts :=
  sign_completes (fun _ _ _ => ⟨_, _, rfl⟩) fun ha hx => ⟨_, .intro ha hx⟩

/-! ### Gac strings -/

/-- A closing bracket is attached to nothing before it, so a stem may be the last one. -/
theorem stem_closes {bracketed : GacString → List Token → Token → Prop} {x : GacStem}
    {ts : List Token} {next c : Token} (h : x.SpelledWith bracketed next ts)
    (hc : c.kind = .rightBracket) : x.SpelledWith bracketed c ts := by
  cases h with
  | fycoide spelled => exact .fycoide spelled
  | pointerRef spelled => exact .pointerRef spelled
  | identifier kind longest =>
    refine .identifier kind fun h => ?_
    rw [MarksFront, hc] at h
    exact absurd h.1 (by decide)
  | front kind mark touches => exact .front kind mark touches
  | ending mark kind touches => exact .ending mark kind touches
  | sign mark longest =>
    refine .sign mark fun h => ?_
    rw [NamesEnding, hc] at h
    exact absurd h.1 (by decide)
  | synonym mark kind => exact .synonym mark kind
  | nested opener content closer => exact .nested opener content closer
  | operator kind => exact .operator kind

theorem row_closes {bracketed : GacString → List Token → Token → Prop} {xs : List GacStem}
    {ts : List Token} {next c : Token} (h : GacStem.RowSpelledWith bracketed next xs ts)
    (hc : c.kind = .rightBracket) : GacStem.RowSpelledWith bracketed c xs ts := by
  induction h with
  | last stem => exact .last (stem_closes stem hc)
  | cons stem stems ih => exact .cons stem ih

theorem gacString_closes {bracketed : GacString → List Token → Token → Prop} {x : GacString}
    {ts : List Token} {next c : Token} (h : x.SpelledWith bracketed ts next)
    (hc : c.kind = .rightBracket) : x.SpelledWith bracketed ts c := by
  cases h with
  | intro stems => exact .intro (row_closes stems hc)

theorem spelledIn_closes {l : Nat} {x : GacString} {ts : List Token} {next c : Token}
    (h : x.SpelledIn l ts next) (hc : c.kind = .rightBracket) : x.SpelledIn l ts c := by
  cases l with
  | zero => exact h.elim
  | succ l => exact gacString_closes h hc

/-- What a gac string is when complete: one that may stand before a closing bracket. -/
def ClosesBracket (bracketed : GacString → List Token → Token → Prop) (ts : List Token) : Prop :=
  ∃ x, ∀ c : Token, c.kind = .rightBracket → bracketed x ts c

/-- An operator can be put where a gac string is missing. -/
theorem gacString_finishes (bracketed : GacString → List Token → Token → Prop) :
    Completable (ClosesBracket (GacString.SpelledWith bracketed)) [] :=
  .more .equals (by decide) fun t ht => .done ⟨⟨originOver [t], .operator t.toOperator, []⟩,
    fun _ _ => .intro (.last (.operator (by rw [ht]; decide)))⟩

theorem nested_completes {inner : Nesting → Parse α} {n : Nesting}
    (spelled : Nat → List Token → Prop)
    (h : Completes (inner n.deeper) (spelled (n.deeper.levels + 1))) :
    Completes (nested n inner) (spelled n.levels) := by
  intro c d fault hc hp hdeep
  unfold nested at hp
  split at hp
  next =>
    rw [refuse_apply] at hp
    injection hp with hfault
    exact absurd ⟨n.limit, by rw [← hfault]⟩ hdeep
  next hlt =>
    have levels : n.levels = n.deeper.levels + 1 := by
      simp only [Nesting.levels, Nesting.deeper]
      omega
    rw [levels]
    exact h hc hp hdeep

section
variable {bracketed : GacString → List Token → Token → Prop} {inner : Nesting → Parse GacString}
  {n : Nesting} (spells : Spells (nested n inner) bracketed)
  (completes : Completes (nested n inner) (ClosesBracket bracketed))
  (closes : ∀ {x ts next c}, bracketed x ts next → c.kind = .rightBracket → bracketed x ts c)
include spells completes closes

theorem gacStemWith_completes :
    Completes (gacStemWith inner n) fun ts =>
      ∃ x : GacStem, ∀ next, x.SpelledWith bracketed next ts := by
  intro c d fault hc h hdeep
  rw [gacStemWith_eq, gacStemStepwise, bind_current] at h
  have step (hk : c.current.kind ≠ .endOfInput) : c.Passes [c.current] c.advance :=
    hc.passes_current hk
  generalize hk : c.current.kind = k at h step
  split at h
  next =>
    refine completes_map _ (fycoide_completes.within ?_) hc h hdeep
    rintro ts ⟨x, hx⟩
    exact .done ⟨_, fun _ => .fycoide hx⟩
  next =>
    refine completes_map _ (pointerRef_completes.within ?_) hc h hdeep
    rintro ts ⟨x, hx⟩
    exact .done ⟨_, fun _ => .pointerRef hx⟩
  next =>
    simp only [bind_advance, bind_current] at h
    generalize PrefixMarker.ofKind? c.advance.current.kind = m,
      c.current.touches c.advance.current = b at h
    split at h <;> cases h
  next =>
    rw [bind_advance] at h
    refine Completes.behind hc (step (by decide)) ?_ h hdeep
    refine completes_expect (by decide) (fun t ht => .done ⟨_, fun _ => .synonym hk ht⟩) fun t ht => ?_
    exact completes_of_returns fun _ => ⟨_, _, rfl⟩
  next =>
    have closed {ts : List Token} {x : GacString}
        (hx : ∀ e : Token, e.kind = .rightBracket → bracketed x ts e) :
        Completable (fun us =>
          ∃ x : GacStem, ∀ next, x.SpelledWith bracketed next (c.current :: us)) ts :=
      .more .rightBracket (by decide) fun e he => .done ⟨_, fun _ => .nested hk (hx e he) he⟩
    rw [bind_advance] at h
    refine Completes.behind hc (step (by decide)) ?_ h hdeep
    refine completes_bind spells (completes.within ?_) ?_
    · rintro ts ⟨x, hx⟩
      exact closed hx
    intro x ts next hx
    refine completes_expect (by decide) (fun e he => .done ⟨_, fun _ => .nested hk (closes hx he) he⟩)
      fun e he => ?_
    exact completes_of_returns fun _ => ⟨_, _, rfl⟩
  next =>
    generalize SuffixMarker.ofKind? k = m at h
    split at h
    next =>
      simp only [bind_advance, bind_current] at h
      split at h <;> cases h
    next =>
      split at h
      next => cases h
      next =>
        refine completes_refuse ?_ hc h hdeep
        exact .more .equals (by decide) fun t ht => .done ⟨_, fun _ => .operator (by rw [ht]; decide)⟩

omit spells completes closes in
/-- A stem that has begun and fails has passed a token. -/
theorem gacStemWith_fails_behind (moves : ∀ m, Moves (inner m)) {fault : SyntaxFault}
    {us : List Token} (hc : c.Ended) (hk : c.kind ∈ TokenKind.gacStemStarts)
    (h : gacStemWith inner n c = .error fault d) (pass : c.Passes us d) : us ≠ [] := by
  have hend : c.kind ≠ .endOfInput := fun he => by
    rw [he] at hk
    exact absurd hk (by decide)
  have begun {α : Type} {p : Parse α} (hp : Moves p) (h : p c.advance = .error fault d) :
      us ≠ [] := by
    obtain ⟨vs, pass'⟩ := hp.passes c.advance
    rw [h] at pass'
    rw [pass.unique ((hc.passes_current hend).trans pass')]
    exact List.cons_ne_nil _ _
  have opened {k : TokenKind} (hk : c.current.kind = k) : expect k c = .ok c.current c.advance := by
    rw [expect_apply, if_pos (show c.kind = k from hk)]
  rw [gacStemWith_eq, gacStemStepwise, bind_current] at h
  change c.current.kind ∈ TokenKind.gacStemStarts at hk
  generalize hk' : c.current.kind = k at h hk
  split at h
  next =>
    obtain h | ⟨x, e, -, h⟩ := bind_error h
    · rw [fycoide, bind_of_ok (opened hk')] at h
      exact begun (moves_bind moves_string fun _ => moves_bind (moves_expect _) fun _ =>
        moves_bind (moves_originFrom _) fun _ => moves_pure _) h
    · cases h
  next =>
    obtain h | ⟨x, e, -, h⟩ := bind_error h
    · rw [pointerRef, bind_of_ok (opened hk')] at h
      exact begun (moves_bind moves_pointerId fun _ =>
        moves_bind (moves_originFrom _) fun _ => moves_pure _) h
    · cases h
  next =>
    simp only [bind_advance, bind_current] at h
    generalize PrefixMarker.ofKind? c.advance.current.kind = m,
      c.current.touches c.advance.current = b at h
    split at h <;> cases h
  next =>
    rw [bind_advance] at h
    exact begun (moves_bind (moves_expect _) fun _ =>
      moves_bind (moves_originFrom _) fun _ => moves_pure _) h
  next =>
    rw [bind_advance] at h
    exact begun (moves_bind (moves_nested n moves) fun _ => moves_bind (moves_expect _) fun _ =>
      moves_bind (moves_originFrom _) fun _ => moves_pure _) h
  next =>
    generalize hm : SuffixMarker.ofKind? k = m at h
    split at h
    next =>
      simp only [bind_advance, bind_current] at h
      split at h <;> cases h
    next =>
      split at h
      next => cases h
      next hbare =>
        simp only [TokenKind.gacStemStarts, List.mem_append, hbare, or_false] at hk
        simp only [List.mem_cons, List.not_mem_nil, or_false] at hk
        rcases hk with rfl | rfl | rfl | rfl | rfl | rfl | rfl <;> contradiction

theorem manyWithin_completes (moves : ∀ m, Moves (inner m)) (k : Nat) {fault : SyntaxFault}
    (hc : c.Ended)
    (h : manyWithin TokenKind.gacStemStarts (gacStemWith inner n) k c = .error fault d)
    (hdeep : ¬ fault.TooDeep) :
    ∃ us, us ≠ [] ∧ c.Passes us d ∧ Completable (fun ts => ∃ x xs, ∀ e : Token,
      e.kind = .rightBracket → GacStem.RowSpelledWith bracketed e (x :: xs) ts) us := by
  induction k generalizing c with
  | zero => cases h
  | succ k ih =>
    simp only [manyWithin, bind_kind] at h
    split at h
    next hk =>
      rcases bind_error h with h | ⟨x, e, hx, h⟩
      · obtain ⟨us, pass, completable⟩ := gacStemWith_completes spells completes closes hc h hdeep
        refine ⟨us, gacStemWith_fails_behind moves hc hk h pass, pass, completable.within ?_⟩
        rintro ts ⟨x, hx⟩
        exact .done ⟨x, [], fun e _ => .last (hx e)⟩
      · rcases bind_error h with h | ⟨xs, e', -, h⟩
        · obtain ⟨ts, pass₁, stem⟩ := gacStemWith_spelled spells hc hx
          obtain ⟨us, hne, pass₂, completable⟩ := ih (pass₁.ended hc) h
          obtain ⟨u, us, rfl⟩ := List.exists_cons_of_ne_nil hne
          refine ⟨ts ++ u :: us, by simp, pass₁.trans pass₂, Completable.behind _ ?_⟩
          -- The stems to come begin with the token that stands behind this one already.
          refine completable.extends_self.within ?_
          rintro _ ⟨⟨y, ys, row⟩, vs, rfl⟩
          rw [pass₂.current] at stem
          exact .done ⟨x, y :: ys, fun e he => .cons stem (row e he)⟩
        · cases h
    next => cases h

end

theorem gacStringWithin_completes (k : Nat) (n : Nesting) :
    Completes (gacStringWithin k n)
      (ClosesBracket (GacString.SpelledWith (GacString.SpelledIn n.levels))) := by
  induction k generalizing n with
  | zero => exact completes_refuse (gacString_finishes _)
  | succ k ih =>
    intro c d fault hc h hdeep
    simp only [gacStringWithin, bind_current] at h
    have spells : Spells (nested n (gacStringWithin k)) (GacString.SpelledIn n.levels) :=
      nested_spells (gacStringWithin_spelled k n.deeper)
    have completes : Completes (nested n (gacStringWithin k))
        (ClosesBracket (GacString.SpelledIn n.levels)) :=
      nested_completes (fun l => ClosesBracket (GacString.SpelledIn l)) (ih n.deeper)
    rcases bind_error h with h | ⟨xs, e, hx, h⟩
    · obtain ⟨us, -, pass, completable⟩ :=
        manyWithin_completes spells completes spelledIn_closes (moves_gacStringWithin k) _ hc h hdeep
      refine ⟨us, pass, completable.within ?_⟩
      rintro ts ⟨x, xs, row⟩
      exact .done ⟨_, fun e he => .intro (row e he)⟩
    · obtain ⟨ts, pass, stems⟩ := manyWithin_spelled (gacStemWith_spelled spells) hc hx
      cases xs with
      | nil =>
        obtain rfl : ts = [] := by
          rcases stems with ⟨-, hts⟩ | row
          · exact hts
          · cases row
        exact (completes_refuse (gacString_finishes _)).behind hc pass h hdeep
      | cons x xs => cases h

theorem nested_gacString_completes (n : Nesting) :
    Completes (nested n gacString) (ClosesBracket (GacString.SpelledIn n.levels)) :=
  nested_completes (fun l => ClosesBracket (GacString.SpelledIn l))
    fun _ _ _ hc h hdeep => gacStringWithin_completes _ n.deeper hc h hdeep

/-! ### Expressions -/

theorem typeWordRest_completes {n : Nesting} {proto : Bool} {o : Token}
    (opener : o.kind = if proto then .protoOpen else .leftBracket) :
    Completes (typeWordRest n o proto) fun ts =>
      ∃ x : Expression, x.SpelledBy n.levels (o :: ts) := by
  have whole {x : GacString} {p : Option Pointer} {ts us : List Token} {e : Token}
      (hx : x.SpelledIn n.levels ts e) (he : e.kind = .rightBracket)
      (target : Pointer.OptionSpelledBy p us) :
      ∃ x : Expression, x.SpelledBy n.levels (o :: (ts ++ e :: us)) := by
    cases proto
    · exact ⟨_, .stdGacWord opener hx he target⟩
    · exact ⟨_, .protoGacWord opener hx he target⟩
  refine completes_bind (nested_gacString_spelled n) ((nested_gacString_completes n).within ?_) ?_
  · rintro ts ⟨x, hx⟩
    exact .more .rightBracket (by decide) fun e he => .done (whole (hx e he) he .none)
  · intro x ts next hx
    have closed (e : Token) (he : e.kind = .rightBracket) := spelledIn_closes hx he
    refine completes_expect (by decide) (fun e he => .done (whole (closed e he) he .none))
      fun e he => completes_kind fun k => completes_ite ?_ (completes_of_returns fun _ => ⟨_, _, rfl⟩)
    rw [map_eq_bind]
    refine completes_of_rest_returns (completes_map _ (pointer_completes.within ?_))
      fun _ _ => ⟨_, _, rfl⟩
    rintro us ⟨y, hy⟩
    exact .done (whole (closed e he) he (.some hy))

theorem typeWord_completes {n : Nesting} {fault : SyntaxFault} (hc : c.Ended)
    (hk : c.kind = .leftBracket ∨ c.kind = .protoOpen) (h : typeWord n c = .error fault d)
    (hdeep : ¬ fault.TooDeep) :
    ∃ us, c.Passes us d ∧ Completable (fun ts => ∃ x : Expression, x.SpelledBy n.levels ts) us := by
  have pass := hc.passes_current
    (show c.kind ≠ .endOfInput by rcases hk with hk | hk <;> rw [hk] <;> decide)
  rw [typeWord_apply] at h
  split at h
  next hproto => exact (@typeWordRest_completes n true _ hproto).behind hc pass h hdeep
  next hproto =>
    have hopen : c.kind = .leftBracket := hk.resolve_right hproto
    have opened : expect .leftBracket c = .ok c.current c.advance := by
      rw [expect_apply, if_pos hopen]
    rw [bind_of_ok opened] at h
    exact (@typeWordRest_completes n false _ hopen).behind hc pass h hdeep

theorem expression_finishes {l : Nat} :
    Completable (fun ts => ∃ x : Expression, x.SpelledBy l ts) [] :=
  .more .atSign (by decide) fun a ha => pointerExpression_finishes fun hx =>
    .done ⟨_, .pointerRef (.intro ha (.expression hx))⟩

theorem expression_completes (n : Nesting) :
    Completes (expression n) fun ts => ∃ x : Expression, x.SpelledBy n.levels ts := by
  intro c d fault hc h hdeep
  rw [expression, bind_kind] at h
  generalize hk : c.kind = k at h
  split at h
  · refine completes_map _ (typeDesc_completes.within ?_) hc h hdeep
    rintro ts ⟨x, hx⟩
    exact .done ⟨_, .typeDesc hx⟩
  · exact typeWord_completes hc (.inl hk) h hdeep
  · exact typeWord_completes hc (.inr hk) h hdeep
  · refine completes_map _ (fycoide_completes.within ?_) hc h hdeep
    rintro ts ⟨x, hx⟩
    exact .done ⟨_, .fycoide hx⟩
  · refine completes_map _ (pointerRef_completes.within ?_) hc h hdeep
    rintro ts ⟨x, hx⟩
    exact .done ⟨_, .pointerRef hx⟩
  · exact completes_refuse expression_finishes hc h hdeep

/-! ### Includes, relations and blocks -/

theorem includeFile_completes :
    Completes includeFile fun ts => ∃ (t : Token) (x : IncludeFile), ts = [t] ∧ x.SpelledBy t := by
  intro c d fault hc h hdeep
  simp only [includeFile, bind_current] at h
  generalize c.current.kind = k at h
  split at h
  iterate 3 next => cases h
  next =>
    refine completes_refuse ?_ hc h hdeep
    exact .more .identifier (by decide) fun t ht => .done ⟨t, _, rfl, .identifier ht⟩

theorem includeBlock_completes : Completes includeBlock fun ts => ∃ x : Include, x.SpelledBy ts := by
  have closed {o f : Token} {x : IncludeFile} (ho : o.kind = .includeOpen) (hx : x.SpelledBy f) :
      Completable (fun us => ∃ x : Include, x.SpelledBy (o :: us)) [f] :=
    .more .rightBracket (by decide) fun e he => .done ⟨_, .intro ho hx he⟩
  have file : Spells includeFile fun x ts _ => ∃ t, ts = [t] ∧ x.SpelledBy t := by
    intro c d x hc h
    obtain ⟨t, pass, spelled⟩ := includeFile_spelled hc h
    exact ⟨[t], pass, t, rfl, spelled⟩
  refine completes_expect (by decide) (fun o ho => ?_) fun o ho => ?_
  · exact .more .identifier (by decide) fun f hf => (closed ho (.identifier hf)).behind [o]
  · refine completes_bind file (includeFile_completes.within ?_) ?_
    · rintro ts ⟨f, x, rfl, hx⟩
      exact closed ho hx
    · rintro x ts next ⟨f, rfl, hx⟩
      refine completes_expect (by decide) (fun e he => .done ⟨_, .intro ho hx he⟩) fun e he => ?_
      exact completes_of_returns fun _ => ⟨_, _, rfl⟩

/-- An operator and a right side can be put behind a lone left side. -/
theorem relation_finishes {braced : RightSide → List Token → Prop} {l : Nat} {left : Expression}
    {ts : List Token} (hleft : left.SpelledBy l ts) :
    Completable (fun us => ∃ x : Relation, x.SpelledWith braced l (ts ++ us)) [] := by
  refine .more .shape (by decide) fun o ho => Completable.behind [o] ?_
  have operator : RelationKind.ofToken? o.kind = some .shape := by rw [ho]; rfl
  exact expression_finishes.within fun us ⟨y, hy⟩ => .done ⟨_, .pure hleft operator hy⟩

section
variable {braced : RightSide → List Token → Prop} {body : Nesting → Parse BlockBody} {n : Nesting}
  (spells : Spells (nested n (bracedWith body)) fun x ts _ => braced x ts)
  (completes : Completes (nested n (bracedWith body)) fun ts => ∃ x, braced x ts)
include spells completes

theorem relationWith_completes {left : Expression} {ts : List Token}
    (hleft : left.SpelledBy n.levels ts) :
    Completes (relationWith body n left) fun us =>
      ∃ x : Relation, x.SpelledWith braced n.levels (ts ++ us) := by
  intro c d fault hc h hdeep
  rw [relationWith, bind_kind] at h
  generalize operator : RelationKind.ofToken? c.kind = r at h
  split at h
  next => exact completes_refuse (relation_finishes hleft) hc h hdeep
  next kind =>
    have pass := hc.passes_current fun he => by rw [he] at operator; cases operator
    rw [bind_advance] at h
    rw [bind_kind] at h
    split at h
    next opener =>
      have pass := pass.trans ((pass.ended hc).passes_current (by rw [opener]; decide))
      rw [bind_advance] at h
      refine Completes.behind hc pass
        (completes_bind spells (completes.within ?_) fun hy => ?_) h hdeep
      · rintro us ⟨y, hy⟩
        exact .more .rightBrace (by decide) fun e he => .done ⟨_, .block hleft operator opener hy he⟩
      · refine completes_expect (by decide)
          (fun e he => .done ⟨_, .block hleft operator opener hy he⟩) fun e he => ?_
        exact completes_of_returns fun _ => ⟨_, _, rfl⟩
    next =>
      refine Completes.behind hc pass (completes_map _ ((expression_completes n).within ?_)) h hdeep
      rintro us ⟨y, hy⟩
      exact .done ⟨_, .pure hleft operator hy⟩

theorem elementWith_completes :
    Completes (elementWith body n) fun ts => ∃ x : Element, x.SpelledWith braced n.levels ts := by
  refine completes_kind fun k => completes_ite (completes_map _ (includeBlock_completes.within ?_)) ?_
  · rintro ts ⟨x, hx⟩
    exact .done ⟨_, .inclusion hx⟩
  · refine completes_bind (expression_spelled n) ((expression_completes n).within ?_) fun hx => ?_
    · rintro ts ⟨x, hx⟩
      exact .done ⟨_, .expression hx⟩
    · refine completes_kind fun k => completes_ite (completes_map _ ?_)
        (completes_of_returns fun _ => ⟨_, _, rfl⟩)
      refine (relationWith_completes spells completes hx).within ?_
      rintro us ⟨x, hx⟩
      exact .done ⟨_, .relation hx⟩

theorem furtherElements_completes {k : Nat} {x : Element} {ts : List Token}
    (hx : x.SpelledWith braced n.levels ts) :
    Completes (furtherElements (elementWith body n) k) fun us =>
      ∃ xs trailingComma,
        Element.RowSpelledWith braced n.levels (x :: xs) trailingComma (ts ++ us) := by
  induction k generalizing x ts with
  | zero => exact completes_of_returns fun _ => ⟨_, _, rfl⟩
  | succ k ih =>
    intro c d fault hc h hdeep
    obtain h | ⟨comma, e, h₁, h⟩ := bind_error h
    · rw [accept_apply] at h
      split at h <;> cases h
    rw [accept_apply] at h₁
    split at h₁
    next hk =>
      cases h₁
      have hk : c.kind = .comma := List.mem_singleton.1 hk
      have pass := hc.passes_current (by rw [hk]; decide)
      refine Completes.behind hc pass (completes_kind fun _ => ?_) h hdeep
      refine completes_ite (completes_of_returns fun _ => ⟨_, _, rfl⟩) ?_
      refine completes_bind (elementWith_spelled spells)
        ((elementWith_completes spells completes).within ?_) fun hy => ?_
      · rintro us ⟨y, hy⟩
        exact .done ⟨_, _, .cons hx hk (.last hy)⟩
      · refine completes_of_rest_returns ((ih hy).within ?_) fun _ _ => ⟨_, _, rfl⟩
        rintro vs ⟨ys, trailingComma, row⟩
        exact .done ⟨_, _, .cons hx hk row⟩
    next =>
      cases h₁
      cases h

end

theorem nested_bracedWith_completes {body : Nesting → Parse BlockBody} {n : Nesting}
    (h : Completes (body n.deeper) fun ts => ∃ x : BlockBody,
      x.SpelledWith (RightSide.SpelledIn n.deeper.levels) n.deeper.levels ts) :
    Completes (nested n (bracedWith body)) fun ts => ∃ x, RightSide.SpelledIn n.levels x ts := by
  refine nested_completes (fun l ts => ∃ x, RightSide.SpelledIn l x ts) ?_
  refine completes_kind fun k => completes_ite (completes_of_returns fun _ => ⟨_, _, rfl⟩)
    (completes_map _ (h.within ?_))
  rintro ts ⟨x, hx⟩
  exact .done ⟨_, .body hx⟩

theorem blockBodyWithin_completes (k : Nat) (n : Nesting) :
    Completes (blockBodyWithin k n) fun ts => ∃ x : BlockBody,
      x.SpelledWith (RightSide.SpelledIn n.levels) n.levels ts := by
  induction k generalizing n with
  | zero =>
    refine completes_refuse ((expression_finishes (l := n.levels)).within ?_)
    rintro ts ⟨x, hx⟩
    exact .done ⟨_, .intro (.last (.expression hx))⟩
  | succ k ih =>
    intro c d fault hc h hdeep
    have spells := nested_bracedWith_spelled (blockBodyWithin_spelled k n.deeper)
    have completes := nested_bracedWith_completes (ih n.deeper)
    simp only [blockBodyWithin, bind_current] at h
    obtain h | ⟨first, e, h₁, h⟩ := bind_error h
    · refine (elementWith_completes spells completes).within ?_ hc h hdeep
      rintro ts ⟨x, hx⟩
      exact .done ⟨_, .intro (.last hx)⟩
    obtain ⟨ts, pass, spelled⟩ := elementWith_spelled spells hc h₁
    rw [bind_get] at h
    obtain h | ⟨⟨rest, trailingComma⟩, e, h₂, h⟩ := bind_error h
    · refine ((furtherElements_completes spells completes spelled).within ?_).behind hc pass h hdeep
      rintro us ⟨xs, trailingComma, row⟩
      exact .done ⟨_, .intro row⟩
    -- The elements are a body already; what stands behind them is not a part of it.
    · obtain ⟨us, pass, row⟩ := furtherElements_spelled pass (pass.ended hc) spelled
        (elementWith_spelled spells) h₂
      rw [bind_kind] at h
      split at h
      next => cases h
      next =>
        rw [refuse_apply] at h
        injection h with _ hd
        exact ⟨us, hd ▸ pass, .done ⟨_, .intro row⟩⟩

theorem functionBlock_completes (n : Nesting) :
    Completes (functionBlock n) fun ts => ∃ x : FunctionBlock, x.SpelledBy n.levels ts := by
  have blockBody_completes : Completes (blockBody n.deeper) fun ts => ∃ x : BlockBody,
      x.SpelledWith (RightSide.SpelledIn n.deeper.levels) n.deeper.levels ts :=
    fun _ _ _ hc h hdeep => blockBodyWithin_completes _ n.deeper hc h hdeep
  refine completes_kind fun k => completes_ite (completes_map _ (includeBlock_completes.within ?_)) ?_
  · rintro ts ⟨x, hx⟩
    exact .done ⟨_, .inclusion hx⟩
  · refine completes_bind (expression_spelled n) ((expression_completes n).within ?_) fun hx => ?_
    · rintro ts ⟨left, hleft⟩
      have relation := @relation_finishes (RightSide.SpelledIn n.levels) _ _ _ hleft
      rw [← ts.append_nil]
      refine Completable.behind ts (relation.within ?_)
      rintro us ⟨x, hx⟩
      exact .done ⟨_, .relation hx⟩
    · refine completes_map _ ((relationWith_completes
        (nested_bracedWith_spelled (blockBody_spelled n.deeper))
        (nested_bracedWith_completes blockBody_completes) hx).within ?_)
      rintro us ⟨x, hx⟩
      exact .done ⟨_, .relation hx⟩

/-- What a statement that is refused has passed can be completed to a statement. -/
theorem statement_completes (n : Nesting) :
    Completes (statement n) fun ts => ∃ x : Statement, x.SpelledBy n.levels ts := by
  intro c d fault hc h hdeep
  rw [statement, bind_current] at h
  have closed {ts : List Token} (hx : ∃ x : FunctionBlock, x.SpelledBy n.levels ts) :
      Completable (fun ts => ∃ x : Statement, x.SpelledBy n.levels ts) ts := by
    obtain ⟨x, hx⟩ := hx
    exact .more .semicolon (by decide) fun s hs => .done ⟨_, .block hx hs⟩
  generalize c.current.kind = k at h
  split at h
  next => cases h
  next => cases h
  next =>
    refine completes_bind (functionBlock_spelled n)
      ((functionBlock_completes n).within fun ts hx => closed hx) ?_ hc h hdeep
    intro x ts next hx
    refine completes_expect (by decide) (fun s hs => .done ⟨_, .block hx hs⟩) fun s hs => ?_
    exact completes_of_returns fun _ => ⟨_, _, rfl⟩

end Parse

end RelationNotation
