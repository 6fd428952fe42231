import RelationNotation.Proofs.Parse.Retracing

/-!
How two runs over the same tokens part. Where a routine stands, before it takes a token, it either
takes the one ahead or does what it does at every token that it does not take: it returns, or it
refuses the token with a demand that the token does not meet (`Stands`). So two runs part at the
first token that differs in one of two ways only: the second takes its token, or both end there
alike (`Forks`). One rule for each way in which routines are put together.
-/

namespace RelationNotation

open Token Cursor

/-- What is demanded of the first token of a nested part. -/
def Nesting.demandOf (n : Nesting) (demand : Demand) : Demand :=
  if n.depth ≥ n.limit then .shallower n.limit else demand

namespace Parse
variable {α β : Type} {k k' j j' : Nat} {c c' d : Cursor}

/-! ### At a token -/

/-- A routine takes a token at least, whether it returns or fails. -/
def TakesAt (p : Parse α) (c : Cursor) : Prop := ∃ t ts, c.Passes (t :: ts) (place (p c))

/-- A routine takes no token: it returns, or it refuses the token ahead with a given demand, which
the token does not meet. -/
def StaysAt (p : Parse α) (c : Cursor) : Option Demand → Prop
  | none => ∃ x, p c = .ok x c
  | some demand => p c = .error ⟨demand, c.current⟩ c ∧ c.kind ∉ demand.kinds

def StandsAt (p : Parse α) (c : Cursor) (demand : Option Demand) : Prop :=
  TakesAt p c ∨ StaysAt p c demand

/-- With so many tokens ahead at most, a routine takes a token or ends where it stands, in one
way. -/
def Stands (k : Nat) (demand : Option Demand) (p : Parse α) : Prop :=
  ∀ ⦃c : Cursor⦄, c.EndsOnce → c.remaining ≤ k → StandsAt p c demand

/-- Two outcomes are alike: both routines return, or both fail with one demand, which the token that
the second found does not meet. -/
def EndsAlike : EStateM.Result SyntaxFault Cursor α → EStateM.Result SyntaxFault Cursor α → Prop
  | .ok _ _, .ok _ _ => True
  | .error fault _, .error fault' _ =>
    fault.demand = fault'.demand ∧ fault'.found.kind ∉ fault'.demand.kinds
  | _, _ => False

/-- A routine goes on behind some tokens, whether it returns or fails. -/
def TakesBehind (us : List Token) (p : Parse α) (c : Cursor) : Prop :=
  ∃ t ts, c.Passes (us ++ t :: ts) (place (p c))

/-- Behind the tokens that the first routine passed the second goes on, or it ends there alike. -/
def PartsBehind (us : List Token) (p p' : Parse α) (c c' : Cursor) : Prop :=
  TakesBehind us p' c' ∨ c'.Passes us (place (p' c')) ∧ EndsAlike (p c) (p' c')

/-- Wherever the tokens passed in a run of the first routine, one at least, are ahead, whatever
stands behind them, the second routine passes them too, and goes on or ends alike. -/
structure Forks (k k' : Nat) (p p' : Parse α) : Prop where
  retraces : Retraces k k' p p'
  moves' : Moves p'
  parts : ∀ {c c' : Cursor} {us r : List Token} {t : Token}, Twins k k' c c' → us ≠ [] →
    c.Passes us (place (p c)) → c'.upcoming = us ++ t :: r → PartsBehind us p p' c c'

/-- The same, and both routines stand in one way. -/
structure Firm (k k' : Nat) (demand : Option Demand) (p p' : Parse α) : Prop
    extends Forks k k' p p' where
  stands : Stands k demand p
  stands' : Stands k' demand p'

/-! ### Sequences -/

section
variable {p p' : Parse α} {f f' : α → Parse β} {demand : Option Demand} {asked : Demand}

/-- Behind the first of two routines the second goes on. -/
theorem exists_passes_bind {ts : List Token} (hf : ∀ x, Moves (f x))
    (h : c.Passes ts (place (p c))) : ∃ us, c.Passes (ts ++ us) (place ((p >>= f) c)) := by
  cases hp : p c with
  | error fault d =>
    rw [hp] at h
    exact ⟨[], by rw [bind_of_error hp, List.append_nil]; exact h⟩
  | ok x d =>
    rw [hp] at h
    obtain ⟨us, pass⟩ := (hf x).passes d
    exact ⟨us, by rw [bind_of_ok hp]; exact h.trans pass⟩

theorem TakesBehind.bind {us : List Token} (h : TakesBehind us p c) (hf : ∀ x, Moves (f x)) :
    TakesBehind us (p >>= f) c := by
  obtain ⟨t, ts, pass⟩ := h
  obtain ⟨vs, pass'⟩ := exists_passes_bind hf pass
  exact ⟨t, ts ++ vs, by rwa [List.append_assoc] at pass'⟩

theorem TakesAt.bind (h : TakesAt p c) (hf : ∀ x, Moves (f x)) : TakesAt (p >>= f) c :=
  (show TakesBehind [] p c from h).bind hf

theorem takesAt_advance (hc : c.EndsOnce) (hk : c.kind ≠ .endOfInput) : TakesAt advance c := by
  cases ha : c.ahead with
  | nil => exact absurd (hc.ended.kind_of_nil ha) hk
  | cons t ts => exact ⟨t, [], passes_advance ha⟩

/-- A routine takes a token that it is known to ask for. -/
theorem Stands.takesAt (h : Stands k (some asked) p) (hc : c.EndsOnce) (hk : c.remaining ≤ k)
    (asks : c.kind ∈ asked.kinds) : TakesAt p c :=
  (h hc hk).resolve_right fun stays => stays.2 asks

theorem Firm.takesAt (h : Firm k k (some asked) p p') (hc : c.EndsOnce) (hk : c.remaining ≤ k)
    (asks : c.kind ∈ asked.kinds) : TakesAt p c :=
  h.stands.takesAt hc hk asks

theorem Stands.mono (h : Stands k demand p) (hk : j ≤ k) : Stands j demand p :=
  fun _ hc hj => h hc (Nat.le_trans hj hk)

theorem stands_bind (h : Stands k (some asked) p) (hf : ∀ x, Moves (f x)) :
    Stands k (some asked) (p >>= f) := by
  intro c hc hk
  refine (h hc hk).imp (·.bind hf) fun ⟨refused, hkind⟩ => ⟨?_, hkind⟩
  rw [bind_of_error refused]

theorem stands_bind_idle (h : Stands k none p) (moves : ∀ x, Moves (f x))
    (hf : ∀ x, Stands k demand (f x)) : Stands k demand (p >>= f) := by
  intro c hc hk
  rcases h hc hk with takes | ⟨x, returned⟩
  · exact .inl (takes.bind moves)
  · have here : (p >>= f) c = f x c := bind_of_ok returned
    refine (hf x hc hk).imp ?_ ?_
    · rintro ⟨t, ts, pass⟩
      exact ⟨t, ts, by rwa [here]⟩
    · intro stays
      cases demand with
      | none => exact stays.imp fun y hy => here.trans hy
      | some asked => exact stays.imp_left here.trans

/-- What a routine does where it stands is what another does that stands in the same way. -/
theorem endsAlike_of_stays {p p' : Parse α} (h : StaysAt p c demand) (h' : StaysAt p' c' demand) :
    EndsAlike (p c) (p' c') := by
  cases demand with
  | none =>
    obtain ⟨x, hx⟩ := h
    obtain ⟨y, hy⟩ := h'
    rw [hx, hy]
    exact trivial
  | some asked =>
    rw [h.1, h'.1]
    exact ⟨rfl, h'.2⟩

theorem StaysAt.place_eq (h : StaysAt p c demand) : place (p c) = c := by
  cases demand with
  | none =>
    obtain ⟨x, hx⟩ := h
    rw [hx]
    rfl
  | some asked =>
    rw [h.1]
    rfl

/-! ### Where two sequences part -/

section
variable {us : List Token}

/-- The first of two routines fails, so the second does not run, unless it goes on. -/
theorem PartsBehind.bind_failed (h : PartsBehind us p p' c c') (hf' : ∀ x, Moves (f' x))
    {fault : SyntaxFault} (failed : p c = .error fault d) :
    PartsBehind us (p >>= f) (p' >>= f') c c' := by
  rcases h with takes | ⟨pass', alike⟩
  · exact .inl (takes.bind hf')
  rw [failed] at alike
  cases h' : p' c' with
  | ok y d' =>
    rw [h'] at alike
    exact alike.elim
  | error fault' d' =>
    rw [h'] at pass' alike
    exact .inr (by rw [bind_of_error failed, bind_of_error h']; exact ⟨pass', alike⟩)

/-- The rest of the first run takes nothing, so the rest of the second ends alike or takes the token
that differs. -/
theorem PartsBehind.bind_stays (h : PartsBehind us p p' c c') (hf' : ∀ x, Moves (f' x)) {x : α}
    (read : p c = .ok x d) (stays : StaysAt (f x) d demand)
    (stands' : ∀ {y d'}, p' c' = .ok y d' → c'.Passes us d' → StandsAt (f' y) d' demand) :
    PartsBehind us (p >>= f) (p' >>= f') c c' := by
  rcases h with takes | ⟨pass', alike⟩
  · exact .inl (takes.bind hf')
  rw [read] at alike
  cases h' : p' c' with
  | error fault' d' =>
    rw [h'] at alike
    exact alike.elim
  | ok y d' =>
    rw [h'] at pass'
    rw [PartsBehind, TakesBehind, bind_of_ok read, bind_of_ok h']
    rcases stands' h' pass' with ⟨v, vs, pass''⟩ | stays'
    · exact .inl ⟨v, vs, pass'.trans pass''⟩
    · exact .inr ⟨by rwa [stays'.place_eq], endsAlike_of_stays stays stays'⟩

/-- The first routines have passed the same tokens, and the rests of both runs part. -/
theorem PartsBehind.bind_beyond {ts : List Token} {x : α} {d' : Cursor} (read : p c = .ok x d)
    (read' : p' c' = .ok x d') (pass' : c'.Passes ts d') (h : PartsBehind us (f x) (f' x) d d') :
    PartsBehind (ts ++ us) (p >>= f) (p' >>= f') c c' := by
  rw [PartsBehind, TakesBehind, bind_of_ok read, bind_of_ok read']
  refine h.imp ?_ fun ⟨pass'', alike⟩ => ⟨pass'.trans pass'', alike⟩
  rintro ⟨t, vs, pass''⟩
  exact ⟨t, vs, by rw [List.append_assoc]; exact pass'.trans pass''⟩

end

/-- In sequence, with the bounds that hold behind the first routine, and with what is known there of
a value that was not read from nothing. -/
theorem forks_bind_of (hp : Forks k k' p p') (P : α → Prop)
    (behind : ∀ {c d : Cursor} {x : α} {ts : List Token}, c.EndsOnce → c.remaining ≤ k →
      p c = .ok x d → c.Passes ts d → d.remaining ≤ j ∧ (ts ≠ [] → P x))
    (behind' : ∀ {c d : Cursor} {x : α} {ts : List Token}, c.EndsOnce → c.remaining ≤ k' →
      p' c = .ok x d → c.Passes ts d → d.remaining ≤ j' ∧ (ts ≠ [] → P x))
    (hf : ∀ x, Forks j j' (f x) (f' x)) (stands : ∀ x, P x → Stands j demand (f x))
    (stands' : ∀ x, P x → Stands j' demand (f' x)) : Forks k k' (p >>= f) (p' >>= f') where
  retraces := retraces_bind_of hp.retraces (fun twins read pass read' pass' =>
    ⟨(behind twins.ends twins.bound read pass).1, (behind' twins.ends' twins.bound' read' pass').1⟩)
    fun x => (hf x).retraces
  moves' := moves_bind hp.moves' fun x => (hf x).moves'
  parts {c c' us r t} twins hne pass hup := by
    have moves' (x : α) : Moves (f' x) := (hf x).moves'
    obtain ⟨ts, pass₁⟩ := hp.retraces.moves.passes c
    cases h : p c with
    | error fault d =>
      rw [h] at pass₁
      rw [bind_of_error h] at pass
      obtain rfl := pass.unique pass₁
      exact (hp.parts twins hne (h ▸ pass) hup).bind_failed moves' h
    | ok x d =>
      rw [h] at pass₁
      rw [bind_of_ok h] at pass
      obtain ⟨vs, pass₂⟩ := (hf x).retraces.moves.passes d
      obtain rfl := pass.unique (pass₁.trans pass₂)
      obtain ⟨hj, known⟩ := behind twins.ends twins.bound h pass₁
      cases vs with
      | nil =>
        -- The second routine stands where the first one stopped.
        rw [List.append_nil] at hne hup ⊢
        have stays : StaysAt (f x) d demand := by
          refine (stands x (known hne) (twins.ends.passes pass₁) hj).resolve_left ?_
          rintro ⟨v, vs, pass'⟩
          exact absurd (pass₂.unique pass') (List.cons_ne_nil v vs).symm
        refine (hp.parts twins hne (h ▸ pass₁) hup).bind_stays moves' h stays fun read' pass' => ?_
        obtain ⟨hj', known'⟩ := behind' twins.ends' twins.bound' read' pass'
        exact stands' _ (known' hne) (twins.ends'.passes pass') hj'
      | cons v vs =>
        rw [List.append_assoc, List.cons_append] at hup
        have first := hp.retraces.again twins (by rw [h]; exact pass₁) (r := vs ++ t :: r)
          (by rw [h, hup, ← pass₂.current]; rfl)
        rw [h] at first
        obtain ⟨d', pass', read'⟩ := first.resolve_left id
        have hj' := (behind' twins.ends' twins.bound' read' pass').1
        have hup' : d'.upcoming = (v :: vs) ++ t :: r :=
          List.append_cancel_left (pass'.upcoming.symm.trans hup)
        have rest := (hf x).parts { twins.passes pass₁ pass' with bound := hj, bound' := hj' }
          (List.cons_ne_nil v vs) pass₂ hup'
        exact .bind_beyond h read' pass' rest

theorem forks_bind (hp : Forks k k' p p') (hf : ∀ x, Firm k k' demand (f x) (f' x)) :
    Forks k k' (p >>= f) (p' >>= f') := by
  have behind {q : Parse α} {i : Nat} {c d : Cursor} {x : α} {ts : List Token} (_ : c.EndsOnce)
      (hi : c.remaining ≤ i) (_ : q c = .ok x d) (pass : c.Passes ts d) :
      d.remaining ≤ i ∧ (ts ≠ [] → True) := by
    rw [pass.remaining] at hi
    exact ⟨by omega, fun _ => trivial⟩
  exact forks_bind_of hp (fun _ => True) behind behind (fun x => (hf x).toForks)
    (fun x _ => (hf x).stands) fun x _ => (hf x).stands'

theorem Forks.mono (h : Forks k k' p p') (hk : j ≤ k) (hk' : j' ≤ k') : Forks j j' p p' :=
  ⟨h.retraces.mono hk hk', h.moves', fun twins => h.parts (twins.mono hk hk')⟩

theorem Firm.mono (h : Firm k k' demand p p') (hk : j ≤ k) (hk' : j' ≤ k') :
    Firm j j' demand p p' :=
  ⟨h.toForks.mono hk hk', h.stands.mono hk, h.stands'.mono hk'⟩

/-- With no tokens ahead none is taken. -/
theorem forks_of_exhausted (retraces : Retraces k k' p p') (moves' : Moves p')
    (hk : k = 0 ∨ k' = 0) : Forks k k' p p' where
  retraces := retraces
  moves' := moves'
  parts {c c' us r t} twins hne pass hup := by
    obtain ⟨d', pass', -⟩ := passes_of_upcoming hup
    have := List.length_pos_iff.2 hne
    have := twins.bound
    have := twins.bound'
    have := pass.remaining
    have := pass'.remaining
    omega

theorem firm_bind (hp : Firm k k' (some asked) p p')
    (hf : ∀ x, Firm k k' demand (f x) (f' x)) :
    Firm k k' (some asked) (p >>= f) (p' >>= f') where
  toForks := forks_bind hp.toForks hf
  stands := stands_bind hp.stands fun x => (hf x).retraces.moves
  stands' := stands_bind hp.stands' fun x => (hf x).moves'

theorem firm_bind_idle (hp : Firm k k' none p p') (hf : ∀ x, Firm k k' demand (f x) (f' x)) :
    Firm k k' demand (p >>= f) (p' >>= f') where
  toForks := forks_bind hp.toForks hf
  stands := stands_bind_idle hp.stands (fun x => (hf x).retraces.moves) fun x => (hf x).stands
  stands' := stands_bind_idle hp.stands' (fun x => (hf x).moves') fun x => (hf x).stands'

/-- A routine that never takes a token parts from no other. -/
theorem forks_of_stays (retraces : Retraces k k' p p') (moves' : Moves p')
    (stays : ∀ c, place (p c) = c) : Forks k k' p p' where
  retraces := retraces
  moves' := moves'
  parts {c c' us r t} _ hne pass _ := by
    rw [stays] at pass
    exact absurd (pass.unique (.refl c)) hne

theorem firm_of_returns (retraces : Retraces k k' p p') (moves' : Moves p')
    (returns : ∀ c, ∃ x, p c = .ok x c) (returns' : ∀ c, ∃ x, p' c = .ok x c) :
    Firm k k' none p p' where
  toForks := forks_of_stays retraces moves' fun c => (show StaysAt p c none from returns c).place_eq
  stands := fun {c} _ _ => .inr (returns c)
  stands' := fun {c} _ _ => .inr (returns' c)

theorem forks_ite {P : Prop} [Decidable P] {q q' : Parse α} (hp : Forks k k' p p')
    (hq : Forks k k' q q') : Forks k k' (if P then p else q) (if P then p' else q') := by
  split
  · exact hp
  · exact hq

/-- Where a token is taken, both routines have seen the same one. -/
theorem current_eq_of_upcoming {us r : List Token} (hne : us ≠ []) (pass : c.Passes us d)
    (hup : c'.upcoming = us ++ r) : c'.current = c.current := by
  cases us with
  | nil => exact absurd rfl hne
  | cons u us => rw [pass.current, current_of_upcoming hup]

end

/-! ### Single steps -/

theorem firm_pure (x : α) : Firm k k' none (pure x) (pure x) :=
  firm_of_returns (retraces_pure x) (moves_pure x) (fun _ => ⟨x, rfl⟩) fun _ => ⟨x, rfl⟩

theorem firm_originFrom (t : Token) : Firm k k' none (originFrom t) (originFrom t) :=
  firm_of_returns (retraces_originFrom t) (moves_originFrom t) (fun c => ⟨⟨c.spanFrom t, []⟩, rfl⟩)
    fun c => ⟨⟨c.spanFrom t, []⟩, rfl⟩

theorem forks_refuse (asked : Demand) :
    Forks k k' (refuse asked : Parse α) (refuse asked) :=
  forks_of_stays (retraces_refuse asked) (moves_refuse asked) fun _ => rfl

/-- A choice by the token ahead has been made alike where that token is taken. -/
theorem forks_bind_current {f f' : Token → Parse α} (hf : ∀ t, Forks k k' (f t) (f' t)) :
    Forks k k' (current >>= f) (current >>= f') where
  retraces := retraces_bind retraces_current fun t => (hf t).retraces
  moves' := moves_bind moves_current fun t => (hf t).moves'
  parts {c c' us r t} twins hne pass hup := by
    rw [bind_current] at pass
    rw [PartsBehind, TakesBehind, bind_current]
    rw [bind_current, current_eq_of_upcoming hne pass hup]
    exact (hf c.current).parts twins hne pass hup

theorem forks_bind_kind {f f' : TokenKind → Parse α} (hf : ∀ k₀, Forks k k' (f k₀) (f' k₀)) :
    Forks k k' (kind >>= f) (kind >>= f') :=
  forks_bind_current fun t => hf t.kind

theorem forks_advance : Forks k k' advance advance where
  retraces := retraces_advance
  moves' := moves_advance
  parts {c c' us r t} twins hne pass hup := by
    refine .inr ⟨?_, trivial⟩
    change c.Passes us c.advance at pass
    cases ha : c.ahead with
    | nil =>
      rw [advance_of_nil ha] at pass
      exact absurd (pass.unique (.refl c)) hne
    | cons u us =>
      obtain rfl := pass.unique (passes_advance ha)
      obtain ⟨d', pass', -⟩ := passes_of_upcoming hup
      exact passes_advance pass'.ahead

theorem forks_bind_advance {f f' : Token → Parse β} {demand : Option Demand}
    (hf : ∀ t, Firm k k' demand (f t) (f' t)) :
    Forks (k + 1) (k' + 1) (advance >>= f) (advance >>= f') := by
  have behind {i : Nat} {c d : Cursor} {x : Token} {ts : List Token} (_ : c.EndsOnce)
      (hi : c.remaining ≤ i + 1) (read : advance c = .ok x d) (_ : c.Passes ts d) :
      d.remaining ≤ i ∧ (ts ≠ [] → True) := by
    obtain ⟨-, rfl⟩ : c.current = x ∧ c.advance = d := by simpa using read
    rw [remaining_advance]
    exact ⟨Nat.sub_le_of_le_add hi, fun _ => trivial⟩
  exact forks_bind_of forks_advance (fun _ => True) behind behind (fun t => (hf t).toForks)
    (fun t _ => (hf t).stands) fun t _ => (hf t).stands'

/-! ### Choices -/

section
variable {demand : Option Demand} {asked : Demand}

/-- A routine that steps over the token ahead takes it. -/
theorem standsAt_advance {f : Token → Parse β} (hc : c.EndsOnce) (hk : c.kind ≠ .endOfInput)
    (hf : ∀ t, Moves (f t)) : StandsAt (advance >>= f) c demand :=
  .inl ((takesAt_advance hc hk).bind hf)

theorem standsAt_refuse (hk : c.kind ∉ asked.kinds) :
    StandsAt (refuse asked : Parse α) c (some asked) :=
  .inr ⟨rfl, hk⟩

theorem stands_bind_current {f : Token → Parse α}
    (h : ∀ {c : Cursor} {t : Token}, c.EndsOnce → c.remaining ≤ k → c.current = t →
      StandsAt (f t) c demand) : Stands k demand (current >>= f) :=
  fun _ hc hk => h hc hk rfl

theorem stands_bind_kind {f : TokenKind → Parse α}
    (h : ∀ {c : Cursor} {k₀ : TokenKind}, c.EndsOnce → c.remaining ≤ k → c.kind = k₀ →
      StandsAt (f k₀) c demand) : Stands k demand (kind >>= f) :=
  fun _ hc hk => h hc hk rfl

theorem standsAt_ite {P : Prop} [Decidable P] {p q : Parse α} (hp : P → StandsAt p c demand)
    (hq : ¬ P → StandsAt q c demand) : StandsAt (if P then p else q) c demand := by
  split
  · exact hp ‹_›
  · exact hq ‹_›

end

theorem stands_expect {k₀ : TokenKind} (hk₀ : k₀ ≠ .endOfInput) :
    Stands k (some (.token k₀)) (expect k₀) :=
  stands_bind_kind fun hc _ hk =>
    standsAt_ite (fun h => .inl (takesAt_advance hc (by rwa [hk, h])))
      fun h => standsAt_refuse (by simpa [Demand.kinds, hk] using h)

theorem firm_expect {k₀ : TokenKind} (hk₀ : k₀ ≠ .endOfInput) :
    Firm k k' (some (.token k₀)) (expect k₀) (expect k₀) where
  toForks := forks_bind_kind fun _ => forks_ite forks_advance (forks_refuse _)
  stands := stands_expect hk₀
  stands' := stands_expect hk₀

section
variable {p p' q q' : Parse α} {demand : Option Demand} {asked : Demand}

theorem firm_map (g : α → β) (hp : Firm k k' (some asked) p p') :
    Firm k k' (some asked) (g <$> p) (g <$> p') := by
  rw [map_eq_bind, map_eq_bind]
  exact firm_bind hp fun _ => firm_pure _

theorem mem_kinds_token {k₀ k₁ : TokenKind} (h : k₀ = k₁) : k₀ ∈ (Demand.token k₁).kinds :=
  List.mem_singleton.2 h

theorem stands_choice {P : TokenKind → Prop} [DecidablePred P] (hP : ∀ k₀, P k₀ → k₀ ∈ asked.kinds)
    (hp : Stands k (some asked) p) (hq : Stands k demand q) :
    Stands k demand (kind >>= fun k₀ => if P k₀ then p else q) :=
  stands_bind_kind fun hc hk hkind => standsAt_ite
    (fun h => .inl (hp.takesAt hc hk (hkind ▸ hP _ h))) fun _ => hq hc hk

/-- A choice for a routine that asks for the tokens for which it is chosen. -/
theorem firm_choice {P : TokenKind → Prop} [DecidablePred P] (hP : ∀ k₀, P k₀ → k₀ ∈ asked.kinds)
    (hp : Firm k k' (some asked) p p') (hq : Firm k k' demand q q') :
    Firm k k' demand (kind >>= fun k₀ => if P k₀ then p else q)
      (kind >>= fun k₀ => if P k₀ then p' else q') where
  toForks := forks_bind_kind fun _ => forks_ite hp.toForks hq.toForks
  stands := stands_choice hP hp.stands hq.stands
  stands' := stands_choice hP hp.stands' hq.stands'

end

/-! ### Nested parts -/

theorem stands_refuse_shallower (limit : Int) :
    Stands k (some (.shallower limit)) (refuse (.shallower limit) : Parse α) :=
  fun _ _ _ => standsAt_refuse List.not_mem_nil

theorem firm_nested {inner inner' : Nesting → Parse α} {asked : Demand} (n : Nesting)
    (h : ∀ m, Firm k k' (some asked) (inner m) (inner' m)) :
    Firm k k' (some (n.demandOf asked)) (nested n inner) (nested n inner') := by
  unfold nested Nesting.demandOf
  split
  · exact ⟨forks_refuse _, stands_refuse_shallower _, stands_refuse_shallower _⟩
  · exact h _

theorem nested_bind (inner : Nesting → Parse α) (n : Nesting) (f : α → Parse β) :
    (nested n inner >>= f) = nested n fun m => inner m >>= f := by
  unfold nested
  split <;> rfl

/-! ### Rows of items -/

section
variable {γ : Type}

/-- A routine that reads items as long as there is a token to begin one: it reads none exactly if it
takes no token. -/
structure Gathers (k : Nat) (kinds : List TokenKind) (p : Parse (List γ)) : Prop where
  stands : ∀ {c : Cursor}, c.EndsOnce → c.remaining ≤ k →
    TakesAt p c ∨ p c = .ok [] c ∧ c.kind ∉ kinds
  filled : ∀ {c d : Cursor} {xs : List γ} {ts : List Token}, c.EndsOnce → c.remaining ≤ k →
    p c = .ok xs d → c.Passes ts d → ts ≠ [] → xs ≠ []

theorem Gathers.stands_bind {asked : Demand} {p : Parse (List γ)} {f : List γ → Parse β}
    (h : Gathers k asked.kinds p) (none : f [] = refuse asked) (hf : ∀ xs, Moves (f xs)) :
    Stands k (some asked) (p >>= f) := by
  intro c hc hk
  rcases h.stands hc hk with takes | ⟨read, hkind⟩
  · exact .inl (takes.bind hf)
  · refine .inr ⟨?_, hkind⟩
    rw [bind_of_ok read, none]
    rfl

/-- Items, one at least, and what stands behind them. -/
theorem firm_bind_items {p p' : Parse (List γ)} {f f' : List γ → Parse β} {demand : Option Demand}
    (asked : Demand) (hp : Forks k k' p p')
    (gathers : Gathers k asked.kinds p) (gathers' : Gathers k' asked.kinds p')
    (none : f [] = refuse asked) (none' : f' [] = refuse asked)
    (items : ∀ x xs, Firm k k' demand (f (x :: xs)) (f' (x :: xs))) :
    Firm k k' (some asked) (p >>= f) (p' >>= f') := by
  have forks (xs : List γ) : Forks k k' (f xs) (f' xs) := by
    cases xs with
    | nil => rw [none, none']; exact forks_refuse asked
    | cons x xs => exact (items x xs).toForks
  have behind {i : Nat} {q : Parse (List γ)} (h : Gathers i asked.kinds q) {c d : Cursor}
      {xs : List γ} {ts : List Token} (hc : c.EndsOnce) (hi : c.remaining ≤ i)
      (read : q c = .ok xs d) (pass : c.Passes ts d) : d.remaining ≤ i ∧ (ts ≠ [] → xs ≠ []) := by
    have := pass.remaining
    exact ⟨by omega, h.filled hc hi read pass⟩
  have stands : ∀ xs, xs ≠ [] → Stands k demand (f xs) := fun xs hxs => by
    obtain ⟨x, xs, rfl⟩ := List.exists_cons_of_ne_nil hxs
    exact (items x xs).stands
  have stands' : ∀ xs, xs ≠ [] → Stands k' demand (f' xs) := fun xs hxs => by
    obtain ⟨x, xs, rfl⟩ := List.exists_cons_of_ne_nil hxs
    exact (items x xs).stands'
  exact ⟨forks_bind_of hp (· ≠ []) (behind gathers) (behind gathers') forks stands stands',
    gathers.stands_bind none fun xs => (forks xs).retraces.moves,
    gathers'.stands_bind none' fun xs => (forks xs).moves'⟩

end

section
variable {kinds : List TokenKind}

theorem passes_takeKinds (kinds : List TokenKind) (c : Cursor) :
    c.Passes (c.ahead.takeWhile fun t => decide (t.kind ∈ kinds)) (place (takeKinds kinds c)) :=
  ⟨List.takeWhile_append_dropWhile.symm, rfl, rfl⟩

theorem forks_takeKinds (hend : .endOfInput ∉ kinds) :
    Forks k k' (takeKinds kinds) (takeKinds kinds) where
  retraces := retraces_takeKinds hend
  moves' := moves_takeKinds kinds
  parts {c c' us r t} twins hne pass hup := by
    obtain rfl := pass.unique (passes_takeKinds kinds c)
    obtain ⟨d', pass', -⟩ := passes_of_upcoming hup
    have taken := passes_takeKinds kinds c'
    rw [pass'.ahead, List.takeWhile_append_of_pos fun u => List.mem_takeWhile_imp] at taken
    cases hq : d'.ahead.takeWhile fun t => decide (t.kind ∈ kinds) with
    | nil => exact .inr ⟨by rwa [hq, List.append_nil] at taken, trivial⟩
    | cons v vs => exact .inl ⟨v, vs, by rwa [hq] at taken⟩

theorem gathers_takeKinds (hend : .endOfInput ∉ kinds) : Gathers k kinds (takeKinds kinds) where
  stands {c} hc _ := by
    have taken := passes_takeKinds kinds c
    cases hq : c.ahead.takeWhile fun t => decide (t.kind ∈ kinds) with
    | nil =>
      rw [hq] at taken
      have read : takeKinds kinds c = .ok _ (place (takeKinds kinds c)) := rfl
      rw [hq, taken.eq_of_nil] at read
      exact .inr ⟨read, takeKinds_stops hend hc.ended read⟩
    | cons t ts => exact .inl ⟨t, ts, by rwa [hq] at taken⟩
  filled {c d xs ts} _ _ read pass hts := by rwa [(takeKinds_passes read).1.unique pass]

end

section
variable {kinds : List TokenKind} {item item' : Parse α}

/-- A routine that takes a token where it is asked to, and where it returns. -/
structure TakesEach (k : Nat) (kinds : List TokenKind) (item : Parse α) : Prop where
  takes : Takes item
  takesAt : ∀ {c : Cursor}, c.EndsOnce → c.remaining ≤ k → c.kind ∈ kinds → TakesAt item c
  moves : Moves item

/-- Behind an item one token fewer is ahead, at least. -/
theorem TakesEach.behind (h : TakesEach k kinds item) {x : α} {ts : List Token} (hc : c.EndsOnce)
    (hj : c.remaining ≤ j + 1) (read : item c = .ok x d) (pass : c.Passes ts d) :
    d.remaining ≤ j := by
  have := List.length_pos_iff.2 (h.takes hc.ended read pass)
  have := pass.remaining
  omega

theorem stands_manyWithin (each : TakesEach k kinds item) (hj : j ≤ k) :
    Stands j none (manyWithin kinds item j) := by
  cases j with
  | zero => exact fun _ _ _ => .inr ⟨[], rfl⟩
  | succ j =>
    refine stands_bind_kind fun hc hj' hkind => standsAt_ite (fun h => ?_) fun _ => .inr ⟨[], rfl⟩
    exact .inl ((each.takesAt hc (Nat.le_trans hj' hj) (hkind ▸ h)).bind fun _ =>
      moves_bind (moves_manyWithin kinds each.moves j) fun _ => moves_pure _)

theorem forks_manyWithin (hend : .endOfInput ∉ kinds) (each : TakesEach k kinds item)
    (each' : TakesEach k' kinds item') (h : Forks k k' item item') (hj : j ≤ k) (hj' : j' ≤ k') :
    Forks j j' (manyWithin kinds item j) (manyWithin kinds item' j') := by
  have exhausted {j j' : Nat} (hj : j ≤ k) (hj' : j' ≤ k') (hzero : j = 0 ∨ j' = 0) :
      Forks j j' (manyWithin kinds item j) (manyWithin kinds item' j') :=
    forks_of_exhausted (retraces_manyWithin hend each.takes h.retraces hj hj')
      (moves_manyWithin kinds each'.moves j') hzero
  have more {q : Parse α} {i : Nat} {x : α} (each : TakesEach i kinds q) {j : Nat} (hj : j ≤ i) :
      Stands j none (manyWithin kinds q j >>= fun xs => pure (x :: xs)) :=
    stands_bind_idle (stands_manyWithin each hj) (fun _ => moves_pure _)
      fun xs => (firm_pure (x :: xs) : Firm j j _ _ _).stands
  -- The bounds may run out in different rounds, but only when nothing is ahead any more.
  induction j generalizing j' with
  | zero => exact exhausted hj hj' (.inl rfl)
  | succ j ih =>
    cases j' with
    | zero => exact exhausted hj hj' (.inr rfl)
    | succ j' =>
      have hj₁ : j ≤ k := by omega
      have hj₁' : j' ≤ k' := by omega
      refine forks_bind_kind fun _ => forks_ite ?_ (firm_pure _).toForks
      exact forks_bind_of (h.mono hj hj') (fun _ => True)
        (fun hc hj read pass => ⟨each.behind hc hj read pass, fun _ => trivial⟩)
        (fun hc hj read pass => ⟨each'.behind hc hj read pass, fun _ => trivial⟩)
        (fun x => forks_bind (ih hj₁ hj₁') fun xs => firm_pure (x :: xs))
        (fun x _ => more each hj₁) fun x _ => more each' hj₁'

/-- A routine whose bound is the number of tokens ahead. -/
theorem forks_of_remaining {p p' : Nat → Parse α}
    (retraces : Retraces k k' (get >>= fun c => p c.remaining) (get >>= fun c => p' c.remaining))
    (moves' : ∀ j, Moves (p' j)) (h : ∀ {j j'}, j ≤ k → j' ≤ k' → Forks j j' (p j) (p' j')) :
    Forks k k' (get >>= fun c => p c.remaining) (get >>= fun c => p' c.remaining) where
  retraces := retraces
  moves' := moves_bind moves_get fun _ => moves' _
  parts twins hne pass hup :=
    (h twins.bound twins.bound').parts
      { twins with bound := Nat.le_refl _, bound' := Nat.le_refl _ } hne pass hup

theorem stands_of_remaining {p : Nat → Parse α} {demand : Option Demand}
    (h : ∀ j ≤ k, Stands j demand (p j)) : Stands k demand (get >>= fun c => p c.remaining) :=
  fun _ hc hk => h _ hk hc (Nat.le_refl _)

theorem many_of_mem (hc : c.EndsOnce) (hend : .endOfInput ∉ kinds) (hk : c.kind ∈ kinds) :
    ∃ j, c.remaining = j + 1 ∧ many kinds item c =
      (item >>= fun x => manyWithin kinds item j >>= fun xs => pure (x :: xs)) c := by
  have hne : c.ahead ≠ [] := fun ha => hend (hc.ended.kind_of_nil ha ▸ hk)
  have hpos : 0 < c.remaining := List.length_pos_iff.2 hne
  obtain ⟨j, hj⟩ : ∃ j, c.remaining = j + 1 := ⟨c.remaining - 1, by omega⟩
  refine ⟨j, hj, ?_⟩
  rw [many, bind_get, hj, manyWithin, bind_kind, if_pos hk]

theorem gathers_many (hend : .endOfInput ∉ kinds) (each : TakesEach k kinds item) :
    Gathers k kinds (many kinds item) where
  stands {c} hc hk := by
    by_cases h : c.kind ∈ kinds
    · obtain ⟨j, -, hmany⟩ := many_of_mem hc hend h
      obtain ⟨t, ts, pass⟩ := (each.takesAt hc hk h).bind fun x =>
        moves_bind (moves_manyWithin kinds each.moves j) fun xs => moves_pure (x :: xs)
      exact .inl ⟨t, ts, by rwa [hmany]⟩
    · exact .inr ⟨manyWithin_stops _ _ h, h⟩
  filled {c d xs ts} hc hk read pass hts := by
    by_cases h : c.kind ∈ kinds
    · obtain ⟨j, -, hmany⟩ := many_of_mem hc hend h
      rw [hmany] at read
      obtain ⟨x, e, -, read⟩ := bind_ok read
      obtain ⟨ys, e', -, read⟩ := bind_ok read
      cases read
      exact List.cons_ne_nil x ys
    · rw [many, bind_get, manyWithin_stops _ _ h] at read
      cases read
      exact absurd (pass.unique (.refl c)) hts

theorem forks_many (hend : .endOfInput ∉ kinds) (each : TakesEach k kinds item)
    (each' : TakesEach k' kinds item') (h : Forks k k' item item') :
    Forks k k' (many kinds item) (many kinds item') :=
  forks_of_remaining (retraces_many hend each.takes h.retraces)
    (fun j => moves_manyWithin kinds each'.moves j) (forks_manyWithin hend each each' h)

end

end Parse

end RelationNotation
