import RelationNotation.Proofs.Grammar.Completeness
import RelationNotation.Proofs.Parse.Agreement
import RelationNotation.Proofs.Parse.Session

/-!
What a run depends on. A routine looks no further than the token it stops at, and asks no more of
the levels of nesting than whether there is another. So a second run with at least as many levels,
over tokens that are the same up to the token at which the first run stopped, goes the same way and
ends alike, unless the first found the nesting too deep: `retraces_statement`.
-/

namespace RelationNotation

open Token

namespace Cursor
variable {c d e : Cursor} {us vs r : List Token}

theorem Passes.unique (h : c.Passes us d) (h' : c.Passes vs d) : us = vs :=
  List.append_cancel_right (h.ahead.symm.trans h'.ahead)

theorem Passes.cursor_unique (h : c.Passes us d) (h' : c.Passes us e) : d = e := by
  have hahead := List.append_cancel_left (h.ahead.symm.trans h'.ahead)
  have hbefore := h.before.trans h'.before.symm
  have hstop := h.stop.trans h'.stop.symm
  cases d
  cases e
  simp_all

theorem upcoming_cons (c : Cursor) : ∃ r, c.upcoming = c.current :: r := by
  unfold upcoming current
  cases c.ahead with
  | nil => exact ⟨[], rfl⟩
  | cons t ts => exact ⟨ts ++ [c.stop], rfl⟩

/-- What stands behind tokens passed is a token to stop at and the rest. -/
theorem Passes.current_cons (h : c.Passes us d) (us' : List Token) :
    ∃ t r', c.current = t ∧ us ++ d.current :: us' = t :: r' := by
  cases us with
  | nil => exact ⟨_, _, by rw [← h.eq_of_nil], rfl⟩
  | cons u us => exact ⟨_, _, h.current, rfl⟩

end Cursor

/-- A second parser may go at least as much deeper. -/
def Nesting.Within (n n' : Nesting) : Prop := n.limit - n.depth ≤ n'.limit - n'.depth

theorem Nesting.Within.refl (n : Nesting) : n.Within n := Int.le_refl _

/-- A fault of nesting, and of nothing else. -/
def SyntaxFault.TooDeep (f : SyntaxFault) : Prop := ∃ limit, f.demand = .shallower limit

namespace Parse
open Cursor
variable {α β : Type} {k k' j j' : Nat} {c c' d : Cursor}

/-- Two cursors behind the same tokens, each with a bound on the tokens ahead. -/
structure Twins (k k' : Nat) (c c' : Cursor) : Prop where
  ends : c.EndsOnce
  ends' : c'.EndsOnce
  before : c'.before = c.before
  bound : c.remaining ≤ k
  bound' : c'.remaining ≤ k'

/-- The nesting was too deep. -/
def TooDeep : EStateM.Result SyntaxFault Cursor α → Prop
  | .ok _ _ => False
  | .error fault _ => fault.TooDeep

/-- The same outcome at another place. -/
def relocate (d : Cursor) :
    EStateM.Result SyntaxFault Cursor α → EStateM.Result SyntaxFault Cursor α
  | .ok x _ => .ok x d
  | .error fault _ => .error fault d

/-- Wherever the tokens passed in a run of the first routine, and the one behind them, are ahead,
the second routine passes them too and ends alike. -/
structure Retraces (k k' : Nat) (p p' : Parse α) : Prop where
  moves : Moves p
  again : ∀ {c c' : Cursor} {us r : List Token}, Twins k k' c c' → c.Passes us (place (p c)) →
    c'.upcoming = us ++ (place (p c)).current :: r →
      TooDeep (p c) ∨ ∃ d', c'.Passes us d' ∧ p' c' = relocate d' (p c)

theorem Twins.mono (h : Twins k k' c c') (hk : k ≤ j) (hk' : k' ≤ j') : Twins j j' c c' :=
  { h with bound := Nat.le_trans h.bound hk, bound' := Nat.le_trans h.bound' hk' }

theorem Twins.passes (h : Twins k k' c c') {us : List Token} {d' : Cursor} (pass : c.Passes us d)
    (pass' : c'.Passes us d') : Twins k k' d d' where
  ends := h.ends.passes pass
  ends' := h.ends'.passes pass'
  before := by rw [pass'.before, pass.before, h.before]
  bound := by
    have := h.bound
    have := pass.remaining
    omega
  bound' := by
    have := h.bound'
    have := pass'.remaining
    omega

/-- Twins that stand before the same token have passed the same token last. -/
theorem Twins.spanFrom (h : Twins k k' c c') (hcurrent : c'.current = c.current) (t : Token) :
    c'.spanFrom t = c.spanFrom t := by
  rw [Cursor.spanFrom, Cursor.spanFrom, previous, previous, h.before, hcurrent]

theorem Twins.ahead_of_ended (h : Twins k k' c c') (hk : c.ahead = [])
    (hcurrent : c'.current = c.current) : c'.ahead = [] := by
  refine h.ends'.kind_eq_iff.1 ?_
  rw [Cursor.kind, hcurrent]
  exact h.ends.ended.kind_of_nil hk

/-! ### Sequences -/

section
variable {p p' : Parse α} {f f' : α → Parse β}

theorem Retraces.mono (h : Retraces k k' p p') (hk : j ≤ k) (hk' : j' ≤ k') :
    Retraces j j' p p' :=
  ⟨h.moves, fun twins => h.again (twins.mono hk hk')⟩

/-- A routine that stays where it is, and whose outcome depends on what lies behind and on the token
it stands before, retraces itself. -/
theorem retraces_of_stays {p p' : Parse α} (stays : ∀ c, place (p c) = c)
    (found : ∀ {c d : Cursor} {fault : SyntaxFault}, p c = .error fault d → fault.found = d.current)
    (same : ∀ {c c'}, Twins k k' c c' → c'.current = c.current → p' c' = relocate c' (p c)) :
    Retraces k k' p p' where
  moves := ⟨fun c => ⟨[], by rw [stays]; exact .refl c⟩, found⟩
  again {c c' us r} twins pass hup := by
    rw [stays] at pass hup
    obtain rfl := pass.unique (.refl c)
    exact .inr ⟨c', .refl c', same twins (current_of_upcoming hup)⟩

/-- In sequence, with the bounds that hold behind the first routine. -/
theorem retraces_bind_of (hp : Retraces k k' p p')
    (bounds : ∀ {c c' d d' : Cursor} {x : α} {ts : List Token}, Twins k k' c c' →
      p c = .ok x d → c.Passes ts d → p' c' = .ok x d' → c'.Passes ts d' →
        d.remaining ≤ j ∧ d'.remaining ≤ j')
    (hf : ∀ x, Retraces j j' (f x) (f' x)) : Retraces k k' (p >>= f) (p' >>= f') where
  moves := moves_bind hp.moves fun x => (hf x).moves
  again {c c' us r} twins pass hup := by
    obtain ⟨ts, pass₁⟩ := hp.moves.passes c
    cases h : p c with
    | error fault d =>
      rw [h] at pass₁
      rw [bind_of_error h] at pass hup ⊢
      obtain rfl := pass.unique pass₁
      refine (hp.again twins (by rw [h]; exact pass) (by rw [h]; exact hup)).imp ?_ ?_
      · intro deep
        rw [h] at deep
        exact deep
      · rintro ⟨d', pass', read⟩
        rw [h] at read
        exact ⟨d', pass', by rw [bind_of_error (show p' c' = .error fault d' from read)]; rfl⟩
    | ok x d =>
      rw [h] at pass₁
      rw [bind_of_ok h] at pass hup ⊢
      obtain ⟨vs, pass₂⟩ := (hf x).moves.passes d
      obtain rfl := pass.unique (pass₁.trans pass₂)
      rw [List.append_assoc] at hup
      obtain ⟨t, r', hcurrent, hr'⟩ := pass₂.current_cons r
      have first := hp.again twins (by rw [h]; exact pass₁) (r := r')
        (by rw [h, hup, hr', ← hcurrent]; rfl)
      rw [h] at first
      obtain ⟨d', pass', read⟩ := first.resolve_left id
      obtain ⟨hj, hj'⟩ := bounds twins h pass₁ read pass'
      have behind := twins.passes pass₁ pass'
      have hup' : d'.upcoming = vs ++ (place (f x d)).current :: r :=
        List.append_cancel_left (pass'.upcoming.symm.trans hup)
      refine ((hf x).again { behind with bound := hj, bound' := hj' } pass₂ hup').imp_right ?_
      rintro ⟨e', pass'', read'⟩
      exact ⟨e', pass'.trans pass'', (bind_of_ok read).trans read'⟩

theorem retraces_bind (hp : Retraces k k' p p') (hf : ∀ x, Retraces k k' (f x) (f' x)) :
    Retraces k k' (p >>= f) (p' >>= f') :=
  retraces_bind_of hp (fun twins _ pass _ pass' =>
    ⟨(twins.passes pass pass').bound, (twins.passes pass pass').bound'⟩) hf

theorem retraces_map (g : α → β) (hp : Retraces k k' p p') :
    Retraces k k' (g <$> p) (g <$> p') := by
  rw [map_eq_bind, map_eq_bind]
  exact retraces_bind hp fun _ =>
    retraces_of_stays (fun _ => rfl) (fun h => by cases h) fun _ _ => rfl

theorem retraces_ite {P : Prop} [Decidable P] {q q' : Parse α} (hp : Retraces k k' p p')
    (hq : Retraces k k' q q') : Retraces k k' (if P then p else q) (if P then p' else q') := by
  split
  · exact hp
  · exact hq

end

theorem retraces_pure (x : α) : Retraces k k' (pure x) (pure x) :=
  retraces_of_stays (fun _ => rfl) (moves_pure x).found fun _ _ => rfl

theorem retraces_current : Retraces k k' current current := by
  refine retraces_of_stays (fun _ => rfl) moves_current.found fun {c c'} _ h => ?_
  rw [current_apply, h]
  rfl

theorem retraces_kind : Retraces k k' kind kind := by
  refine retraces_of_stays (fun _ => rfl) moves_kind.found fun {c c'} _ h => ?_
  rw [kind_apply, Cursor.kind, h]
  rfl

theorem retraces_refuse (demand : Demand) :
    Retraces k k' (refuse demand : Parse α) (refuse demand) := by
  refine retraces_of_stays (fun _ => rfl) (moves_refuse demand).found fun {c c'} _ h => ?_
  rw [refuse_apply, h]
  rfl

theorem retraces_originFrom (t : Token) : Retraces k k' (originFrom t) (originFrom t) := by
  refine retraces_of_stays (fun _ => rfl) (moves_originFrom t).found fun {c c'} twins h => ?_
  rw [originFrom_apply, twins.spanFrom h]
  rfl

theorem retraces_advance : Retraces k k' advance advance where
  moves := moves_advance
  again {c c' us r} twins pass hup := by
    change c.Passes us c.advance at pass
    change c'.upcoming = us ++ c.advance.current :: r at hup
    cases ha : c.ahead with
    | nil =>
      rw [advance_of_nil ha] at pass hup
      obtain rfl := pass.unique (.refl c)
      have hcurrent := current_of_upcoming hup
      refine .inr ⟨c', .refl c', ?_⟩
      rw [advance_apply, hcurrent, advance_of_nil (twins.ahead_of_ended ha hcurrent)]
      rfl
    | cons t ts =>
      obtain rfl := pass.unique (passes_advance ha)
      obtain ⟨d', pass', -⟩ := passes_of_upcoming hup
      refine .inr ⟨c'.advance, passes_advance pass'.ahead, ?_⟩
      rw [advance_apply, pass'.current, ← pass.current]
      rfl

/-- Behind a token stepped over, one token fewer is ahead. -/
theorem retraces_bind_advance {f f' : Token → Parse β} (hf : ∀ t, Retraces k k' (f t) (f' t)) :
    Retraces (k + 1) (k' + 1) (advance >>= f) (advance >>= f') := by
  refine retraces_bind_of retraces_advance ?_ hf
  rintro c c' d d' x ts twins h - h' -
  obtain ⟨-, rfl⟩ : c.current = x ∧ c.advance = d := by simpa using h
  obtain ⟨-, rfl⟩ : c'.current = x ∧ c'.advance = d' := by simpa using h'
  rw [remaining_advance, remaining_advance]
  exact ⟨Nat.sub_le_of_le_add twins.bound, Nat.sub_le_of_le_add twins.bound'⟩

theorem retraces_expect (k₀ : TokenKind) : Retraces k k' (expect k₀) (expect k₀) :=
  retraces_bind retraces_kind fun _ => retraces_ite retraces_advance (retraces_refuse _)

theorem retraces_accept (kinds : List TokenKind) : Retraces k k' (accept kinds) (accept kinds) :=
  retraces_bind retraces_kind fun _ =>
    retraces_ite (retraces_bind retraces_advance fun _ => retraces_pure _) (retraces_pure _)

/-- The token behind tokens of some kinds is of another kind. -/
theorem takeKinds_stops {kinds : List TokenKind} {ts : List Token} (hend : .endOfInput ∉ kinds)
    (hc : c.Ended) (h : takeKinds kinds c = .ok ts d) : d.kind ∉ kinds := by
  cases h
  cases hdrop : c.ahead.dropWhile fun t => decide (t.kind ∈ kinds) with
  | nil =>
    have hkind : c.stop.kind = .endOfInput := hc
    simpa [Cursor.kind, Cursor.current, hdrop, hkind] using hend
  | cons t ts =>
    have hfirst := List.head?_dropWhile_not (fun t => decide (t.kind ∈ kinds)) c.ahead
    rw [hdrop] at hfirst
    simpa [Cursor.kind, Cursor.current, hdrop] using hfirst

theorem retraces_takeKinds {kinds : List TokenKind} (hend : .endOfInput ∉ kinds) :
    Retraces k k' (takeKinds kinds) (takeKinds kinds) where
  moves := moves_takeKinds kinds
  again {c c' us r} twins pass hup := by
    generalize hread : takeKinds kinds c = result at pass hup
    cases result with
    | error fault d => cases hread
    | ok ts d =>
      obtain ⟨pass₁, among⟩ := takeKinds_passes hread
      obtain rfl := pass.unique pass₁
      have hstop : d.kind ∉ kinds := takeKinds_stops hend twins.ends.ended hread
      obtain ⟨d', read, -⟩ := takeKinds_of_upcoming hup hstop
      rw [List.takeWhile_eq_self_iff.2 fun t ht => by simpa using among t ht] at read
      exact .inr ⟨d', (takeKinds_passes read).1, read⟩

theorem retraces_nested {inner inner' : Nesting → Parse α} {n n' : Nesting} (hn : n.Within n')
    (h : ∀ {m m' : Nesting}, m.Within m' → Retraces k k' (inner m) (inner' m')) :
    Retraces k k' (nested n inner) (nested n' inner') where
  moves := moves_ite (moves_refuse _) (h (.refl _)).moves
  again {c c' us r} twins pass hup := by
    unfold nested at pass hup ⊢
    by_cases hdeep : n.depth ≥ n.limit
    · rw [if_pos hdeep]
      exact .inl ⟨n.limit, rfl⟩
    · unfold Nesting.Within at hn
      rw [if_neg hdeep] at pass hup ⊢
      rw [if_neg (by omega)]
      refine (h ?_).again twins pass hup
      simp only [Nesting.Within, Nesting.deeper]
      omega

/-! ### Routines without nesting -/

theorem retraces_string : Retraces k k' string string := by
  apply retraces_bind retraces_current
  intro t
  split
  · exact retraces_bind retraces_advance fun _ => retraces_pure _
  · exact retraces_bind retraces_advance fun _ => retraces_pure _
  · exact retraces_refuse _

theorem retraces_typeDesc : Retraces k k' typeDesc typeDesc :=
  retraces_bind (retraces_expect _) fun _ => retraces_bind retraces_string fun _ =>
    retraces_bind (retraces_expect _) fun _ => retraces_bind (retraces_originFrom _) fun _ =>
      retraces_pure _

theorem retraces_fycoide : Retraces k k' fycoide fycoide :=
  retraces_bind (retraces_expect _) fun _ => retraces_bind retraces_string fun _ =>
    retraces_bind (retraces_expect _) fun _ => retraces_bind (retraces_originFrom _) fun _ =>
      retraces_pure _

theorem retraces_pointerExpression :
    Retraces k k' pointerExpression pointerExpression := by
  refine retraces_bind (retraces_expect _) fun _ =>
    retraces_bind (retraces_takeKinds (by decide)) fun ts => ?_
  cases ts with
  | nil => exact retraces_refuse _
  | cons t ts =>
    exact retraces_bind (retraces_expect _) fun _ => retraces_bind (retraces_originFrom _) fun _ =>
      retraces_pure _

theorem retraces_pointerId : Retraces k k' pointerId pointerId :=
  retraces_bind retraces_kind fun _ =>
    retraces_ite (retraces_bind retraces_advance fun _ => retraces_pure _)
      (retraces_ite (retraces_bind retraces_pointerExpression fun _ => retraces_pure _)
        (retraces_refuse _))

theorem retraces_pointer : Retraces k k' pointer pointer :=
  retraces_bind (retraces_expect _) fun _ => retraces_bind retraces_pointerId fun _ =>
    retraces_bind (retraces_originFrom _) fun _ => retraces_pure _

theorem retraces_pointerRef : Retraces k k' pointerRef pointerRef :=
  retraces_bind (retraces_expect _) fun _ => retraces_bind retraces_pointerId fun _ =>
    retraces_bind (retraces_originFrom _) fun _ => retraces_pure _

theorem retraces_includeFile : Retraces k k' includeFile includeFile := by
  apply retraces_bind retraces_current
  intro t
  split
  · exact retraces_bind retraces_advance fun _ => retraces_pure _
  · exact retraces_bind retraces_advance fun _ => retraces_pure _
  · exact retraces_bind retraces_advance fun _ => retraces_pure _
  · exact retraces_refuse _

theorem retraces_includeBlock : Retraces k k' includeBlock includeBlock :=
  retraces_bind (retraces_expect _) fun _ => retraces_bind retraces_includeFile fun _ =>
    retraces_bind (retraces_expect _) fun _ => retraces_bind (retraces_originFrom _) fun _ =>
      retraces_pure _

/-! ### Gac strings -/

/-- Reads a gac stem, looking at the token behind the first once the first is passed. -/
def gacStemStepwise (inner : Nesting → Parse GacString) (n : Nesting) : Parse GacStem := do
  let t ← current
  match t.kind with
  | .fycoideOpen => return .fycoide (← fycoide)
  | .atSign => return .pointerRef (← pointerRef)
  | .identifier =>
    let _ ← advance
    let next ← current
    match PrefixMarker.ofKind? next.kind, t.touches next with
    | some marker, true =>
      let _ ← advance
      return .front ⟨← originFrom t, t.toIdentifier, marker⟩
    | _, _ => return .identifier t.toIdentifier
  | .synonym =>
    let _ ← advance
    let name ← expect .identifier
    return .synonym ⟨← originFrom t, name.toIdentifier⟩
  | .leftBracket =>
    let _ ← advance
    let content ← nested n inner
    let _ ← expect .rightBracket
    return .nested ⟨← originFrom t, content⟩
  | k =>
    match SuffixMarker.ofKind? k with
    | some marker =>
      let _ ← advance
      let next ← current
      if next.kind = .identifier ∧ t.touches next then
        let _ ← advance
        return .ending ⟨← originFrom t, marker, next.toIdentifier⟩
      else return .operator t.toOperator
    | none =>
      if k ∈ TokenKind.bareOperators then
        let _ ← advance
        return .operator t.toOperator
      else refuse .gacStem

theorem gacStemWith_eq (inner : Nesting → Parse GacString) (n : Nesting) :
    gacStemWith inner n = gacStemStepwise inner n := by
  funext c
  simp only [gacStemWith, gacStemStepwise, bind_current, bind_get, following_eq]
  cases c.current.kind <;> rfl

theorem retraces_gacStemWith {inner inner' : Nesting → Parse GacString} {n n' : Nesting}
    (hn : n.Within n')
    (h : ∀ {m m' : Nesting}, m.Within m' → Retraces k k' (inner m) (inner' m')) :
    Retraces (k + 1) (k' + 1) (gacStemWith inner n) (gacStemWith inner' n') := by
  rw [gacStemWith_eq, gacStemWith_eq]
  unfold gacStemStepwise
  refine retraces_bind retraces_current fun t => ?_
  split
  case h_1 => exact retraces_bind retraces_fycoide fun _ => retraces_pure _
  case h_2 => exact retraces_bind retraces_pointerRef fun _ => retraces_pure _
  case h_3 =>
    refine retraces_bind retraces_advance fun _ => retraces_bind retraces_current fun next => ?_
    split
    · exact retraces_bind retraces_advance fun _ => retraces_bind (retraces_originFrom _) fun _ =>
        retraces_pure _
    · exact retraces_pure _
  case h_4 =>
    exact retraces_bind retraces_advance fun _ => retraces_bind (retraces_expect _) fun _ =>
      retraces_bind (retraces_originFrom _) fun _ => retraces_pure _
  case h_5 =>
    exact retraces_bind_advance fun _ => retraces_bind (retraces_nested hn h) fun _ =>
      retraces_bind (retraces_expect _) fun _ => retraces_bind (retraces_originFrom _) fun _ =>
        retraces_pure _
  case h_6 =>
    split
    · refine retraces_bind retraces_advance fun _ => retraces_bind retraces_current fun next => ?_
      exact retraces_ite (retraces_bind retraces_advance fun _ =>
        retraces_bind (retraces_originFrom _) fun _ => retraces_pure _) (retraces_pure _)
    · exact retraces_ite (retraces_bind retraces_advance fun _ => retraces_pure _)
        (retraces_refuse _)

/-- With no tokens ahead only the end of the input can be looked at. -/
theorem retraces_of_exhausted {p p' : Parse α} (hk : k = 0 ∨ k' = 0) (moves : Moves p)
    (same : ∀ {c c' : Cursor}, c.kind = .endOfInput → c'.kind = .endOfInput →
      c'.current = c.current → p' c' = relocate c' (p c)) : Retraces k k' p p' where
  moves := moves
  again {c c' us r} twins pass hup := by
    obtain rfl : us = [] := by
      rcases hk with rfl | rfl
      · have hnil := List.length_eq_zero_iff.1 (Nat.le_zero.1 twins.bound)
        exact (List.append_eq_nil_iff.1 (pass.ahead.symm.trans hnil)).1
      · have hnil := List.length_eq_zero_iff.1 (Nat.le_zero.1 twins.bound')
        have hlength := congrArg List.length hup
        simp only [upcoming, hnil, List.length_append, List.length_cons] at hlength
        exact List.length_eq_zero_iff.1 (by simp at hlength; omega)
    rw [pass.eq_of_nil] at hup
    have hcurrent : c'.current = c.current := current_of_upcoming hup
    have hend : c.kind = .endOfInput := by
      rcases hk with rfl | rfl
      · exact twins.ends.ended.kind_of_nil (List.length_eq_zero_iff.1 (Nat.le_zero.1 twins.bound))
      · rw [Cursor.kind, ← hcurrent]
        exact twins.ends'.ended.kind_of_nil (List.length_eq_zero_iff.1 (Nat.le_zero.1 twins.bound'))
    have hend' : c'.kind = .endOfInput := by rwa [Cursor.kind, hcurrent]
    exact .inr ⟨c', .refl c', same hend hend' hcurrent⟩

/-- Every item read takes a token. -/
def Takes (p : Parse α) : Prop :=
  ∀ {c d : Cursor} {x : α} {ts : List Token}, c.Ended → p c = .ok x d → c.Passes ts d → ts ≠ []

theorem retraces_manyWithin {kinds : List TokenKind} {item item' : Parse α}
    (hend : .endOfInput ∉ kinds) (takes : Takes item) (h : Retraces k k' item item') (hj : j ≤ k)
    (hj' : j' ≤ k') : Retraces j j' (manyWithin kinds item j) (manyWithin kinds item' j') := by
  have exhausted {j j' : Nat} (hj : j = 0 ∨ j' = 0) :
      Retraces j j' (manyWithin kinds item j) (manyWithin kinds item' j') := by
    refine retraces_of_exhausted hj (moves_manyWithin kinds h.moves j) fun hc hc' _ => ?_
    rw [manyWithin_stops _ _ (by rwa [hc']), manyWithin_stops _ _ (by rwa [hc])]
    rfl
  -- The bounds may run out in different rounds, but only when nothing is ahead any more.
  induction j generalizing j' with
  | zero => exact exhausted (.inl rfl)
  | succ j ih =>
    cases j' with
    | zero => exact exhausted (.inr rfl)
    | succ j' =>
      refine retraces_bind retraces_kind fun _ => retraces_ite ?_ (retraces_pure _)
      refine retraces_bind_of (h.mono hj hj') ?_ fun x =>
        retraces_bind (ih (by omega) (by omega)) fun _ => retraces_pure _
      intro c c' d d' x ts twins read pass _ pass'
      have hpos := List.length_pos_iff.2 (takes twins.ends.ended read pass)
      have := twins.bound
      have := twins.bound'
      rw [pass.remaining] at *
      rw [pass'.remaining] at *
      omega

theorem retraces_many {kinds : List TokenKind} {item item' : Parse α} (hend : .endOfInput ∉ kinds)
    (takes : Takes item) (h : Retraces k k' item item') :
    Retraces k k' (many kinds item) (many kinds item') where
  moves := moves_bind moves_get fun _ => moves_manyWithin kinds h.moves _
  again twins pass hup :=
    (retraces_manyWithin hend takes h twins.bound twins.bound').again
      { twins with bound := Nat.le_refl _, bound' := Nat.le_refl _ } pass hup

theorem takes_gacStemWith (k : Nat) (n : Nesting) : Takes (gacStemWith (gacStringWithin k) n) := by
  intro c d x ts hc read pass
  have inner : Spells (nested n (gacStringWithin k)) (GacString.SpelledIn n.levels) :=
    nested_spells (gacStringWithin_spelled k n.deeper)
  obtain ⟨us, pass', spelled⟩ := gacStemWith_spelled inner hc read
  rw [pass.unique pass']
  exact spelled.ne_nil

theorem gacStringWithin_ended (k : Nat) (n : Nesting) (h : c.kind = .endOfInput) :
    gacStringWithin k n c = .error ⟨.gacStem, c.current⟩ c := by
  cases k with
  | zero => rfl
  | succ k =>
    have none : many TokenKind.gacStemStarts (gacStemWith (gacStringWithin k) n) c = .ok [] c :=
      manyWithin_stops _ _ (by rw [h]; decide)
    rw [gacStringWithin, bind_current, bind_of_ok none]
    rfl

theorem retraces_gacStringWithin {n n' : Nesting} (hn : n.Within n') :
    Retraces k k' (gacStringWithin k n) (gacStringWithin k' n') := by
  have exhausted {k k' : Nat} {n n' : Nesting} (hk : k = 0 ∨ k' = 0) :
      Retraces k k' (gacStringWithin k n) (gacStringWithin k' n') := by
    refine retraces_of_exhausted hk (moves_gacStringWithin k n) fun hc hc' hcurrent => ?_
    rw [gacStringWithin_ended _ _ hc', gacStringWithin_ended _ _ hc, hcurrent]
    rfl
  induction k generalizing k' n n' with
  | zero => exact exhausted (.inl rfl)
  | succ k ih =>
    cases k' with
    | zero => exact exhausted (.inr rfl)
    | succ k' =>
      have stem : Retraces (k + 1) (k' + 1) (gacStemWith (gacStringWithin k) n)
          (gacStemWith (gacStringWithin k') n') := retraces_gacStemWith hn fun hm => ih hm
      refine retraces_bind retraces_current fun start => retraces_bind
        (retraces_many (by decide) (takes_gacStemWith k n) stem) fun xs => ?_
      cases xs with
      | nil => exact retraces_refuse _
      | cons x xs => exact retraces_bind (retraces_originFrom _) fun _ => retraces_pure _

theorem retraces_gacString {n n' : Nesting} (hn : n.Within n') :
    Retraces k k' (gacString n) (gacString n') where
  moves := moves_gacString n
  again twins pass hup :=
    (retraces_gacStringWithin hn).again
      { twins with bound := Nat.le_refl _, bound' := Nat.le_refl _ } pass hup

/-! ### Expressions -/

theorem retraces_typeWordRest {n n' : Nesting} (hn : n.Within n') (start : Token) (proto : Bool) :
    Retraces k k' (typeWordRest n start proto) (typeWordRest n' start proto) :=
  retraces_bind (retraces_nested hn retraces_gacString) fun _ =>
    retraces_bind (retraces_expect _) fun _ => retraces_bind retraces_kind fun _ => retraces_ite
      (retraces_bind (retraces_map _ retraces_pointer) fun _ =>
        retraces_bind (retraces_originFrom _) fun _ => retraces_pure _)
      (retraces_bind (retraces_pure _) fun _ =>
        retraces_bind (retraces_originFrom _) fun _ => retraces_pure _)

theorem retraces_typeWord {n n' : Nesting} (hn : n.Within n') :
    Retraces k k' (typeWord n) (typeWord n') := by
  refine retraces_bind retraces_current fun start => retraces_bind (retraces_accept _) fun proto => ?_
  have rest : Retraces k k' (typeWordRest n start proto) (typeWordRest n' start proto) :=
    retraces_typeWordRest hn start proto
  exact retraces_ite rest (retraces_bind (retraces_expect _) fun _ => rest)

theorem retraces_expression {n n' : Nesting} (hn : n.Within n') :
    Retraces k k' (expression n) (expression n') := by
  apply retraces_bind retraces_kind
  intro k
  split
  · exact retraces_bind retraces_typeDesc fun _ => retraces_pure _
  · exact retraces_typeWord hn
  · exact retraces_typeWord hn
  · exact retraces_bind retraces_fycoide fun _ => retraces_pure _
  · exact retraces_bind retraces_pointerRef fun _ => retraces_pure _
  · exact retraces_refuse _

/-! ### Relations and blocks -/

section
variable {body body' : Nesting → Parse BlockBody} {n n' : Nesting} (hn : n.Within n')
  (h : ∀ {m m' : Nesting}, m.Within m' → Retraces k k' (body m) (body' m'))
include hn h

/-- What stands between braces stands behind an operator. -/
theorem retraces_relationWith (left : Expression) :
    Retraces (k + 1) (k' + 1) (relationWith body n left) (relationWith body' n' left) := by
  have braced {m m' : Nesting} (hm : m.Within m') :
      Retraces k k' (bracedWith body m) (bracedWith body' m') :=
    retraces_bind retraces_kind fun _ =>
      retraces_ite (retraces_pure _) (retraces_bind (h hm) fun _ => retraces_pure _)
  apply retraces_bind retraces_kind
  intro k₀
  split
  · exact retraces_refuse _
  · refine retraces_bind_advance fun _ => retraces_bind retraces_kind fun _ => retraces_ite ?_ ?_
    · exact retraces_bind retraces_advance fun _ => retraces_bind (retraces_nested hn braced)
        fun _ => retraces_bind (retraces_expect _) fun _ => retraces_pure _
    · exact retraces_bind (retraces_expression hn) fun _ => retraces_pure _

theorem retraces_elementWith :
    Retraces (k + 1) (k' + 1) (elementWith body n) (elementWith body' n') :=
  retraces_bind retraces_kind fun _ => retraces_ite
    (retraces_bind retraces_includeBlock fun _ => retraces_pure _)
    (retraces_bind (retraces_expression hn) fun _ => retraces_bind retraces_kind fun _ =>
      retraces_ite (retraces_bind (retraces_relationWith hn h _) fun _ => retraces_pure _)
        (retraces_pure _))

end

theorem bind_accept (kinds : List TokenKind) (g : Bool → Parse β) :
    (accept kinds >>= g) = kind >>= fun k₀ =>
      if k₀ ∈ kinds then advance >>= fun _ => g true else g false := by
  funext c
  rw [bind_kind]
  by_cases hk : c.kind ∈ kinds
  · rw [bind_of_ok (show accept kinds c = .ok true c.advance by rw [accept_apply, if_pos hk]),
      if_pos hk]
    rfl
  · rw [bind_of_ok (show accept kinds c = .ok false c by rw [accept_apply, if_neg hk]), if_neg hk]

/-- Where a token is accepted, one token fewer is ahead. -/
theorem retraces_bind_accept {kinds : List TokenKind} {f f' : Bool → Parse β}
    (accepted : Retraces k k' (f true) (f' true))
    (other : Retraces (k + 1) (k' + 1) (f false) (f' false)) :
    Retraces (k + 1) (k' + 1) (accept kinds >>= f) (accept kinds >>= f') := by
  rw [bind_accept, bind_accept]
  exact retraces_bind retraces_kind fun _ =>
    retraces_ite (retraces_bind_advance fun _ => accepted) other

theorem retraces_furtherElements {element element' : Parse Element}
    (h : Retraces k k' element element') (hj : j ≤ k) (hj' : j' ≤ k') :
    Retraces j j' (furtherElements element j) (furtherElements element' j') := by
  have exhausted {j j' : Nat} (hj : j = 0 ∨ j' = 0) :
      Retraces j j' (furtherElements element j) (furtherElements element' j') := by
    refine retraces_of_exhausted hj (moves_furtherElements h.moves j) fun hc hc' _ => ?_
    rw [furtherElements_stops _ _ (by rw [hc']; decide),
      furtherElements_stops _ _ (by rw [hc]; decide)]
    rfl
  induction j generalizing j' with
  | zero => exact exhausted (.inl rfl)
  | succ j ih =>
    cases j' with
    | zero => exact exhausted (.inr rfl)
    | succ j' =>
      refine retraces_bind_accept ?_ (retraces_pure _)
      refine retraces_bind retraces_kind fun _ => retraces_ite (retraces_pure _) ?_
      refine retraces_bind (h.mono (by omega) (by omega)) fun _ => ?_
      exact retraces_bind (ih (by omega) (by omega)) fun _ => retraces_pure _

theorem retraces_allFurtherElements {element element' : Parse Element}
    {f f' : List Element × Bool → Parse β} (h : Retraces k k' element element')
    (hf : ∀ x, Retraces k k' (f x) (f' x)) :
    Retraces k k' (get >>= fun c => furtherElements element c.remaining >>= f)
      (get >>= fun c => furtherElements element' c.remaining >>= f') := by
  have all : Retraces k k' (fun c => furtherElements element c.remaining c)
      (fun c => furtherElements element' c.remaining c) := by
    refine ⟨moves_bind moves_get fun _ => moves_furtherElements h.moves _, fun twins pass hup => ?_⟩
    exact (retraces_furtherElements h twins.bound twins.bound').again
      { twins with bound := Nat.le_refl _, bound' := Nat.le_refl _ } pass hup
  have whole := retraces_bind all hf
  exact whole

theorem blockBodyWithin_ended (k : Nat) (n : Nesting) (h : c.kind = .endOfInput) :
    blockBodyWithin k n c = .error ⟨.expression, c.current⟩ c := by
  cases k with
  | zero => rfl
  | succ k =>
    have refused : elementWith (blockBodyWithin k) n c = .error ⟨.expression, c.current⟩ c := by
      rw [elementWith, bind_kind, if_neg (by rw [h]; decide)]
      refine bind_of_error ?_
      rw [expression, bind_kind, h]
      rfl
    rw [blockBodyWithin, bind_current, bind_of_error refused]

theorem retraces_blockBodyWithin {n n' : Nesting} (hn : n.Within n') :
    Retraces k k' (blockBodyWithin k n) (blockBodyWithin k' n') := by
  have exhausted {k k' : Nat} {n n' : Nesting} (hk : k = 0 ∨ k' = 0) :
      Retraces k k' (blockBodyWithin k n) (blockBodyWithin k' n') := by
    refine retraces_of_exhausted hk (moves_blockBodyWithin k n) fun hc hc' hcurrent => ?_
    rw [blockBodyWithin_ended _ _ hc', blockBodyWithin_ended _ _ hc, hcurrent]
    rfl
  induction k generalizing k' n n' with
  | zero => exact exhausted (.inl rfl)
  | succ k ih =>
    cases k' with
    | zero => exact exhausted (.inr rfl)
    | succ k' =>
      have element : Retraces (k + 1) (k' + 1) (elementWith (blockBodyWithin k) n)
          (elementWith (blockBodyWithin k') n') := retraces_elementWith hn fun hm => ih hm
      refine retraces_bind retraces_current fun start => retraces_bind element fun first => ?_
      refine retraces_allFurtherElements element fun rest => retraces_bind retraces_kind fun _ => ?_
      exact retraces_ite (retraces_bind (retraces_originFrom _) fun _ => retraces_pure _)
        (retraces_refuse _)

theorem retraces_blockBody {n n' : Nesting} (hn : n.Within n') :
    Retraces k k' (blockBody n) (blockBody n') where
  moves := moves_blockBody n
  again twins pass hup :=
    (retraces_blockBodyWithin hn).again
      { twins with bound := Nat.le_refl _, bound' := Nat.le_refl _ } pass hup

theorem retraces_functionBlock {n n' : Nesting} (hn : n.Within n') :
    Retraces (k + 1) (k' + 1) (functionBlock n) (functionBlock n') :=
  retraces_bind retraces_kind fun _ => retraces_ite
    (retraces_bind retraces_includeBlock fun _ => retraces_pure _)
    (retraces_bind (retraces_expression hn) fun _ =>
      retraces_bind (retraces_relationWith hn retraces_blockBody _) fun _ => retraces_pure _)

/-- A parser that may go at least as deep reads the same statement, or finds the same fault, over
the same tokens up to the one at which the other parser stopped. -/
theorem retraces_statement {n n' : Nesting} (hn : n.Within n') :
    Retraces (k + 1) (k' + 1) (statement n) (statement n') := by
  apply retraces_bind retraces_current
  intro t
  split
  · exact retraces_bind retraces_advance fun _ => retraces_pure _
  · exact retraces_bind retraces_advance fun _ => retraces_pure _
  · exact retraces_bind (retraces_functionBlock hn) fun _ => retraces_bind (retraces_expect _)
      fun _ => retraces_bind (retraces_originFrom _) fun _ => retraces_pure _

/-- Over the same tokens a parser that may go at least as deep does the same, unless the nesting is
too deep for the other parser. -/
theorem statement_deeper {n n' : Nesting} (hn : n.Within n') (hc : c.EndsOnce) :
    TooDeep (statement n c) ∨ statement n' c = statement n c := by
  have twins : Twins (c.remaining + 1) (c.remaining + 1) c c :=
    ⟨hc, hc, rfl, Nat.le_succ _, Nat.le_succ _⟩
  obtain ⟨us, pass⟩ := (moves_statement n).passes c
  obtain ⟨r, hr⟩ := (place (statement n c)).upcoming_cons
  refine ((retraces_statement hn).again twins pass (hr ▸ pass.upcoming)).imp_right ?_
  rintro ⟨d', pass', read⟩
  rw [read, pass'.cursor_unique pass]
  cases statement n c <;> rfl

end Parse

end RelationNotation
