import Mathlib.Data.List.Forall2
import RelationNotation.Proofs.Parse.Session
import RelationNotation.Proofs.Tree.Pass

/-!
Two runs side by side. A routine sees no more of the tokens than their kinds and whether a name or a
sign touches what it may be attached to, and keeps their texts; below a statement none steps over a
semicolon. So two runs over tokens that are alike up to a semicolon agree: both return nodes that
are equal when bare, or both fail at the same place with the same demand.
-/

namespace RelationNotation

open Token

/-- Whether a token ends a statement or the input. -/
def Token.Ends (t : Token) : Prop := t.kind = .semicolon ∨ t.kind = .endOfInput

/-- Whether a token of one kind, where it touches a token of another, is attached to it: a name to
the marker behind it, a sign to the name behind it. -/
def TokenKind.Attaches (k k' : TokenKind) : Prop :=
  k = .identifier ∧ k' ∈ [.equals, .prefixMark] ∨ k ∈ [.minus, .plus] ∧ k' = .identifier

instance (k k' : TokenKind) : Decidable (k.Attaches k') :=
  inferInstanceAs (Decidable (_ ∧ _ ∨ _ ∧ _))

theorem TokenKind.Attaches.ne_endOfInput {k k' : TokenKind} (h : k.Attaches k') :
    k ≠ .endOfInput ∧ k' ≠ .endOfInput := by
  rcases h with ⟨rfl, h⟩ | ⟨h, rfl⟩
  · exact ⟨by decide, fun he => by simp [he] at h⟩
  · exact ⟨fun he => by simp [he] at h, by decide⟩

/-- A relation between tokens that no routine can tell apart, places aside: related tokens have one
kind and one text, and they touch alike what they may be attached to. -/
structure Unseen (T : Token → Token → Prop) : Prop where
  kind : ∀ {t t'}, T t t' → t'.kind = t.kind
  text : ∀ {t t'}, T t t' → t'.text = t.text
  touches : ∀ {t t' u u'}, T t t' → T u u' → t.kind.Attaches u.kind → t'.touches u' = t.touches u

namespace Unseen
variable {T : Token → Token → Prop} (unseen : Unseen T) {t t' : Token} (h : T t t')
include unseen h

theorem identifier : SameBare Identifier.mapOrigins t.toIdentifier t'.toIdentifier :=
  congrArg (Identifier.mk default) (unseen.text h)

theorem unicodeString :
    SameBare UnicodeString.mapOrigins ⟨t.origin, t.text⟩ ⟨t'.origin, t'.text⟩ :=
  congrArg (UnicodeString.mk default) (unseen.text h)

theorem operator : SameBare Operator.mapOrigins t.toOperator t'.toOperator :=
  congrArg (Operator.mk default) (unseen.text h)

theorem number : SameBare Number.mapOrigins t.toNumber t'.toNumber := by
  simp only [SameBare, Number.mapOrigins, toNumber, unseen.kind h, unseen.text h]
  rfl

end Unseen

theorem Unseen.takeWhile {T : Token → Token → Prop} (unseen : Unseen T) {s s' : List Token}
    (h : List.Forall₂ T s s') (kinds : List TokenKind) :
    List.Forall₂ T (s.takeWhile fun t => decide (t.kind ∈ kinds))
        (s'.takeWhile fun t => decide (t.kind ∈ kinds)) ∧
      List.Forall₂ T (s.dropWhile fun t => decide (t.kind ∈ kinds))
        (s'.dropWhile fun t => decide (t.kind ∈ kinds)) := by
  induction h with
  | nil => exact ⟨.nil, .nil⟩
  | cons ht hts ih =>
    simp only [List.takeWhile_cons, List.dropWhile_cons, unseen.kind ht]
    split
    · exact ⟨.cons ht ih.1, ih.2⟩
    · exact ⟨.nil, .cons ht hts⟩

namespace Cursor

/-- The tokens from a cursor on, the end of the input last. -/
def upcoming (c : Cursor) : List Token := c.ahead ++ [c.stop]

variable {c d : Cursor} {t u : Token} {ts us : List Token}

theorem current_of_upcoming (h : c.upcoming = t :: ts) : c.current = t := by
  unfold upcoming at h
  cases ha : c.ahead <;> simp_all [current]

theorem following_of_upcoming (h : c.upcoming = t :: u :: ts) : c.following = u := by
  unfold upcoming at h
  cases ha : c.ahead with
  | nil => simp [ha] at h
  | cons v vs => cases vs <;> simp_all [following]

theorem advance_upcoming (h : c.upcoming = t :: u :: ts) : c.advance.upcoming = u :: ts := by
  unfold upcoming at h ⊢
  cases ha : c.ahead with
  | nil => simp [ha] at h
  | cons v vs => simp_all [advance]

theorem Passes.upcoming (h : c.Passes ts d) : c.upcoming = ts ++ d.upcoming := by
  rw [Cursor.upcoming, Cursor.upcoming, h.ahead, h.stop, List.append_assoc]

/-- Where tokens are ahead, with one more behind them, a cursor can pass them. -/
theorem passes_of_upcoming {r : List Token} {z : Token} (h : c.upcoming = ts ++ z :: r) :
    ∃ d, c.Passes ts d ∧ d.upcoming = z :: r := by
  obtain ⟨q, ha, hq⟩ : ∃ q, c.ahead = ts ++ q ∧ q ++ [c.stop] = z :: r := by
    rcases r.eq_nil_or_concat with rfl | ⟨q, u, rfl⟩
    · obtain ⟨ha, hstop⟩ := List.append_inj' (show c.ahead ++ [c.stop] = ts ++ [z] from h) rfl
      exact ⟨[], by rw [ha, List.append_nil], hstop⟩
    · rw [List.concat_eq_append, ← List.cons_append, ← List.append_assoc] at h
      obtain ⟨ha, hstop⟩ := List.append_inj' (show c.ahead ++ [c.stop] = _ from h) rfl
      exact ⟨z :: q, ha, by rw [hstop, List.concat_eq_append]; rfl⟩
  exact ⟨⟨ts.reverse ++ c.before, q, c.stop⟩, ⟨ha, rfl, rfl⟩, hq⟩

/-- Two cursors before tokens that are alike up to a token that ends a statement, a number of tokens
further on; behind it stand the given tokens. -/
def Abreast (T : Token → Token → Prop) (r r' : List Token) (k : Nat) (c c' : Cursor) : Prop :=
  ∃ s s' z z', c.upcoming = s ++ z :: r ∧ c'.upcoming = s' ++ z' :: r' ∧ List.Forall₂ T s s' ∧
    T z z' ∧ z.Ends ∧ s.length = k

namespace Abreast
variable {T : Token → Token → Prop} {r r' : List Token} {k : Nat} {c c' : Cursor}

theorem current (h : Abreast T r r' k c c') : T c.current c'.current := by
  obtain ⟨s, s', z, z', hc, hc', hs, hz, -, -⟩ := h
  cases hs with
  | nil => rwa [current_of_upcoming hc, current_of_upcoming hc']
  | cons ht _ => rwa [current_of_upcoming hc, current_of_upcoming hc']

theorem kind (h : Abreast T r r' k c c') (unseen : Unseen T) : c'.kind = c.kind :=
  unseen.kind h.current

theorem ends (h : Abreast T r r' 0 c c') : c.current.Ends := by
  obtain ⟨s, s', z, z', hc, -, -, -, hz, hs⟩ := h
  obtain rfl := List.length_eq_zero_iff.1 hs
  rwa [current_of_upcoming hc]

/-- Before any other token both cursors can step on. -/
theorem advance (h : Abreast T r r' k c c') (hc : ¬ c.current.Ends) :
    Abreast T r r' (k - 1) c.advance c'.advance := by
  obtain ⟨s, s', z, z', hs, hs', htokens, hz, hends, hk⟩ := h
  cases htokens with
  | nil => exact absurd (current_of_upcoming hs ▸ hends) hc
  | @cons t t' s s' ht htokens =>
    have step {c : Cursor} {t z : Token} {s r : List Token} (h : c.upcoming = t :: s ++ z :: r) :
        c.advance.upcoming = s ++ z :: r := by
      cases s with
      | nil => exact advance_upcoming h
      | cons u s => exact advance_upcoming h
    exact ⟨s, s', z, z', step hs, step hs', htokens, hz, hends, by rw [← hk]; rfl⟩

theorem following (h : Abreast T r r' k c c') (hc : ¬ c.current.Ends) :
    T c.following c'.following := by
  obtain ⟨s, s', z, z', hs, hs', htokens, hz, hends, -⟩ := h
  cases htokens with
  | nil => exact absurd (current_of_upcoming hs ▸ hends) hc
  | cons _ htokens =>
    cases htokens with
    | nil => rwa [following_of_upcoming hs, following_of_upcoming hs']
    | cons hu _ => rwa [following_of_upcoming hs, following_of_upcoming hs']

theorem current_advance (h : Abreast T r r' k c c') (hc : ¬ c.current.Ends) :
    c.advance.current = c.following := by
  obtain ⟨s, s', z, z', hs, hs', htokens, hz, hends, -⟩ := h
  cases s with
  | nil => exact absurd (current_of_upcoming hs ▸ hends) hc
  | cons t s =>
    cases s with
    | nil => rw [current_of_upcoming (advance_upcoming hs), following_of_upcoming hs]
    | cons u s => rw [current_of_upcoming (advance_upcoming hs), following_of_upcoming hs]

theorem le_remaining (h : Abreast T r r' k c c') : k ≤ c.remaining ∧ k ≤ c'.remaining := by
  obtain ⟨s, s', z, z', hs, hs', htokens, -, -, hk⟩ := h
  have hlen := congrArg List.length hs
  have hlen' := congrArg List.length hs'
  have := htokens.length_eq
  simp only [upcoming, List.length_append, List.length_cons, List.length_nil] at hlen hlen'
  unfold remaining
  omega

end Abreast

end Cursor

open Cursor

namespace Parse
variable {α β γ δ : Type} {T : Token → Token → Prop} {r r' : List Token} {k u w : Nat}
  {c c' : Cursor}

/-- Two outcomes agree: both are values of a relation, before tokens that are still alike for at
most a number of tokens, or both are faults with the same demand. -/
def Agree (T : Token → Token → Prop) (r r' : List Token) (V : α → β → Prop) (u : Nat) :
    EStateM.Result SyntaxFault Cursor α → EStateM.Result SyntaxFault Cursor β → Prop
  | .ok x d, .ok y d' => V x y ∧ ∃ j ≤ u, Abreast T r r' j d d'
  | .error e d, .error e' d' =>
    e'.demand = e.demand ∧ T e.found e'.found ∧ ∃ j, Abreast T r r' j d d'
  | _, _ => False

theorem takeWhile_append_of_head {p : α → Bool} {s q : List α} (hq : ∀ t ∈ q.head?, ¬ p t = true) :
    (s ++ q).takeWhile p = s.takeWhile p ∧ (s ++ q).dropWhile p = s.dropWhile p ++ q := by
  induction s with
  | nil =>
    cases q with
    | nil => exact ⟨rfl, rfl⟩
    | cons t q =>
      have ht := hq t rfl
      exact ⟨by rw [List.nil_append, List.takeWhile_cons_of_neg ht]; rfl,
        by rw [List.nil_append, List.dropWhile_cons_of_neg ht]; rfl⟩
  | cons t s ih =>
    by_cases ht : p t
    · rw [List.cons_append, List.takeWhile_cons_of_pos ht, List.takeWhile_cons_of_pos ht,
        List.dropWhile_cons_of_pos ht, List.dropWhile_cons_of_pos ht, ih.1, ih.2]
      exact ⟨rfl, rfl⟩
    · rw [List.cons_append, List.takeWhile_cons_of_neg ht, List.takeWhile_cons_of_neg ht,
        List.dropWhile_cons_of_neg ht, List.dropWhile_cons_of_neg ht]
      exact ⟨rfl, rfl⟩

theorem Agree.mono {V : α → β → Prop} {x : EStateM.Result SyntaxFault Cursor α}
    {y : EStateM.Result SyntaxFault Cursor β} (h : Agree T r r' V u x y) (hw : u ≤ w) :
    Agree T r r' V w x y := by
  cases x <;> cases y
  case ok.ok =>
    obtain ⟨hv, j, hj, rest⟩ := h
    exact ⟨hv, j, Nat.le_trans hj hw, rest⟩
  all_goals exact h

theorem agree_pure {V : α → β → Prop} {x : α} {y : β} (h : Abreast T r r' k c c') (hv : V x y)
    (hk : k ≤ u) : Agree T r r' V u ((pure x : Parse α) c) ((pure y : Parse β) c') :=
  ⟨hv, k, hk, h⟩

theorem agree_refuse {V : α → β → Prop} (demand : Demand) (h : Abreast T r r' k c c') :
    Agree T r r' V u ((refuse demand : Parse α) c) ((refuse demand : Parse β) c') :=
  ⟨rfl, h.current, k, h⟩

/-- Both runs go on where both return, the first with what it is known to return. -/
theorem agree_bind_ok {V : α → β → Prop} {W : γ → δ → Prop} {p : Parse α} {q : Parse β}
    {f : α → Parse γ} {g : β → Parse δ} (h : Agree T r r' V u (p c) (q c'))
    (hf : ∀ {x y j d d'}, p c = .ok x d → V x y → j ≤ u → Abreast T r r' j d d' →
      Agree T r r' W w (f x d) (g y d')) :
    Agree T r r' W w ((p >>= f) c) ((q >>= g) c') := by
  cases hp : p c with
  | ok x d =>
    cases hq : q c' with
    | ok y d' =>
      rw [hp, hq] at h
      obtain ⟨hv, j, hj, rest⟩ := h
      rw [bind_of_ok hp, bind_of_ok hq]
      exact hf hp hv hj rest
    | error e d' => rw [hp, hq] at h; exact h.elim
  | error e d =>
    cases hq : q c' with
    | ok y d' => rw [hp, hq] at h; exact h.elim
    | error e' d' =>
      rw [hp, hq] at h
      rw [bind_of_error hp, bind_of_error hq]
      exact h

theorem agree_bind {V : α → β → Prop} {W : γ → δ → Prop} {p : Parse α} {q : Parse β}
    {f : α → Parse γ} {g : β → Parse δ} (h : Agree T r r' V u (p c) (q c'))
    (hf : ∀ {x y j d d'}, V x y → j ≤ u → Abreast T r r' j d d' →
      Agree T r r' W w (f x d) (g y d')) :
    Agree T r r' W w ((p >>= f) c) ((q >>= g) c') :=
  agree_bind_ok h fun _ => hf

/-- Both runs return a node that ends where they stand. -/
theorem agree_node {V : α → β → Prop} {t t' : Token} {f : Origin → α} {g : Origin → β}
    (h : Abreast T r r' k c c') (hv : ∀ o o', V (f o) (g o')) (hk : k ≤ u) :
    Agree T r r' V u ((originFrom t >>= fun o => pure (f o)) c)
      ((originFrom t' >>= fun o => pure (g o)) c') :=
  ⟨hv _ _, k, hk, h⟩

theorem not_ends {k₀ : TokenKind} (h : c.kind = k₀) (hne : k₀ ∉ [.semicolon, .endOfInput]) :
    ¬ c.current.Ends := by
  rintro (he | he) <;> rw [← h, Cursor.kind, he] at hne <;> simp at hne

theorem not_ends_of_mem {kinds : List TokenKind} (h : c.kind ∈ kinds)
    (hne : ∀ k₀ ∈ kinds, k₀ ∉ [.semicolon, .endOfInput]) : ¬ c.current.Ends :=
  not_ends rfl (hne _ h)

theorem agree_advance (h : Abreast T r r' k c c') (hc : ¬ c.current.Ends) :
    Agree T r r' T (k - 1) (advance c) (advance c') :=
  ⟨h.current, _, Nat.le_refl _, h.advance hc⟩

section
variable (unseen : Unseen T)
include unseen

theorem agree_expect {k₀ : TokenKind} (hne : k₀ ∉ [.semicolon, .endOfInput])
    (h : Abreast T r r' k c c') : Agree T r r' T (k - 1) (expect k₀ c) (expect k₀ c') := by
  rw [expect_apply, expect_apply, h.kind unseen]
  split
  next hk => exact agree_advance h (not_ends hk hne)
  next => exact agree_refuse _ h

theorem agree_string (h : Abreast T r r' k c c') :
    Agree T r r' (SameBare StringValue.mapOrigins) (k - 1) (string c) (string c') := by
  unfold string
  rw [bind_current, bind_current, unseen.kind h.current]
  have ht := h.current
  generalize hk : c.current.kind = k₀
  split
  · exact agree_bind (agree_advance h (not_ends hk (by decide))) fun _ hj h =>
      agree_pure h (congrArg StringValue.identifier (unseen.identifier ht)) hj
  · exact agree_bind (agree_advance h (not_ends hk (by decide))) fun _ hj h =>
      agree_pure h (congrArg StringValue.unicodeString (unseen.unicodeString ht)) hj
  · exact agree_refuse _ h

theorem agree_typeDesc (h : Abreast T r r' k c c') :
    Agree T r r' (SameBare TypeDesc.mapOrigins) (k - 1) (typeDesc c) (typeDesc c') :=
  agree_bind (agree_expect unseen (by decide) h) fun _ h₁ h =>
    agree_bind (agree_string unseen h) fun same h₂ h =>
      agree_bind (agree_expect unseen (by decide) h) fun _ h₃ h =>
        agree_node h (fun _ _ => congrArg (TypeDesc.mk default) same) (by omega)

theorem agree_fycoide (h : Abreast T r r' k c c') :
    Agree T r r' (SameBare Fycoide.mapOrigins) (k - 1) (fycoide c) (fycoide c') :=
  agree_bind (agree_expect unseen (by decide) h) fun _ h₁ h =>
    agree_bind (agree_string unseen h) fun same h₂ h =>
      agree_bind (agree_expect unseen (by decide) h) fun _ h₃ h =>
        agree_node h (fun _ _ => congrArg (Fycoide.mk default) same) (by omega)

omit unseen in
theorem takeKinds_of_upcoming {kinds : List TokenKind} {s : List Token} {z : Token}
    (h : c.upcoming = s ++ z :: r) (hz : z.kind ∉ kinds) :
    ∃ d, takeKinds kinds c = .ok (s.takeWhile fun t => decide (t.kind ∈ kinds)) d ∧
      d.upcoming = (s.dropWhile fun t => decide (t.kind ∈ kinds)) ++ z :: r := by
  obtain ⟨e, pass, he⟩ := passes_of_upcoming h
  have hhead : ∀ t ∈ e.ahead.head?, ¬ decide (t.kind ∈ kinds) = true := by
    intro t ht
    rw [upcoming] at he
    generalize e.ahead = q at he ht
    cases q with
    | nil => cases ht
    | cons u us =>
      cases ht
      rw [(List.cons.inj he).1]
      simpa using hz
  obtain ⟨htake, hdrop⟩ := takeWhile_append_of_head (s := s) hhead
  have taken : takeKinds kinds c = .ok ((s ++ e.ahead).takeWhile fun t => decide (t.kind ∈ kinds))
      ⟨((s ++ e.ahead).takeWhile fun t => decide (t.kind ∈ kinds)).reverse ++ c.before,
        (s ++ e.ahead).dropWhile fun t => decide (t.kind ∈ kinds), c.stop⟩ := by
    rw [← pass.ahead]
    rfl
  refine ⟨_, by rw [taken, htake], ?_⟩
  rw [upcoming, hdrop, List.append_assoc, ← pass.stop, ← he]
  rfl

/-- Two runs take alike tokens of given kinds. -/
theorem agree_takeKinds {kinds : List TokenKind} (h : Abreast T r r' k c c')
    (hne : ∀ k₀ ∈ kinds, k₀ ∉ [.semicolon, .endOfInput]) :
    Agree T r r' (List.Forall₂ T) k (takeKinds kinds c) (takeKinds kinds c') := by
  obtain ⟨s, s', z, z', hs, hs', htokens, hz, hends, rfl⟩ := h
  have hstop : z.kind ∉ kinds := fun hmem => by
    have := hne _ hmem
    rcases hends with he | he <;> simp [he] at this
  obtain ⟨d, htake, hd⟩ := takeKinds_of_upcoming hs hstop
  obtain ⟨d', htake', hd'⟩ := takeKinds_of_upcoming hs' (by rwa [unseen.kind hz])
  rw [htake, htake']
  obtain ⟨htaken, hdrop⟩ := unseen.takeWhile htokens kinds
  exact ⟨htaken, _, List.length_dropWhile_le _ _, _, _, z, z', hd, hd', hdrop, hz, hends, rfl⟩

theorem agree_pointerExpression (h : Abreast T r r' k c c') :
    Agree T r r' (SameBare PointerExpression.mapOrigins) (k - 1) (pointerExpression c)
      (pointerExpression c') := by
  have term {t t' : Token} (ht : T t t') :
      SameBare PointerTerm.mapOrigins t.toPointerTerm t'.toPointerTerm :=
    toPointerTerm_bare (unseen.kind ht) (unseen.text ht)
  refine agree_bind (agree_expect unseen (by decide) h) fun _ h₁ h =>
    agree_bind (agree_takeKinds unseen h (by decide)) fun taken h₂ h => ?_
  cases taken with
  | nil => exact agree_refuse _ h
  | @cons t t' ts ts' ht hts =>
    have rest : List.Forall₂ (SameBare PointerTerm.mapOrigins) (ts.map toPointerTerm)
        (ts'.map toPointerTerm) :=
      List.forall₂_map_left_iff.2 (List.forall₂_map_right_iff.2 (hts.imp fun _ _ => term))
    exact agree_bind (agree_expect unseen (by decide) h) fun _ h₃ h =>
      agree_node h (fun _ _ => PointerExpression.sameBare (term ht) rest) (by omega)

theorem agree_pointerId (h : Abreast T r r' k c c') :
    Agree T r r' (SameBare PointerId.mapOrigins) (k - 1) (pointerId c) (pointerId c') := by
  unfold pointerId
  rw [bind_kind, bind_kind, h.kind unseen]
  split
  next hk =>
    exact agree_bind (agree_advance h (not_ends_of_mem hk (by decide))) fun ht hj h =>
      agree_pure h (congrArg PointerId.number (unseen.number ht)) hj
  next =>
    split
    next =>
      exact agree_bind (agree_pointerExpression unseen h) fun same hj h =>
        agree_pure h (congrArg PointerId.expression same) hj
    next => exact agree_refuse _ h

theorem agree_pointer (h : Abreast T r r' k c c') :
    Agree T r r' (SameBare Pointer.mapOrigins) (k - 1) (pointer c) (pointer c') :=
  agree_bind (agree_expect unseen (by decide) h) fun _ h₁ h =>
    agree_bind (agree_pointerId unseen h) fun same h₂ h =>
      agree_node h (fun _ _ => congrArg (Pointer.mk default) same) (by omega)

theorem agree_pointerRef (h : Abreast T r r' k c c') :
    Agree T r r' (SameBare PointerRef.mapOrigins) (k - 1) (pointerRef c) (pointerRef c') :=
  agree_bind (agree_expect unseen (by decide) h) fun _ h₁ h =>
    agree_bind (agree_pointerId unseen h) fun same h₂ h =>
      agree_node h (fun _ _ => congrArg (PointerRef.mk default) same) (by omega)

/-! ### Gac strings -/

/-- Two routines agree wherever no more than a number of tokens are ahead. -/
def AgreeTo (T : Token → Token → Prop) (r r' : List Token) (V : α → β → Prop) (k : Nat)
    (p : Parse α) (q : Parse β) : Prop :=
  ∀ ⦃j c c'⦄, j ≤ k → Abreast T r r' j c c' → Agree T r r' V j (p c) (q c')

omit unseen in
theorem agree_nested {V : α → β → Prop} {inner : Nesting → Parse α} {inner' : Nesting → Parse β}
    (n : Nesting) (hin : ∀ n, AgreeTo T r r' V k (inner n) (inner' n)) :
    AgreeTo T r r' V k (nested n inner) (nested n inner') := by
  intro j c c' hj h
  unfold nested
  split
  · exact agree_refuse _ h
  · exact hin _ hj h

theorem agree_gacStemWith {inner inner' : Nesting → Parse GacString} (n : Nesting)
    (hin : ∀ n, AgreeTo T r r' (SameBare GacString.mapOrigins) (k - 1) (inner n) (inner' n))
    (h : Abreast T r r' k c c') :
    Agree T r r' (SameBare GacStem.mapOrigins) (k - 1) (gacStemWith inner n c)
      (gacStemWith inner' n c') := by
  have name {t t' : Token} (ht : T t t') :
      SameBare GacStem.mapOrigins (.identifier t.toIdentifier) (.identifier t'.toIdentifier) := by
    simp only [SameBare, GacStem.mapOrigins, unseen.identifier ht]
  have operator {t t' : Token} (ht : T t t') :
      SameBare GacStem.mapOrigins (.operator t.toOperator) (.operator t'.toOperator) := by
    simp only [SameBare, GacStem.mapOrigins, unseen.operator ht]
  unfold gacStemWith
  simp only [bind_current, bind_get, unseen.kind h.current]
  generalize hk : c.current.kind = k₀
  split
  · refine agree_bind (agree_fycoide unseen h) fun same hj h => agree_pure h ?_ hj
    simp only [SameBare, GacStem.mapOrigins, same]
  · refine agree_bind (agree_pointerRef unseen h) fun same hj h => agree_pure h ?_ hj
    simp only [SameBare, GacStem.mapOrigins, same]
  · have hc := not_ends hk (by decide)
    have hnext := h.following hc
    have habreast := h.advance hc
    simp only [bind_advance, unseen.kind hnext]
    cases hmark : PrefixMarker.ofKind? c.following.kind with
    | none => exact agree_pure habreast (name h.current) (Nat.le_refl _)
    | some marker =>
      have hmarks : c.following.kind ∈ [.equals, .prefixMark] := by
        generalize c.following.kind = k₁ at hmark
        cases k₁ <;> cases hmark <;> decide
      rw [unseen.touches h.current hnext (.inl ⟨hk, hmarks⟩)]
      cases c.current.touches c.following with
      | false => exact agree_pure habreast (name h.current) (Nat.le_refl _)
      | true =>
        have hcurrent := h.current_advance hc
        have hmem : c.advance.kind ∈ [.equals, .prefixMark] := by rwa [Cursor.kind, hcurrent]
        refine agree_bind (agree_advance habreast (not_ends_of_mem hmem (by decide)))
          fun _ hj h' => agree_node h' (fun _ _ => ?_) (by omega)
        have same : Identifier.mapOrigins .bare () _ = _ := unseen.identifier h.current
        simp only [SameBare, GacStem.mapOrigins, GacPrefix.mapOrigins, same]
        rfl
  · refine agree_bind (agree_advance h (not_ends hk (by decide))) fun _ h₁ h =>
      agree_bind (agree_expect unseen (by decide) h) fun ht h₂ h =>
        agree_node h (fun _ _ => ?_) (by omega)
    have same : Identifier.mapOrigins .bare () _ = _ := unseen.identifier ht
    simp only [SameBare, GacStem.mapOrigins, GacSynonym.mapOrigins, same]
    rfl
  · refine agree_bind (agree_advance h (not_ends hk (by decide))) fun _ h₁ h =>
      agree_bind (agree_nested n hin h₁ h) fun same h₂ h =>
        agree_bind (agree_expect unseen (by decide) h) fun _ h₃ h =>
          agree_node h (fun _ _ => ?_) (by omega)
    simp only [SameBare, GacStem.mapOrigins, GacNested.mapOrigins, same]
    rfl
  · cases hmark : SuffixMarker.ofKind? k₀ with
    | some marker =>
      have hsign : k₀ ∈ [.minus, .plus] := by cases k₀ <;> cases hmark <;> decide
      have hmem : c.kind ∈ [.minus, .plus] := by rwa [Cursor.kind, hk]
      have hc := not_ends_of_mem hmem (by decide)
      have hnext := h.following hc
      have habreast := h.advance hc
      simp only [bind_advance, unseen.kind hnext]
      by_cases hname : c.following.kind = .identifier
      · rw [unseen.touches h.current hnext (.inr ⟨hk ▸ hsign, hname⟩)]
        have hcurrent := h.current_advance hc
        split
        · refine agree_bind (agree_advance habreast
            (not_ends (show c.advance.kind = .identifier by rw [Cursor.kind, hcurrent, hname])
              (by decide)))
            fun _ hj h => agree_node h (fun _ _ => ?_) (by omega)
          have same : Identifier.mapOrigins .bare () _ = _ := unseen.identifier hnext
          simp only [SameBare, GacStem.mapOrigins, GacSuffix.mapOrigins, same]
          rfl
        · exact agree_pure habreast (operator h.current) (Nat.le_refl _)
      · rw [if_neg fun hne => hname hne.1, if_neg fun hne => hname hne.1]
        exact agree_pure habreast (operator h.current) (Nat.le_refl _)
    | none =>
      by_cases hmem : k₀ ∈ TokenKind.bareOperators
      · simp only [if_pos hmem]
        exact agree_bind (agree_advance h (not_ends_of_mem (show c.kind ∈ _ from hk ▸ hmem)
          (by decide))) fun _ hj h' => agree_pure h' (operator h.current) hj
      · simp only [if_neg hmem]
        exact agree_refuse _ h

omit unseen in
theorem pos_of_mem {kinds : List TokenKind} (hne : ∀ k₀ ∈ kinds, k₀ ∉ [.semicolon, .endOfInput])
    (h : Abreast T r r' k c c') (hk : c.kind ∈ kinds) : 0 < k := by
  refine Nat.pos_of_ne_zero fun h₀ => not_ends_of_mem hk hne ?_
  subst h₀
  exact h.ends

omit unseen in
theorem manyWithin_of_not_mem {kinds : List TokenKind} {item : Parse α} (i : Nat)
    (hk : c.kind ∉ kinds) : manyWithin kinds item i c = .ok [] c := by
  cases i with
  | zero => rfl
  | succ i =>
    rw [manyWithin, bind_kind, if_neg hk]
    rfl

theorem agree_manyWithin {V : α → β → Prop} {kinds : List TokenKind} {item : Parse α}
    {item' : Parse β} {i i' : Nat} (hne : ∀ k₀ ∈ kinds, k₀ ∉ [.semicolon, .endOfInput])
    (hitem : ∀ ⦃j c c'⦄, j ≤ k → Abreast T r r' j c c' →
      Agree T r r' V (j - 1) (item c) (item' c'))
    (hi : k ≤ i) (hi' : k ≤ i') (h : Abreast T r r' k c c') :
    Agree T r r' (List.Forall₂ V) k (manyWithin kinds item i c)
      (manyWithin kinds item' i' c') := by
  induction i generalizing i' k c c' with
  | zero =>
    have hk : c.kind ∉ kinds := fun hk => by
      have := pos_of_mem hne h hk
      omega
    rw [manyWithin_of_not_mem _ hk, manyWithin_of_not_mem _ (by rwa [h.kind unseen])]
    exact ⟨.nil, k, Nat.le_refl _, h⟩
  | succ i ih =>
    by_cases hk : c.kind ∈ kinds
    · have hpos := pos_of_mem hne h hk
      obtain ⟨i', rfl⟩ : ∃ m, i' = m + 1 := ⟨i' - 1, by omega⟩
      rw [manyWithin, manyWithin, bind_kind, bind_kind, h.kind unseen, if_pos hk, if_pos hk]
      exact agree_bind (hitem (Nat.le_refl _) h) fun hx h₁ h =>
        agree_bind (ih (fun _ _ _ hj => hitem (by omega)) (by omega) (by omega) h) fun hxs h₂ h =>
          agree_pure h (.cons hx hxs) (by omega)
    · rw [manyWithin_of_not_mem _ hk, manyWithin_of_not_mem _ (by rwa [h.kind unseen])]
      exact ⟨.nil, k, Nat.le_refl _, h⟩

omit unseen in
theorem gacStringWithin_of_not_mem (i : Nat) (n : Nesting)
    (hk : c.kind ∉ TokenKind.gacStemStarts) :
    gacStringWithin i n c = .error ⟨.gacStem, c.current⟩ c := by
  cases i with
  | zero => rfl
  | succ i =>
    have none : many TokenKind.gacStemStarts (gacStemWith (gacStringWithin i) n) c = .ok [] c :=
      manyWithin_of_not_mem _ hk
    rw [gacStringWithin, bind_current, bind_of_ok none]
    rfl

theorem agree_gacStringWithin {i i' : Nat} (n : Nesting) (hi : k ≤ i) (hi' : k ≤ i') :
    AgreeTo T r r' (SameBare GacString.mapOrigins) k (gacStringWithin i n)
      (gacStringWithin i' n) := by
  have hne : ∀ k₀ ∈ TokenKind.gacStemStarts, k₀ ∉ [.semicolon, .endOfInput] := by decide
  induction i generalizing i' k n with
  | zero =>
    intro j c c' hj h
    have hk : c.kind ∉ TokenKind.gacStemStarts := fun hk => by
      have := pos_of_mem hne h hk
      omega
    rw [gacStringWithin_of_not_mem _ n hk, gacStringWithin_of_not_mem _ n (by rwa [h.kind unseen])]
    exact agree_refuse _ h
  | succ i ih =>
    intro j c c' hj h
    by_cases hk : c.kind ∈ TokenKind.gacStemStarts
    · have hpos := pos_of_mem hne h hk
      obtain ⟨i', rfl⟩ : ∃ m, i' = m + 1 := ⟨i' - 1, by omega⟩
      rw [gacStringWithin, gacStringWithin, bind_current, bind_current]
      obtain ⟨hr, hr'⟩ := h.le_remaining
      have stems : Agree T r r' (List.Forall₂ (SameBare GacStem.mapOrigins)) j
          (many TokenKind.gacStemStarts (gacStemWith (gacStringWithin i) n) c)
          (many TokenKind.gacStemStarts (gacStemWith (gacStringWithin i') n) c') := by
        refine agree_manyWithin unseen hne (fun l d d' hl habreast => ?_) hr hr' h
        exact agree_gacStemWith unseen n (fun m => ih m (by omega) (by omega)) habreast
      refine agree_bind stems fun same h₂ h => ?_
      cases same with
      | nil => exact agree_refuse _ h
      | cons first rest => exact agree_node h (fun _ _ => GacString.sameBare first rest) h₂
    · rw [gacStringWithin_of_not_mem _ n hk, gacStringWithin_of_not_mem _ n (by rwa [h.kind unseen])]
      exact agree_refuse _ h

theorem agree_gacString (n : Nesting) :
    AgreeTo T r r' (SameBare GacString.mapOrigins) k (gacString n) (gacString n) := by
  intro j c c' _ h
  obtain ⟨hr, hr'⟩ := h.le_remaining
  unfold gacString
  rw [bind_get, bind_get]
  exact agree_gacStringWithin unseen n hr hr' (Nat.le_refl _) h

/-! ### Expressions -/

theorem agree_typeWordRest (n : Nesting) {t t' : Token} (proto : Bool) :
    AgreeTo T r r' (SameBare Expression.mapOrigins) k (typeWordRest n t proto)
      (typeWordRest n t' proto) := by
  intro j c c' _ h
  let SameTarget (p q : Option Pointer) : Prop :=
    q.map (Pointer.mapOrigins .bare ()) = p.map (Pointer.mapOrigins .bare ())
  have node {x y : GacString} {p q : Option Pointer} (hx : SameBare GacString.mapOrigins x y)
      (hp : SameTarget p q) (o o' : Origin) : SameBare Expression.mapOrigins
        (if proto then .protoGacWord ⟨o, x, p⟩ else .stdGacWord ⟨o, x, p⟩)
        (if proto then .protoGacWord ⟨o', y, q⟩ else .stdGacWord ⟨o', y, q⟩) := by
    cases proto with
    | true => exact congrArg₂ (fun x p => Expression.protoGacWord ⟨default, x, p⟩) hx hp
    | false => exact congrArg₂ (fun x p => Expression.stdGacWord ⟨default, x, p⟩) hx hp
  refine agree_bind (agree_nested n (fun m => agree_gacString unseen m) (Nat.le_refl _) h)
    fun same h₁ h => agree_bind (agree_expect unseen (by decide) h) fun _ h₂ h => ?_
  rw [bind_kind, bind_kind, h.kind unseen]
  split
  · exact agree_bind (V := SameTarget) (agree_bind (agree_pointer unseen h) fun hp hj h =>
      agree_pure h (congrArg some hp) hj)
      fun hp h₃ h => agree_node h (node same hp) (by omega)
  · exact agree_bind (agree_pure (V := SameTarget) h rfl (Nat.le_refl _)) fun hp h₃ h =>
      agree_node h (node same hp) (by omega)

theorem agree_typeWord (n : Nesting) (h : Abreast T r r' k c c') :
    Agree T r r' (SameBare Expression.mapOrigins) (k - 1) (typeWord n c) (typeWord n c') := by
  rw [typeWord_apply, typeWord_apply, h.kind unseen]
  split
  next hk =>
    exact agree_typeWordRest unseen n true (Nat.le_refl _) (h.advance (not_ends hk (by decide)))
  next =>
    exact agree_bind (agree_expect unseen (by decide) h) fun _ hj h =>
      (agree_typeWordRest unseen n false (Nat.le_refl _) h).mono hj

theorem agree_expression (n : Nesting) (h : Abreast T r r' k c c') :
    Agree T r r' (SameBare Expression.mapOrigins) (k - 1) (expression n c) (expression n c') := by
  unfold expression
  rw [bind_kind, bind_kind, h.kind unseen]
  generalize c.kind = k₀
  split
  · exact agree_bind (agree_typeDesc unseen h) fun same hj h =>
      agree_pure h (congrArg Expression.typeDesc same) hj
  · exact agree_typeWord unseen n h
  · exact agree_typeWord unseen n h
  · exact agree_bind (agree_fycoide unseen h) fun same hj h =>
      agree_pure h (congrArg Expression.fycoide same) hj
  · exact agree_bind (agree_pointerRef unseen h) fun same hj h =>
      agree_pure h (congrArg Expression.pointerRef same) hj
  · exact agree_refuse _ h

/-! ### Relations -/

theorem agree_includeFile (h : Abreast T r r' k c c') :
    Agree T r r' (SameBare IncludeFile.mapOrigins) (k - 1) (includeFile c) (includeFile c') := by
  unfold includeFile
  rw [bind_current, bind_current, unseen.kind h.current]
  have ht := h.current
  generalize hk : c.current.kind = k₀
  split
  · exact agree_bind (agree_advance h (not_ends hk (by decide))) fun _ hj h => agree_pure h
      (congrArg (fun text : Text => IncludeFile.quotedString ⟨default, text.tail.dropLast⟩)
        (unseen.text ht)) hj
  · exact agree_bind (agree_advance h (not_ends hk (by decide))) fun _ hj h =>
      agree_pure h (congrArg IncludeFile.identifier (unseen.identifier ht)) hj
  · exact agree_bind (agree_advance h (not_ends hk (by decide))) fun _ hj h =>
      agree_pure h (congrArg IncludeFile.unicodeString (unseen.unicodeString ht)) hj
  · exact agree_refuse _ h

theorem agree_includeBlock (h : Abreast T r r' k c c') :
    Agree T r r' (SameBare Include.mapOrigins) (k - 1) (includeBlock c) (includeBlock c') :=
  agree_bind (agree_expect unseen (by decide) h) fun _ h₁ h =>
    agree_bind (agree_includeFile unseen h) fun same h₂ h =>
      agree_bind (agree_expect unseen (by decide) h) fun _ h₃ h =>
        agree_node h (fun _ _ => congrArg (Include.mk default) same) (by omega)

section
variable {body body' : Nesting → Parse BlockBody} (n : Nesting)

theorem agree_bracedWith
    (hbody : ∀ n, AgreeTo T r r' (SameBare BlockBody.mapOrigins) k (body n) (body' n)) :
    AgreeTo T r r' (SameBare RightSide.mapOrigins) k (bracedWith body n) (bracedWith body' n) := by
  intro j c c' hj h
  unfold bracedWith
  rw [bind_kind, bind_kind, h.kind unseen]
  split
  · exact agree_pure h rfl (Nat.le_refl _)
  · refine agree_bind (hbody n hj h) fun same hj h => agree_pure h ?_ hj
    simp only [SameBare, RightSide.mapOrigins, same]

theorem agree_relationWith
    (hbody : ∀ n, AgreeTo T r r' (SameBare BlockBody.mapOrigins) (k - 1) (body n) (body' n))
    {left left' : Expression} (hleft : SameBare Expression.mapOrigins left left')
    (h : Abreast T r r' k c c') :
    Agree T r r' (SameBare Relation.mapOrigins) (k - 1) (relationWith body n left c)
      (relationWith body' n left' c') := by
  have node (kind : RelationKind) (o o' : Origin) {x y : RightSide}
      (hright : SameBare RightSide.mapOrigins x y) :
      SameBare Relation.mapOrigins ⟨kind, o, left, x⟩ ⟨kind, o', left', y⟩ := by
    simp only [SameBare, Relation.mapOrigins]
    exact congrArg₂ (Relation.mk kind default) hleft hright
  unfold relationWith
  rw [bind_kind, bind_kind, h.kind unseen]
  cases hop : RelationKind.ofToken? c.kind with
  | none => exact agree_refuse _ h
  | some kind =>
    have hc : ¬ c.current.Ends := by
      refine not_ends rfl ?_
      generalize c.kind = k₀ at hop
      cases k₀ <;> cases hop <;> decide
    refine agree_bind (agree_advance h hc) fun {_ _ j d d'} _ h₁ h => ?_
    rw [bind_kind, bind_kind, h.kind unseen]
    split
    next hk =>
      exact agree_bind (agree_advance h (not_ends hk (by decide))) fun _ h₂ h =>
        agree_bind (agree_nested n (fun m => agree_bracedWith unseen m hbody) (by omega) h)
          fun same h₃ h => agree_bind (agree_expect unseen (by decide) h) fun _ h₄ h =>
            agree_pure h (node kind _ _ same) (by omega)
    next =>
      refine agree_bind (agree_expression unseen n h) fun same h₂ h =>
        agree_pure h (node kind _ _ ?_) (by omega)
      simp only [SameBare, RightSide.mapOrigins, same]

theorem agree_elementWith
    (hbody : ∀ n, AgreeTo T r r' (SameBare BlockBody.mapOrigins) (k - 1) (body n) (body' n))
    (h : Abreast T r r' k c c') :
    Agree T r r' (SameBare Element.mapOrigins) (k - 1) (elementWith body n c)
      (elementWith body' n c') := by
  unfold elementWith
  rw [bind_kind, bind_kind, h.kind unseen]
  split
  · refine agree_bind (agree_includeBlock unseen h) fun same hj h => agree_pure h ?_ hj
    simp only [SameBare, Element.mapOrigins, same]
  · refine agree_bind (agree_expression unseen n h) fun {_ _ j d d'} left h₁ h => ?_
    rw [bind_kind, bind_kind, h.kind unseen]
    split
    · have hbody' (m : Nesting) :
          AgreeTo T r r' (SameBare BlockBody.mapOrigins) (j - 1) (body m) (body' m) :=
        fun _ _ _ hi => hbody m (by omega)
      refine agree_bind (agree_relationWith unseen n hbody' left h) fun same h₂ h =>
        agree_pure h ?_ (by omega)
      simp only [SameBare, Element.mapOrigins, same]
    · refine agree_pure h ?_ h₁
      simp only [SameBare, Element.mapOrigins, left]

end

/-! ### Block bodies -/

/-- Elements that are equal when bare, with a comma behind both or behind neither. -/
def SameFurther (x y : List Element × Bool) : Prop :=
  List.Forall₂ (SameBare Element.mapOrigins) x.1 y.1 ∧ y.2 = x.2

omit unseen in
theorem sameFurther_nil (comma : Bool) : SameFurther ([], comma) ([], comma) := ⟨.nil, rfl⟩

omit unseen in
theorem furtherElements_of_ne {element : Parse Element} (i : Nat) (hk : c.kind ≠ .comma) :
    furtherElements element i c = .ok ([], false) c := by
  cases i with
  | zero => rfl
  | succ i =>
    have none : accept [.comma] c = .ok false c := by simp [accept_apply, hk]
    rw [furtherElements, bind_of_ok none]
    rfl

theorem agree_furtherElements {element element' : Parse Element} {i i' : Nat}
    (helement : ∀ ⦃j c c'⦄, j ≤ k → Abreast T r r' j c c' →
      Agree T r r' (SameBare Element.mapOrigins) (j - 1) (element c) (element' c'))
    (hi : k ≤ i) (hi' : k ≤ i') (h : Abreast T r r' k c c') :
    Agree T r r' SameFurther k (furtherElements element i c) (furtherElements element' i' c') := by
  have hne : ∀ k₀ ∈ [TokenKind.comma], k₀ ∉ [.semicolon, .endOfInput] := by decide
  induction i generalizing i' k c c' with
  | zero =>
    have hk : c.kind ≠ .comma := fun hk => by
      have := pos_of_mem hne h (by rw [hk]; exact List.mem_singleton_self _)
      omega
    rw [furtherElements_of_ne _ hk, furtherElements_of_ne _ (by rwa [h.kind unseen])]
    exact ⟨sameFurther_nil false, k, Nat.le_refl _, h⟩
  | succ i ih =>
    by_cases hk : c.kind = .comma
    · have hpos := pos_of_mem hne h (by rw [hk]; exact List.mem_singleton_self _)
      obtain ⟨i', rfl⟩ : ∃ m, i' = m + 1 := ⟨i' - 1, by omega⟩
      have passed {c : Cursor} (hk : c.kind = .comma) : accept [.comma] c = .ok true c.advance := by
        simp [accept_apply, hk]
      have habreast := h.advance (not_ends hk (by decide))
      rw [furtherElements, furtherElements, bind_of_ok (passed hk),
        bind_of_ok (passed (by rwa [h.kind unseen])), if_pos rfl, if_pos rfl, bind_kind, bind_kind,
        habreast.kind unseen]
      split
      · exact agree_pure habreast (sameFurther_nil true) (by omega)
      · exact agree_bind (helement (by omega) habreast) fun first h₁ h =>
          agree_bind (ih (fun _ _ _ hj => helement (by omega)) (by omega) (by omega) h)
            fun same h₂ h => agree_pure h ⟨.cons first same.1, same.2⟩ (by omega)
    · rw [furtherElements_of_ne _ hk, furtherElements_of_ne _ (by rwa [h.kind unseen])]
      exact ⟨sameFurther_nil false, k, Nat.le_refl _, h⟩

omit unseen in
theorem blockBodyWithin_of_ends (i : Nat) (n : Nesting) (hc : c.current.Ends) :
    blockBodyWithin i n c = .error ⟨.expression, c.current⟩ c := by
  cases i with
  | zero => rfl
  | succ i =>
    have hk : c.kind = .semicolon ∨ c.kind = .endOfInput := hc
    have refused : elementWith (blockBodyWithin i) n c = .error ⟨.expression, c.current⟩ c := by
      unfold elementWith expression
      rw [bind_kind, if_neg (by rcases hk with hk | hk <;> rw [hk] <;> decide)]
      exact bind_of_error (by rw [bind_kind]; rcases hk with hk | hk <;> rw [hk] <;> rfl)
    rw [blockBodyWithin, bind_current, bind_of_error refused]

theorem agree_blockBodyWithin {i i' : Nat} (n : Nesting) (hi : k ≤ i) (hi' : k ≤ i') :
    AgreeTo T r r' (SameBare BlockBody.mapOrigins) k (blockBodyWithin i n)
      (blockBodyWithin i' n) := by
  have refused {i i' : Nat} {n : Nesting} {c c' : Cursor} (h : Abreast T r r' 0 c c') :
      Agree T r r' (SameBare BlockBody.mapOrigins) 0 (blockBodyWithin i n c)
        (blockBodyWithin i' n c') := by
    have hends : c'.current.Ends := by
      have := h.ends
      rwa [Token.Ends, ← unseen.kind h.current] at this
    rw [blockBodyWithin_of_ends _ n h.ends, blockBodyWithin_of_ends _ n hends]
    exact agree_refuse _ h
  induction i generalizing i' k n with
  | zero =>
    intro j c c' hj h
    obtain rfl : j = 0 := by omega
    exact refused h
  | succ i ih =>
    intro j c c' hj h
    rcases Nat.eq_zero_or_pos j with rfl | hpos
    · exact refused h
    obtain ⟨i', rfl⟩ : ∃ m, i' = m + 1 := ⟨i' - 1, by omega⟩
    have element ⦃l : Nat⦄ ⦃d d' : Cursor⦄ (hl : l ≤ j) (h : Abreast T r r' l d d') :
        Agree T r r' (SameBare Element.mapOrigins) (l - 1) (elementWith (blockBodyWithin i) n d)
          (elementWith (blockBodyWithin i') n d') :=
      agree_elementWith unseen n (fun m => ih m (by omega) (by omega)) h
    rw [blockBodyWithin, blockBodyWithin, bind_current, bind_current]
    refine agree_bind (element (Nat.le_refl _) h) fun {_ _ l d d'} first h₁ h => ?_
    rw [bind_get, bind_get]
    obtain ⟨hr, hr'⟩ := h.le_remaining
    have further := agree_furtherElements unseen (fun _ _ _ hm => element (by omega)) hr hr' h
    refine agree_bind further fun {x y m e e'} same h₂ h => ?_
    obtain ⟨xs, trailingComma⟩ := x
    obtain ⟨ys, trailingComma'⟩ := y
    obtain ⟨rest, rfl⟩ : List.Forall₂ (SameBare Element.mapOrigins) xs ys ∧
      trailingComma' = trailingComma := same
    dsimp only
    rw [bind_kind, bind_kind, h.kind unseen]
    split
    · exact agree_node h (fun _ _ => BlockBody.sameBare _ first rest) (by omega)
    · exact agree_refuse _ h

theorem agree_blockBody (n : Nesting) :
    AgreeTo T r r' (SameBare BlockBody.mapOrigins) k (blockBody n) (blockBody n) := by
  intro j c c' _ h
  obtain ⟨hr, hr'⟩ := h.le_remaining
  unfold blockBody
  rw [bind_get, bind_get]
  exact agree_blockBodyWithin unseen n hr hr' (Nat.le_refl _) h

/-! ### Statements -/

theorem agree_functionBlock (n : Nesting) (h : Abreast T r r' k c c') :
    Agree T r r' (SameBare FunctionBlock.mapOrigins) (k - 1) (functionBlock n c)
      (functionBlock n c') := by
  unfold functionBlock
  rw [bind_kind, bind_kind, h.kind unseen]
  split
  · exact agree_bind (agree_includeBlock unseen h) fun same hj h =>
      agree_pure h (congrArg FunctionBlock.inclusion same) hj
  · exact agree_bind (agree_expression unseen n h) fun left h₁ h =>
      agree_bind (agree_relationWith unseen n (fun m => agree_blockBody unseen m) left h)
        fun same h₂ h => agree_pure h (congrArg FunctionBlock.relation same) (by omega)

/-- A statement that cannot be read here cannot be read there either, with the same demand at the
same place. -/
theorem statement_fails (n : Nesting) {fault : SyntaxFault} {d : Cursor}
    (h : Abreast T r r' k c c') (hf : statement n c = .error fault d) :
    ∃ fault' d', statement n c' = .error fault' d' ∧ fault'.demand = fault.demand ∧
      T fault.found fault'.found ∧ ∃ j, Abreast T r r' j d d' := by
  unfold statement at hf ⊢
  rw [bind_current] at hf ⊢
  rw [unseen.kind h.current]
  generalize c.current.kind = k₀ at hf
  split at hf
  next => cases hf
  next => cases hf
  next =>
    have block := agree_functionBlock unseen n h
    rcases bind_error hf with hb | ⟨x, e, hb, hf⟩
    · rw [hb] at block
      cases hb' : functionBlock n c' with
      | ok y e' => rw [hb'] at block; exact block.elim
      | error fault' d' =>
        rw [hb'] at block
        exact ⟨fault', d', bind_of_error hb', block⟩
    · rw [hb] at block
      cases hb' : functionBlock n c' with
      | error fault' d' => rw [hb'] at block; exact block.elim
      | ok y e' =>
        rw [hb'] at block
        obtain ⟨-, j, -, habreast⟩ := block
        have refused {c : Cursor} (hk : c.kind ≠ .semicolon) :
            expect .semicolon c = .error ⟨.token .semicolon, c.current⟩ c := by
          rw [expect_apply, if_neg hk]
        rcases bind_error hf with hs | ⟨z, e₂, -, hf⟩
        · have hk : e.kind ≠ .semicolon := fun hk => by
            rw [expect_apply, if_pos hk] at hs
            cases hs
          rw [refused hk] at hs
          cases hs
          refine ⟨⟨.token .semicolon, e'.current⟩, e', ?_, rfl, habreast.current, j, habreast⟩
          rw [bind_of_ok hb']
          exact bind_of_error (refused (by rwa [habreast.kind unseen]))
        · cases hf

end

end Parse

end RelationNotation
