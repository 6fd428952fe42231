import Mathlib.Data.List.TakeWhile
import RelationNotation.Proofs.Grammar.Production
import RelationNotation.Proofs.Parse.Movement

/-!
What the parser reads is spelled as the grammar says: whenever a routine returns a part of a tree,
the tokens between the two places of the cursor spell that part. `statement_spelled` is the main
result.
-/

namespace RelationNotation

open Token

namespace Cursor

/-- The token at the end is the end of the input. -/
def Ended (c : Cursor) : Prop := c.stop.kind = .endOfInput

variable {c d : Cursor} {t : Token} {ts : List Token}

theorem Passes.ended (h : c.Passes ts d) (hc : c.Ended) : d.Ended := by
  rw [Ended, h.stop]
  exact hc

theorem Passes.eq_of_nil (h : c.Passes [] d) : d = c := by
  cases c
  cases d
  simpa using And.intro h.before (And.intro h.ahead.symm h.stop)

theorem Passes.current (h : c.Passes (t :: ts) d) : c.current = t := by
  simp [Cursor.current, h.ahead]

/-- A cursor at the end of the input has nothing ahead. -/
theorem Ended.kind_of_nil (hc : c.Ended) (h : c.ahead = []) : c.kind = .endOfInput := by
  simpa [kind, Cursor.current, h, Ended] using hc

theorem Ended.passes_current (hc : c.Ended) (h : c.kind ≠ .endOfInput) :
    c.Passes [c.current] c.advance := by
  cases ha : c.ahead with
  | nil => exact absurd (hc.kind_of_nil ha) h
  | cons t ts =>
    have ht : c.current = t := by simp [Cursor.current, ha]
    rw [ht]
    exact passes_advance ha

theorem following_eq (c : Cursor) : c.following = c.advance.current := by
  unfold following advance Cursor.current
  cases h : c.ahead <;> simp [h]

/-- The origin from a token on, once the cursor has passed that token and perhaps more. -/
theorem Passes.originFrom (h : c.Passes (t :: ts) d) :
    (⟨d.spanFrom t, []⟩ : Origin) = originOver (t :: ts) := by
  have hprev : d.previous = (t :: ts).getLastD default := by
    obtain ⟨us, u, hu⟩ := (t :: ts).eq_nil_or_concat.resolve_left (List.cons_ne_nil t ts)
    rw [List.concat_eq_append] at hu
    rw [hu] at h ⊢
    simpa using h.previous
  rw [spanFrom, hprev]
  rfl

end Cursor

namespace Parse
variable {c d : Cursor}

theorem expect_ok {k : TokenKind} {t : Token} (hk : k ≠ .endOfInput) (hc : c.Ended)
    (h : expect k c = .ok t d) : c.Passes [t] d ∧ t.kind = k := by
  rw [expect_apply] at h
  split at h
  next hkind =>
    cases h
    exact ⟨hc.passes_current (by rwa [hkind]), hkind⟩
  next => cases h

/-- Whatever a routine returns is spelled by the tokens it passes and the token behind them. -/
def Spells {α : Type} (p : Parse α) (spelled : α → List Token → Token → Prop) : Prop :=
  ∀ ⦃c d : Cursor⦄ ⦃x : α⦄, c.Ended → p c = .ok x d →
    ∃ ts, c.Passes ts d ∧ spelled x ts d.current

theorem string_spelled {x : StringValue} (hc : c.Ended) (h : string c = .ok x d) :
    ∃ t, c.Passes [t] d ∧ x.SpelledBy t := by
  simp only [string, bind_current] at h
  generalize hk : c.current.kind = k at h
  split at h
  next =>
    cases h
    exact ⟨_, hc.passes_current (by simp [Cursor.kind, hk]), .identifier hk⟩
  next =>
    cases h
    exact ⟨_, hc.passes_current (by simp [Cursor.kind, hk]), .unicodeString hk⟩
  next => cases h

theorem typeDesc_spelled : Spells typeDesc fun x ts _ => x.SpelledBy ts := by
  intro c d x hc h
  obtain ⟨o, c₁, h₁, h⟩ := bind_ok h
  obtain ⟨s, c₂, h₂, h⟩ := bind_ok h
  obtain ⟨e, c₃, h₃, h⟩ := bind_ok h
  obtain ⟨pass₁, opener⟩ := expect_ok (by decide) hc h₁
  obtain ⟨t, pass₂, string⟩ := string_spelled (pass₁.ended hc) h₂
  have pass := pass₁.trans pass₂
  obtain ⟨pass₃, closer⟩ := expect_ok (by decide) (pass.ended hc) h₃
  have pass := pass.trans pass₃
  cases h
  exact ⟨_, pass, by rw [pass.originFrom]; exact .intro opener string closer⟩

theorem fycoide_spelled : Spells fycoide fun x ts _ => x.SpelledBy ts := by
  intro c d x hc h
  obtain ⟨o, c₁, h₁, h⟩ := bind_ok h
  obtain ⟨s, c₂, h₂, h⟩ := bind_ok h
  obtain ⟨e, c₃, h₃, h⟩ := bind_ok h
  obtain ⟨pass₁, opener⟩ := expect_ok (by decide) hc h₁
  obtain ⟨t, pass₂, string⟩ := string_spelled (pass₁.ended hc) h₂
  have pass := pass₁.trans pass₂
  obtain ⟨pass₃, closer⟩ := expect_ok (by decide) (pass.ended hc) h₃
  have pass := pass.trans pass₃
  cases h
  exact ⟨_, pass, by rw [pass.originFrom]; exact .intro opener string closer⟩

theorem takeKinds_passes {kinds : List TokenKind} {ts : List Token}
    (h : takeKinds kinds c = .ok ts d) : c.Passes ts d ∧ ∀ t ∈ ts, t.kind ∈ kinds := by
  cases h
  refine ⟨⟨List.takeWhile_append_dropWhile.symm, rfl, rfl⟩, ?_⟩
  intro t ht
  simpa using List.mem_takeWhile_imp ht

theorem pointerExpression_spelled : Spells pointerExpression fun x ts _ => x.SpelledBy ts := by
  intro c d x hc h
  obtain ⟨o, c₁, h₁, h⟩ := bind_ok h
  obtain ⟨ts, c₂, h₂, h⟩ := bind_ok h
  obtain ⟨pass₁, opener⟩ := expect_ok (by decide) hc h₁
  obtain ⟨pass₂, terms⟩ := takeKinds_passes h₂
  have pass := pass₁.trans pass₂
  cases ts with
  | nil => cases h
  | cons t ts =>
    obtain ⟨e, c₃, h₃, h⟩ := bind_ok h
    obtain ⟨pass₃, closer⟩ := expect_ok (by decide) (pass.ended hc) h₃
    have pass := pass.trans pass₃
    cases h
    exact ⟨_, pass, by rw [pass.originFrom]; exact .intro opener terms closer⟩

theorem pointerId_spelled : Spells pointerId fun x ts _ => x.SpelledBy ts := by
  intro c d x hc h
  simp only [pointerId, bind_kind] at h
  split at h
  next hk =>
    cases h
    refine ⟨_, hc.passes_current fun he => ?_, .number hk⟩
    rw [he] at hk
    exact absurd hk (by decide)
  next =>
    split at h
    next =>
      obtain ⟨x, c₁, h₁, h⟩ := bind_ok h
      obtain ⟨ts, pass, spelled⟩ := pointerExpression_spelled hc h₁
      cases h
      exact ⟨ts, pass, .expression spelled⟩
    next => cases h

theorem pointer_spelled : Spells pointer fun x ts _ => x.SpelledBy ts := by
  intro c d x hc h
  obtain ⟨a, c₁, h₁, h⟩ := bind_ok h
  obtain ⟨id, c₂, h₂, h⟩ := bind_ok h
  obtain ⟨pass₁, sign⟩ := expect_ok (by decide) hc h₁
  obtain ⟨ts, pass₂, target⟩ := pointerId_spelled (pass₁.ended hc) h₂
  have pass := pass₁.trans pass₂
  cases h
  exact ⟨_, pass, by rw [pass.originFrom]; exact .intro sign target⟩

theorem pointerRef_spelled : Spells pointerRef fun x ts _ => x.SpelledBy ts := by
  intro c d x hc h
  obtain ⟨a, c₁, h₁, h⟩ := bind_ok h
  obtain ⟨id, c₂, h₂, h⟩ := bind_ok h
  obtain ⟨pass₁, sign⟩ := expect_ok (by decide) hc h₁
  obtain ⟨ts, pass₂, target⟩ := pointerId_spelled (pass₁.ended hc) h₂
  have pass := pass₁.trans pass₂
  cases h
  exact ⟨_, pass, by rw [pass.originFrom]; exact .intro sign target⟩

/-! ### Gac strings -/

/-- Reading one level deeper needs a level to be left. -/
theorem nested_spells {α : Type} {n : Nesting} {inner : Nesting → Parse α}
    {spelled : Nat → α → List Token → Token → Prop}
    (h : Spells (inner n.deeper) (spelled (n.deeper.levels + 1))) :
    Spells (nested n inner) (spelled n.levels) := by
  intro c d x hc hx
  unfold nested at hx
  split at hx
  next => cases hx
  next hlt =>
    have levels : n.levels = n.deeper.levels + 1 := by
      simp only [Nesting.levels, Nesting.deeper]
      omega
    rw [levels]
    exact h hc hx

theorem kind_ne_of_marker {k : TokenKind} {m : SuffixMarker} (h : SuffixMarker.ofKind? k = some m) :
    k ≠ .endOfInput := by
  rintro rfl
  cases h

section
variable {bracketed : GacString → List Token → Token → Prop} {inner : Nesting → Parse GacString}
  {n : Nesting}

theorem gacStemWith_spelled (hin : Spells (nested n inner) bracketed) :
    Spells (gacStemWith inner n) fun x ts next => x.SpelledWith bracketed next ts := by
  intro c d x hc h
  simp only [gacStemWith, bind_current, bind_get, Cursor.following_eq] at h
  have step (hk : c.current.kind ≠ .endOfInput) : c.Passes [c.current] c.advance :=
    hc.passes_current hk
  generalize hk : c.current.kind = k at h step
  split at h
  next =>
    obtain ⟨x, c₁, h₁, h⟩ := bind_ok h
    obtain ⟨ts, pass, spelled⟩ := fycoide_spelled hc h₁
    cases h
    exact ⟨ts, pass, .fycoide spelled⟩
  next =>
    obtain ⟨x, c₁, h₁, h⟩ := bind_ok h
    obtain ⟨ts, pass, spelled⟩ := pointerRef_spelled hc h₁
    cases h
    exact ⟨ts, pass, .pointerRef spelled⟩
  next =>
    have pass := step (by decide)
    simp only [bind_advance] at h
    generalize mark : PrefixMarker.ofKind? c.advance.current.kind = m,
      touches : c.current.touches c.advance.current = b at h
    split at h
    next marker =>
      have hm : c.advance.current.kind ≠ .endOfInput := fun he => by rw [he] at mark; cases mark
      have pass := pass.trans ((pass.ended hc).passes_current hm)
      cases h
      exact ⟨_, pass, by rw [pass.originFrom]; exact .front hk mark touches⟩
    next none =>
      cases h
      refine ⟨_, pass, .identifier hk ?_⟩
      rintro ⟨hm, hb⟩
      obtain ⟨marker, hm⟩ := Option.isSome_iff_exists.1 hm
      exact none marker (mark.symm.trans hm) (touches.symm.trans hb)
  next =>
    have pass := step (by decide)
    simp only [bind_advance] at h
    obtain ⟨t, c₁, h₁, h⟩ := bind_ok h
    obtain ⟨pass₁, kind⟩ := expect_ok (by decide) (pass.ended hc) h₁
    have pass := pass.trans pass₁
    cases h
    exact ⟨_, pass, by rw [pass.originFrom]; exact .synonym hk kind⟩
  next =>
    have pass := step (by decide)
    simp only [bind_advance] at h
    obtain ⟨y, c₁, h₁, h⟩ := bind_ok h
    obtain ⟨e, c₂, h₂, h⟩ := bind_ok h
    obtain ⟨ts, pass₁, content⟩ := hin (pass.ended hc) h₁
    have pass := pass.trans pass₁
    obtain ⟨pass₂, closer⟩ := expect_ok (by decide) (pass.ended hc) h₂
    rw [pass₂.current] at content
    have pass := pass.trans pass₂
    cases h
    exact ⟨_, pass, by rw [pass.originFrom]; exact .nested hk content closer⟩
  next =>
    generalize mark : SuffixMarker.ofKind? k = m at h
    split at h
    next marker =>
      have pass := step (kind_ne_of_marker mark)
      rw [← hk] at mark
      simp only [bind_advance] at h
      split at h
      next name =>
        have pass := pass.trans ((pass.ended hc).passes_current fun he => absurd (name.1.symm.trans he) (by decide))
        cases h
        exact ⟨_, pass, by rw [pass.originFrom]; exact .ending mark name.1 name.2⟩
      next alone =>
        cases h
        exact ⟨_, pass, .sign (by rw [mark]; rfl) alone⟩
    next =>
      split at h
      next operator =>
        have pass := step fun he => by rw [he] at operator; exact absurd operator (by decide)
        cases h
        exact ⟨_, pass, .operator (by rwa [hk])⟩
      next => cases h

theorem manyWithin_spelled {kinds : List TokenKind} {item : Parse GacStem}
    (hitem : Spells item fun x ts next => x.SpelledWith bracketed next ts)
    {c : Cursor} {k : Nat} {xs : List GacStem} (hc : c.Ended) (h : manyWithin kinds item k c = .ok xs d) :
    ∃ ts, c.Passes ts d ∧
      (xs = [] ∧ ts = [] ∨ GacStem.RowSpelledWith bracketed d.current xs ts) := by
  induction k generalizing c xs with
  | zero =>
    cases h
    exact ⟨[], .refl _, .inl ⟨rfl, rfl⟩⟩
  | succ k ih =>
    simp only [manyWithin, bind_kind] at h
    split at h
    next =>
      obtain ⟨x, c₁, h₁, h⟩ := bind_ok h
      obtain ⟨ys, c₂, h₂, h⟩ := bind_ok h
      cases h
      obtain ⟨ts, pass₁, stem⟩ := hitem hc h₁
      obtain ⟨us, pass₂, stems⟩ := ih (pass₁.ended hc) h₂
      refine ⟨ts ++ us, pass₁.trans pass₂, .inr ?_⟩
      rcases stems with ⟨rfl, rfl⟩ | stems
      · obtain rfl := pass₂.eq_of_nil
        simpa using GacStem.RowSpelledWith.last stem
      · cases us with
        | nil => exact absurd rfl stems.ne_nil
        | cons u us =>
          rw [pass₂.current] at stem
          exact .cons stem stems
    next =>
      cases h
      exact ⟨[], .refl _, .inl ⟨rfl, rfl⟩⟩

end

theorem gacStringWithin_spelled (k : Nat) (n : Nesting) :
    Spells (gacStringWithin k n) (GacString.SpelledWith (GacString.SpelledIn n.levels)) := by
  induction k generalizing n with
  | zero => intro c d x _ h; cases h
  | succ k ih =>
    intro c d x hc h
    simp only [gacStringWithin, bind_current] at h
    obtain ⟨xs, c₁, h₁, h⟩ := bind_ok h
    have inner : Spells (nested n (gacStringWithin k)) (GacString.SpelledIn n.levels) :=
      nested_spells (ih n.deeper)
    obtain ⟨ts, pass, stems⟩ := manyWithin_spelled (gacStemWith_spelled inner) hc h₁
    cases xs with
    | nil => cases h
    | cons x xs =>
      cases h
      have stems := stems.resolve_left (by simp)
      refine ⟨ts, pass, ?_⟩
      cases ts with
      | nil => exact absurd rfl stems.ne_nil
      | cons t ts =>
        rw [pass.current, pass.originFrom]
        exact .intro stems

theorem gacString_spelled (n : Nesting) :
    Spells (gacString n) (GacString.SpelledWith (GacString.SpelledIn n.levels)) :=
  fun _ _ _ hc h => gacStringWithin_spelled _ n hc h

theorem nested_gacString_spelled (n : Nesting) :
    Spells (nested n gacString) (GacString.SpelledIn n.levels) :=
  @nested_spells _ n _ GacString.SpelledIn (gacString_spelled n.deeper)

/-! ### Expressions -/

theorem typeWordRest_spelled {n : Nesting} {proto : Bool} {x : Expression} {o : Token}
    {b : Cursor} (hb : b.Passes [o] c) (hc : c.Ended)
    (opener : o.kind = if proto then .protoOpen else .leftBracket)
    (h : typeWordRest n o proto c = .ok x d) :
    ∃ ts, b.Passes ts d ∧ x.SpelledBy n.levels ts := by
  obtain ⟨y, c₁, h₁, h⟩ := bind_ok h
  obtain ⟨e, c₂, h₂, h⟩ := bind_ok h
  obtain ⟨ts, pass₁, content⟩ := nested_gacString_spelled n hc h₁
  obtain ⟨pass₂, closer⟩ := expect_ok (by decide) (pass₁.ended hc) h₂
  rw [pass₂.current] at content
  have pass := (hb.trans pass₁).trans pass₂
  have target : ∃ p us c₃, c₂.Passes us c₃ ∧ Pointer.OptionSpelledBy p us ∧
      (originFrom o >>= fun origin => pure (if proto then Expression.protoGacWord ⟨origin, y, p⟩
        else .stdGacWord ⟨origin, y, p⟩)) c₃ = .ok x d := by
    simp only [bind_kind] at h
    split at h
    · obtain ⟨p, c₃, h₃, h⟩ := bind_ok h
      rw [map_eq_bind] at h₃
      obtain ⟨p, c₄, h₃, h₄⟩ := bind_ok h₃
      cases h₄
      obtain ⟨us, pass₃, spelled⟩ := pointer_spelled (pass₂.ended (pass₁.ended hc)) h₃
      exact ⟨_, us, _, pass₃, .some spelled, h⟩
    · exact ⟨none, [], c₂, .refl c₂, .none, h⟩
  obtain ⟨p, us, c₃, pass₃, target, h⟩ := target
  have pass := pass.trans pass₃
  simp only [List.append_assoc, List.cons_append, List.nil_append] at pass
  rw [bind_originFrom, pass.originFrom] at h
  cases h
  refine ⟨_, pass, ?_⟩
  cases proto
  · exact .stdGacWord opener content closer target
  · exact .protoGacWord opener content closer target

theorem typeWord_spelled (n : Nesting) :
    Spells (typeWord n) fun x ts _ => x.SpelledBy n.levels ts := by
  intro c d x hc h
  rw [typeWord_apply] at h
  split at h
  next hk =>
    have pass := hc.passes_current (by rw [hk]; decide)
    refine typeWordRest_spelled pass (pass.ended hc) ?_ h
    exact hk
  next =>
    obtain ⟨o, c₁, h₁, h⟩ := bind_ok h
    obtain ⟨pass, opener⟩ := expect_ok (by decide) hc h₁
    rw [pass.current] at h
    refine typeWordRest_spelled pass (pass.ended hc) ?_ h
    exact opener

theorem expression_spelled (n : Nesting) :
    Spells (expression n) fun x ts _ => x.SpelledBy n.levels ts := by
  intro c d x hc h
  simp only [expression, bind_kind] at h
  generalize c.kind = k at h
  split at h
  next =>
    obtain ⟨x, c₁, h₁, h⟩ := bind_ok h
    obtain ⟨ts, pass, spelled⟩ := typeDesc_spelled hc h₁
    cases h
    exact ⟨ts, pass, .typeDesc spelled⟩
  next => exact typeWord_spelled n hc h
  next => exact typeWord_spelled n hc h
  next =>
    obtain ⟨x, c₁, h₁, h⟩ := bind_ok h
    obtain ⟨ts, pass, spelled⟩ := fycoide_spelled hc h₁
    cases h
    exact ⟨ts, pass, .fycoide spelled⟩
  next =>
    obtain ⟨x, c₁, h₁, h⟩ := bind_ok h
    obtain ⟨ts, pass, spelled⟩ := pointerRef_spelled hc h₁
    cases h
    exact ⟨ts, pass, .pointerRef spelled⟩
  next => cases h

/-! ### Includes, relations and blocks -/

theorem includeFile_spelled {x : IncludeFile} (hc : c.Ended) (h : includeFile c = .ok x d) :
    ∃ t, c.Passes [t] d ∧ x.SpelledBy t := by
  simp only [includeFile, bind_current] at h
  have step (hk : c.current.kind ≠ .endOfInput) : c.Passes [c.current] c.advance :=
    hc.passes_current hk
  generalize hk : c.current.kind = k at h step
  split at h
  next => cases h; exact ⟨_, step (by decide), .quotedString hk⟩
  next => cases h; exact ⟨_, step (by decide), .identifier hk⟩
  next => cases h; exact ⟨_, step (by decide), .unicodeString hk⟩
  next => cases h

theorem includeBlock_spelled : Spells includeBlock fun x ts _ => x.SpelledBy ts := by
  intro c d x hc h
  obtain ⟨o, c₁, h₁, h⟩ := bind_ok h
  obtain ⟨f, c₂, h₂, h⟩ := bind_ok h
  obtain ⟨e, c₃, h₃, h⟩ := bind_ok h
  obtain ⟨pass₁, opener⟩ := expect_ok (by decide) hc h₁
  obtain ⟨t, pass₂, file⟩ := includeFile_spelled (pass₁.ended hc) h₂
  have pass := pass₁.trans pass₂
  obtain ⟨pass₃, closer⟩ := expect_ok (by decide) (pass.ended hc) h₃
  have pass := pass.trans pass₃
  cases h
  exact ⟨_, pass, by rw [pass.originFrom]; exact .intro opener file closer⟩

section
variable {braced : RightSide → List Token → Prop} {body : Nesting → Parse BlockBody} {n : Nesting}

theorem relationWith_spelled {left : Expression} {x : Relation} {b : Cursor} {ts : List Token}
    (hb : b.Passes ts c) (hc : c.Ended) (hleft : left.SpelledBy n.levels ts)
    (hin : Spells (nested n (bracedWith body)) fun y us _ => braced y us)
    (h : relationWith body n left c = .ok x d) :
    ∃ us, b.Passes us d ∧ x.SpelledWith braced n.levels us := by
  simp only [relationWith, bind_kind] at h
  generalize operator : RelationKind.ofToken? c.kind = r at h
  split at h
  next => cases h
  next kind =>
    have hk : c.kind ≠ .endOfInput := fun he => by rw [he] at operator; cases operator
    have pass₁ := hc.passes_current hk
    have hc₁ := pass₁.ended hc
    have pass := hb.trans pass₁
    simp only [bind_advance, bind_kind] at h
    split at h
    next opener =>
      have pass₂ := hc₁.passes_current (by rw [opener]; decide)
      have pass := pass.trans pass₂
      simp only [bind_advance] at h
      obtain ⟨y, c₃, h₃, h⟩ := bind_ok h
      obtain ⟨e, c₄, h₄, h⟩ := bind_ok h
      obtain ⟨us, pass₃, content⟩ := hin (pass₂.ended hc₁) h₃
      have pass := pass.trans pass₃
      obtain ⟨pass₄, closer⟩ := expect_ok (by decide) (pass₃.ended (pass₂.ended hc₁)) h₄
      have pass := pass.trans pass₄
      cases h
      exact ⟨_, by simpa using pass, .block hleft operator opener content closer⟩
    next =>
      obtain ⟨y, c₂, h₂, h⟩ := bind_ok h
      obtain ⟨us, pass₂, right⟩ := expression_spelled n hc₁ h₂
      have pass := pass.trans pass₂
      cases h
      exact ⟨_, by simpa using pass, .pure hleft operator right⟩

theorem elementWith_spelled
    (hin : Spells (nested n (bracedWith body)) fun y us _ => braced y us) :
    Spells (elementWith body n) fun x ts _ => x.SpelledWith braced n.levels ts := by
  intro c d x hc h
  simp only [elementWith, bind_kind] at h
  split at h
  next =>
    obtain ⟨x, c₁, h₁, h⟩ := bind_ok h
    obtain ⟨ts, pass, spelled⟩ := includeBlock_spelled hc h₁
    cases h
    exact ⟨ts, pass, .inclusion spelled⟩
  next =>
    obtain ⟨left, c₁, h₁, h⟩ := bind_ok h
    obtain ⟨ts, pass, spelled⟩ := expression_spelled n hc h₁
    simp only [bind_kind] at h
    split at h
    next =>
      obtain ⟨x, c₂, h₂, h⟩ := bind_ok h
      obtain ⟨us, pass, relation⟩ := relationWith_spelled pass (pass.ended hc) spelled hin h₂
      cases h
      exact ⟨us, pass, .relation relation⟩
    next =>
      cases h
      exact ⟨ts, pass, .expression spelled⟩

/-- The elements behind a first one, with the commas between them. -/
theorem furtherElements_spelled {element : Parse Element} {x : Element} {xs : List Element}
    {b : Cursor} {k : Nat} {trailingComma : Bool} {ts : List Token}
    (hb : b.Passes ts c) (hc : c.Ended) (hx : x.SpelledWith braced n.levels ts)
    (hitem : Spells element fun x ts _ => x.SpelledWith braced n.levels ts)
    (h : furtherElements element k c = .ok (xs, trailingComma) d) :
    ∃ us, b.Passes us d ∧ Element.RowSpelledWith braced n.levels (x :: xs) trailingComma us := by
  induction k generalizing b c x xs ts with
  | zero =>
    cases h
    exact ⟨ts, hb, .last hx⟩
  | succ k ih =>
    obtain ⟨comma, c₁, h₁, h⟩ := bind_ok h
    rw [accept_apply] at h₁
    split at h₁
    next hk =>
      cases h₁
      have hk : c.kind = .comma := List.mem_singleton.1 hk
      have pass₁ := hc.passes_current (by rw [hk]; decide)
      simp only [if_true, bind_kind] at h
      split at h
      next =>
        cases h
        exact ⟨_, hb.trans pass₁, .trailing hx hk⟩
      next =>
        obtain ⟨y, c₂, h₂, h⟩ := bind_ok h
        obtain ⟨⟨ys, t⟩, c₃, h₃, h⟩ := bind_ok h
        cases h
        obtain ⟨us, pass₂, hy⟩ := hitem (pass₁.ended hc) h₂
        obtain ⟨vs, pass₃, elements⟩ := ih pass₂ (pass₂.ended (pass₁.ended hc)) hy h₃
        exact ⟨_, by simpa using (hb.trans pass₁).trans pass₃, .cons hx hk elements⟩
    next =>
      cases h₁
      cases h
      exact ⟨ts, hb, .last hx⟩

end

theorem nested_bracedWith_spelled {body : Nesting → Parse BlockBody} {n : Nesting}
    (h : Spells (body n.deeper) fun x ts _ =>
      x.SpelledWith (RightSide.SpelledIn n.deeper.levels) n.deeper.levels ts) :
    Spells (nested n (bracedWith body)) fun y us _ => y.SpelledIn n.levels us := by
  refine @nested_spells _ n _ (fun d y us _ => RightSide.SpelledIn d y us) ?_
  intro c d y hc hy
  simp only [bracedWith, bind_kind] at hy
  split at hy
  next =>
    cases hy
    exact ⟨[], .refl _, .empty⟩
  next =>
    obtain ⟨x, c₁, h₁, hy⟩ := bind_ok hy
    obtain ⟨ts, pass, spelled⟩ := h hc h₁
    cases hy
    exact ⟨ts, pass, .body spelled⟩

theorem blockBodyWithin_spelled (k : Nat) (n : Nesting) :
    Spells (blockBodyWithin k n) fun x ts _ =>
      x.SpelledWith (RightSide.SpelledIn n.levels) n.levels ts := by
  induction k generalizing n with
  | zero => intro c d x _ h; cases h
  | succ k ih =>
    intro c d x hc h
    simp only [blockBodyWithin, bind_current] at h
    obtain ⟨first, c₁, h₁, h⟩ := bind_ok h
    simp only [bind_get] at h
    obtain ⟨⟨rest, trailingComma⟩, c₂, h₂, h⟩ := bind_ok h
    have inner : Spells (nested n (bracedWith (blockBodyWithin k))) fun y us _ =>
        y.SpelledIn n.levels us := nested_bracedWith_spelled (ih n.deeper)
    obtain ⟨ts, pass, spelled⟩ := elementWith_spelled inner hc h₁
    obtain ⟨us, pass, elements⟩ := furtherElements_spelled pass (pass.ended hc) spelled
      (elementWith_spelled inner) h₂
    simp only [bind_kind] at h
    split at h
    next =>
      cases h
      refine ⟨us, pass, ?_⟩
      cases us with
      | nil => exact absurd rfl elements.ne_nil
      | cons u us =>
        rw [pass.current, pass.originFrom]
        exact .intro elements
    next => cases h

theorem blockBody_spelled (n : Nesting) :
    Spells (blockBody n) fun x ts _ => x.SpelledWith (RightSide.SpelledIn n.levels) n.levels ts :=
  fun _ _ _ hc h => blockBodyWithin_spelled _ n hc h

theorem functionBlock_spelled (n : Nesting) :
    Spells (functionBlock n) fun x ts _ => x.SpelledBy n.levels ts := by
  intro c d x hc h
  simp only [functionBlock, bind_kind] at h
  split at h
  next =>
    obtain ⟨x, c₁, h₁, h⟩ := bind_ok h
    obtain ⟨ts, pass, spelled⟩ := includeBlock_spelled hc h₁
    cases h
    exact ⟨ts, pass, .inclusion spelled⟩
  next =>
    obtain ⟨left, c₁, h₁, h⟩ := bind_ok h
    obtain ⟨x, c₂, h₂, h⟩ := bind_ok h
    obtain ⟨ts, pass, spelled⟩ := expression_spelled n hc h₁
    obtain ⟨us, pass, relation⟩ :=
      relationWith_spelled pass (pass.ended hc) spelled
        (nested_bracedWith_spelled (blockBody_spelled n.deeper)) h₂
    cases h
    exact ⟨us, pass, .relation relation⟩

/-- The tokens of a statement spell it. -/
theorem statement_spelled (n : Nesting) :
    Spells (statement n) fun x ts _ => x.SpelledBy n.levels ts := by
  intro c d x hc h
  simp only [statement, bind_current] at h
  have step (hk : c.current.kind ≠ .endOfInput) : c.Passes [c.current] c.advance :=
    hc.passes_current hk
  generalize hk : c.current.kind = k at h step
  split at h
  next => cases h; exact ⟨_, step (by decide), .empty hk⟩
  next => cases h; exact ⟨_, step (by decide), .dashComment hk⟩
  next =>
    obtain ⟨block, c₁, h₁, h⟩ := bind_ok h
    obtain ⟨e, c₂, h₂, h⟩ := bind_ok h
    obtain ⟨ts, pass, spelled⟩ := functionBlock_spelled n hc h₁
    obtain ⟨pass₂, semicolon⟩ := expect_ok (by decide) (pass.ended hc) h₂
    have pass := pass.trans pass₂
    cases h
    refine ⟨_, pass, ?_⟩
    cases ts with
    | nil => exact absurd rfl spelled.ne_nil
    | cons t ts =>
      rw [pass.current, pass.originFrom]
      exact .block spelled semicolon

end Parse

end RelationNotation
