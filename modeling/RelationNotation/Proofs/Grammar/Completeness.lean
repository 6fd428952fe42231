import RelationNotation.Proofs.Grammar.Soundness

/-!
What the grammar spells, the parser reads: a cursor that passes the tokens of a part of a tree finds
exactly that part, provided the token behind does not lead on. Levels of nesting lie behind brackets
and braces, so tokens ahead are enough to count them. `statement_reads` is the main result.
-/

namespace RelationNotation

open Token

namespace Cursor
variable {c d : Cursor} {t : Token} {ts us : List Token}

theorem Passes.tail (h : c.Passes (t :: ts) d) : c.advance.Passes ts d := by
  have ha : c.ahead = t :: (ts ++ d.ahead) := h.ahead
  refine ⟨?_, ?_, ?_⟩
  · simp [advance, ha]
  · simp [advance, ha, h.before]
  · simp [advance, ha, h.stop]

theorem Passes.split (h : c.Passes (ts ++ us) d) : ∃ e, c.Passes ts e ∧ e.Passes us d := by
  refine ⟨⟨ts.reverse ++ c.before, us ++ d.ahead, c.stop⟩, ⟨?_, rfl, rfl⟩, ⟨rfl, ?_, h.stop⟩⟩
  · rw [h.ahead, List.append_assoc]
  · rw [h.before, List.reverse_append, List.append_assoc]

theorem Passes.length_le (h : c.Passes ts d) : ts.length ≤ c.remaining := by
  rw [h.remaining]
  omega

end Cursor

namespace Parse
variable {c d : Cursor} {ts : List Token}

theorem expect_reads {k : TokenKind} {t : Token} (pass : c.Passes (t :: ts) d)
    (hk : t.kind = k) : expect k c = .ok t c.advance := by
  rw [expect_apply, if_pos (by rw [Cursor.kind, pass.current, hk]), pass.current]

theorem string_reads {x : StringValue} {t : Token} (h : x.SpelledBy t)
    (pass : c.Passes (t :: ts) d) : string c = .ok x c.advance := by
  cases h with
  | identifier kind => simp only [string, bind_current, pass.current, kind]; rfl
  | unicodeString kind => simp only [string, bind_current, pass.current, kind]; rfl

theorem typeDesc_reads {x : TypeDesc} (h : x.SpelledBy ts) (pass : c.Passes ts d) :
    typeDesc c = .ok x d := by
  cases h with
  | intro opener string closer =>
    have pass₁ := pass.tail
    have pass₂ := pass₁.tail
    have pass₃ := pass₂.tail
    rw [typeDesc, bind_of_ok (expect_reads pass opener), bind_of_ok (string_reads string pass₁),
      bind_of_ok (expect_reads pass₂ closer), ← pass₃.eq_of_nil, bind_originFrom, pass.originFrom]
    rfl

theorem fycoide_reads {x : Fycoide} (h : x.SpelledBy ts) (pass : c.Passes ts d) :
    fycoide c = .ok x d := by
  cases h with
  | intro opener string closer =>
    have pass₁ := pass.tail
    have pass₂ := pass₁.tail
    have pass₃ := pass₂.tail
    rw [fycoide, bind_of_ok (expect_reads pass opener), bind_of_ok (string_reads string pass₁),
      bind_of_ok (expect_reads pass₂ closer), ← pass₃.eq_of_nil, bind_originFrom, pass.originFrom]
    rfl

/-- Tokens of the given kinds are taken up to a token of another kind. -/
theorem takeKinds_reads {kinds : List TokenKind} {t : Token} {us : List Token} {e : Cursor}
    (h : ∀ u ∈ ts, u.kind ∈ kinds) (pass : c.Passes ts d) (next : d.Passes (t :: us) e)
    (ht : t.kind ∉ kinds) : takeKinds kinds c = .ok ts d := by
  have taken : c.ahead.takeWhile (fun u => decide (u.kind ∈ kinds)) = ts := by
    rw [pass.ahead, next.ahead, List.takeWhile_append_of_pos (by simpa using h)]
    simp [ht]
  have left : c.ahead.dropWhile (fun u => decide (u.kind ∈ kinds)) = d.ahead := by
    rw [pass.ahead, next.ahead, List.dropWhile_append_of_pos (by simpa using h)]
    simp [ht]
  unfold takeKinds
  simp only [taken, left]
  rw [← pass.before, ← pass.stop]

theorem pointerExpression_reads {x : PointerExpression} (h : x.SpelledBy ts)
    (pass : c.Passes ts d) : pointerExpression c = .ok x d := by
  cases h with
  | @intro o t e us opener terms closer =>
    obtain ⟨c₁, pass₁, pass₂⟩ := Cursor.Passes.split pass
    have taken := takeKinds_reads terms pass₁.tail pass₂ (by rw [closer]; decide)
    rw [pointerExpression, bind_of_ok (expect_reads pass opener), bind_of_ok taken]
    dsimp only
    rw [bind_of_ok (expect_reads pass₂ closer), ← pass₂.tail.eq_of_nil, bind_originFrom]
    rw [List.cons_append] at pass
    rw [pass.originFrom]
    rfl

theorem pointerId_reads {x : PointerId} (h : x.SpelledBy ts) (pass : c.Passes ts d) :
    pointerId c = .ok x d := by
  unfold pointerId
  rw [bind_kind]
  cases h with
  | number kind =>
    have number : c.kind ∈ TokenKind.numbers := by rwa [Cursor.kind, pass.current]
    rw [if_pos number, bind_advance, pass.current, pass.tail.eq_of_nil]
    rfl
  | expression spelled =>
    have opener : c.kind = .leftBracket := by
      cases spelled with
      | intro opener _ _ => rw [Cursor.kind, pass.current, opener]
    rw [if_neg (by rw [opener]; decide), if_pos opener,
      bind_of_ok (pointerExpression_reads spelled pass)]
    rfl

theorem pointer_reads {x : Pointer} (h : x.SpelledBy ts) (pass : c.Passes ts d) :
    pointer c = .ok x d := by
  cases h with
  | intro sign id =>
    rw [pointer, bind_of_ok (expect_reads pass sign), bind_of_ok (pointerId_reads id pass.tail),
      bind_originFrom, pass.originFrom]
    rfl

theorem pointerRef_reads {x : PointerRef} (h : x.SpelledBy ts) (pass : c.Passes ts d) :
    pointerRef c = .ok x d := by
  cases h with
  | intro sign id =>
    rw [pointerRef, bind_of_ok (expect_reads pass sign), bind_of_ok (pointerId_reads id pass.tail),
      bind_originFrom, pass.originFrom]
    rfl

/-! ### Gac strings -/

/-- One level deeper may be read where a level is left. -/
theorem nested_of_levels {α : Type} {n : Nesting} {l : Nat} (h : n.levels = l + 1)
    (inner : Nesting → Parse α) : nested n inner = inner n.deeper ∧ n.deeper.levels = l := by
  have hlt : ¬ n.depth ≥ n.limit := by
    unfold Nesting.levels at h
    omega
  refine ⟨if_neg hlt, ?_⟩
  simp only [Nesting.levels, Nesting.deeper] at h ⊢
  omega

section
variable {bracketed : GacString → List Token → Token → Prop} {inner : Nesting → Parse GacString}
  {n : Nesting} {m : Nat}

/-- What is spelled between brackets by fewer tokens than a bound is read. -/
def ReadsBracketed (bracketed : GacString → List Token → Token → Prop) (p : Parse GacString)
    (m : Nat) : Prop :=
  ∀ ⦃c d : Cursor⦄ ⦃x : GacString⦄ ⦃ts : List Token⦄, ts.length < m → bracketed x ts d.current →
    c.Passes ts d → d.kind = .rightBracket → p c = .ok x d

/-- A sign takes a name that touches it. -/
theorem gacStemWith_of_marker {marker : SuffixMarker}
    (mark : SuffixMarker.ofKind? c.current.kind = some marker) :
    gacStemWith inner n c =
      if c.current.NamesEnding c.advance.current then
        .ok (.ending ⟨⟨c.advance.advance.spanFrom c.current, []⟩, marker,
          c.advance.current.toIdentifier⟩) c.advance.advance
      else .ok (.operator c.current.toOperator) c.advance := by
  simp only [gacStemWith, bind_current, bind_get, Cursor.following_eq]
  generalize c.current.kind = k at mark
  by_cases name : c.current.NamesEnding c.advance.current
  all_goals
    simp only [NamesEnding] at name
    cases k <;> cases mark <;> simp only [SuffixMarker.ofKind?, NamesEnding, bind_advance, name] <;>
      rfl

theorem gacStemWith_of_operator (kind : c.current.kind ∈ TokenKind.bareOperators) :
    gacStemWith inner n c = .ok (.operator c.current.toOperator) c.advance := by
  simp only [gacStemWith, bind_current, bind_get, Cursor.following_eq]
  generalize c.current.kind = k at kind
  simp only [TokenKind.bareOperators, List.mem_cons, List.not_mem_nil, or_false] at kind
  rcases kind with rfl | rfl | rfl | rfl | rfl | rfl | rfl <;> rfl

theorem gacStemWith_reads (hin : ReadsBracketed bracketed (nested n inner) m) {x : GacStem}
    (h : x.SpelledWith bracketed d.current ts) (pass : c.Passes ts d) (hm : ts.length ≤ m) :
    gacStemWith inner n c = .ok x d := by
  cases h with
  | fycoide spelled =>
    have opener : c.current.kind = .fycoideOpen := by
      cases spelled with
      | intro opener _ _ => rw [pass.current, opener]
    simp only [gacStemWith, bind_current, bind_get, opener]
    rw [bind_of_ok (fycoide_reads spelled pass)]
    rfl
  | pointerRef spelled =>
    have opener : c.current.kind = .atSign := by
      cases spelled with
      | intro sign _ => rw [pass.current, sign]
    simp only [gacStemWith, bind_current, bind_get, opener]
    rw [bind_of_ok (pointerRef_reads spelled pass)]
    rfl
  | @identifier t kind longest =>
    have last := pass.tail.eq_of_nil
    simp only [gacStemWith, bind_current, bind_get, Cursor.following_eq, pass.current, kind,
      bind_advance, ← last]
    generalize mark : PrefixMarker.ofKind? d.current.kind = m, touches : t.touches d.current = b
    split
    next marker => exact absurd ⟨by rw [mark]; rfl, touches⟩ longest
    next => rfl
  | front kind mark touches =>
    have last := pass.tail.tail.eq_of_nil
    simp only [gacStemWith, bind_current, bind_get, Cursor.following_eq, pass.current,
      pass.tail.current, kind, bind_advance, mark, touches, ← last, bind_originFrom,
      pass.originFrom]
    rfl
  | ending mark kind touches =>
    have last := pass.tail.tail.eq_of_nil
    rw [← pass.current] at mark touches
    rw [← pass.tail.current] at kind touches
    rw [gacStemWith_of_marker mark, if_pos ⟨kind, touches⟩, ← last, pass.current, pass.originFrom,
      pass.tail.current]
  | sign mark longest =>
    have last := pass.tail.eq_of_nil
    rw [← pass.current] at mark longest
    obtain ⟨marker, mark⟩ := Option.isSome_iff_exists.1 mark
    rw [gacStemWith_of_marker mark, ← last, if_neg longest, pass.current]
  | synonym mark kind =>
    have last := pass.tail.tail.eq_of_nil
    simp only [gacStemWith, bind_current, bind_get, pass.current, mark, bind_advance]
    rw [bind_of_ok (expect_reads pass.tail kind), ← last, bind_originFrom, pass.originFrom]
    rfl
  | nested opener content closer =>
    obtain ⟨e, pass₁, pass₂⟩ := Cursor.Passes.split pass
    have kind : e.kind = .rightBracket := by rw [Cursor.kind, pass₂.current, closer]
    rw [← pass₂.current] at content
    have read := hin (by simp at hm; omega) content pass₁.tail kind
    simp only [gacStemWith, bind_current, bind_get, pass.current, opener, bind_advance]
    rw [bind_of_ok read, bind_of_ok (expect_reads pass₂ closer), ← pass₂.tail.eq_of_nil,
      bind_originFrom]
    rw [List.cons_append] at pass
    rw [pass.originFrom]
    rfl
  | operator kind =>
    rw [← pass.current] at kind ⊢
    rw [gacStemWith_of_operator kind, pass.tail.eq_of_nil]

theorem mem_gacStemStarts_of_marker {k : TokenKind} (h : (SuffixMarker.ofKind? k).isSome) :
    k ∈ TokenKind.gacStemStarts := by
  cases k <;> cases h <;> decide

/-- A stem begins with a token that may begin one. -/
theorem stem_starts {next : Token} {x : GacStem} (h : x.SpelledWith bracketed next ts)
    (pass : c.Passes ts d) : c.kind ∈ TokenKind.gacStemStarts := by
  cases h with
  | fycoide spelled =>
    cases spelled with
    | intro opener _ _ => rw [Cursor.kind, pass.current, opener]; decide
  | pointerRef spelled =>
    cases spelled with
    | intro sign _ => rw [Cursor.kind, pass.current, sign]; decide
  | identifier kind _ => rw [Cursor.kind, pass.current, kind]; decide
  | front kind _ _ => rw [Cursor.kind, pass.current, kind]; decide
  | ending mark _ _ =>
    rw [Cursor.kind, pass.current]
    exact mem_gacStemStarts_of_marker (by rw [mark]; rfl)
  | sign mark _ =>
    rw [Cursor.kind, pass.current]
    exact mem_gacStemStarts_of_marker mark
  | synonym mark _ => rw [Cursor.kind, pass.current, mark]; decide
  | nested opener _ _ => rw [Cursor.kind, pass.current, opener]; decide
  | operator kind =>
    rw [Cursor.kind, pass.current]
    exact List.mem_append_right _ kind

theorem manyWithin_stops {α : Type} {kinds : List TokenKind} (item : Parse α) (k : Nat)
    (h : c.kind ∉ kinds) : manyWithin kinds item k c = .ok [] c := by
  cases k with
  | zero => rfl
  | succ k => rw [manyWithin, bind_kind, if_neg h]; rfl

theorem many_stems_reads (hin : ReadsBracketed bracketed (nested n inner) m) {xs : List GacStem}
    {next : Token} {k : Nat} (h : GacStem.RowSpelledWith bracketed next xs ts)
    (pass : c.Passes ts d) (hnext : next = d.current) (hd : d.kind ∉ TokenKind.gacStemStarts)
    (hm : ts.length ≤ m) (hk : ts.length ≤ k) :
    manyWithin TokenKind.gacStemStarts (gacStemWith inner n) k c = .ok xs d := by
  induction h generalizing c k with
  | @last x ts stem =>
    have hts := List.length_pos_iff.2 stem.ne_nil
    obtain ⟨k, rfl⟩ : ∃ j, k = j + 1 := ⟨k - 1, by omega⟩
    rw [hnext] at stem
    rw [manyWithin, bind_kind, if_pos (stem_starts stem pass),
      bind_of_ok (gacStemWith_reads hin stem pass hm), bind_of_ok (manyWithin_stops _ k hd)]
    rfl
  | @cons x xs t ts us stem stems ih =>
    have hts := List.length_pos_iff.2 stem.ne_nil
    rw [List.length_append] at hm hk
    obtain ⟨k, rfl⟩ : ∃ j, k = j + 1 := ⟨k - 1, by omega⟩
    obtain ⟨e, pass₁, pass₂⟩ := Cursor.Passes.split pass
    rw [← pass₂.current] at stem
    rw [manyWithin, bind_kind, if_pos (stem_starts stem pass₁),
      bind_of_ok (gacStemWith_reads hin stem pass₁ (by omega)),
      bind_of_ok (ih pass₂ (by omega) (by omega))]
    rfl

end

theorem gacStringWithin_reads {k : Nat} {n : Nesting} {x : GacString}
    (h : x.SpelledWith (GacString.SpelledIn n.levels) ts d.current) (pass : c.Passes ts d)
    (hd : d.kind = .rightBracket) (hk : ts.length ≤ k) : gacStringWithin k n c = .ok x d := by
  induction k generalizing n c d x ts with
  | zero =>
    cases h with
    | intro stems =>
      have := List.length_pos_iff.2 stems.ne_nil
      omega
  | succ k ih =>
    have hin : ReadsBracketed (GacString.SpelledIn n.levels) (nested n (gacStringWithin k))
        (k + 1) := by
      intro c d x ts hts hx pass hd
      cases hl : n.levels with
      | zero => rw [hl] at hx; exact hx.elim
      | succ l =>
        obtain ⟨deeper, hlevels⟩ := nested_of_levels hl (gacStringWithin k)
        rw [hl, ← hlevels] at hx
        rw [deeper]
        exact ih hx pass hd (by omega)
    cases h with
    | @intro x xs ts _ stems =>
      have read := many_stems_reads hin stems pass rfl (by rw [hd]; decide) hk pass.length_le
      simp only [gacStringWithin, bind_current]
      rw [bind_of_ok (show many _ _ c = _ from read)]
      dsimp only
      cases ts with
      | nil => exact absurd rfl stems.ne_nil
      | cons t ts =>
        rw [bind_originFrom, pass.current, pass.originFrom]
        rfl

theorem nested_gacString_reads {n : Nesting} {x : GacString}
    (h : x.SpelledIn n.levels ts d.current) (pass : c.Passes ts d) (hd : d.kind = .rightBracket) :
    nested n gacString c = .ok x d := by
  cases hl : n.levels with
  | zero => rw [hl] at h; exact h.elim
  | succ l =>
    obtain ⟨deeper, hlevels⟩ := nested_of_levels hl gacString
    rw [hl, ← hlevels] at h
    rw [deeper]
    exact gacStringWithin_reads h pass hd pass.length_le

/-! ### Expressions -/

theorem typeWordRest_reads {n : Nesting} {proto : Bool} {x : GacString} {target : Option Pointer}
    {o t : Token} {us : List Token} {b : Cursor} (content : x.SpelledIn n.levels ts t)
    (closer : t.kind = .rightBracket) (hp : Pointer.OptionSpelledBy target us)
    (hb : b.Passes (o :: ts ++ t :: us) d) (pass : c.Passes (ts ++ t :: us) d)
    (hd : d.kind ≠ .atSign) :
    typeWordRest n o proto c = .ok (if proto
      then .protoGacWord ⟨originOver (o :: ts ++ t :: us), x, target⟩
      else .stdGacWord ⟨originOver (o :: ts ++ t :: us), x, target⟩) d := by
  obtain ⟨e, pass₁, pass₂⟩ := Cursor.Passes.split pass
  have kind : e.kind = .rightBracket := by rw [Cursor.kind, pass₂.current, closer]
  rw [← pass₂.current] at content
  rw [typeWordRest, bind_of_ok (nested_gacString_reads content pass₁ kind),
    bind_of_ok (expect_reads pass₂ closer), bind_kind]
  rw [List.cons_append] at hb ⊢
  cases hp with
  | none =>
    rw [← pass₂.tail.eq_of_nil, if_neg hd, bind_pure_apply]
    dsimp only
    rw [bind_originFrom, hb.originFrom]
    rfl
  | @some y us spelled =>
    have sign : e.advance.kind = .atSign := by
      cases spelled with
      | intro sign _ => rw [Cursor.kind, pass₂.tail.current, sign]
    have read : (some <$> pointer) e.advance = .ok (some y) d := by
      rw [map_eq_bind, bind_of_ok (pointer_reads spelled pass₂.tail)]
      rfl
    rw [if_pos sign, bind_of_ok read]
    dsimp only
    rw [bind_originFrom, hb.originFrom]
    rfl

theorem expression_reads {n : Nesting} {x : Expression} (h : x.SpelledBy n.levels ts)
    (pass : c.Passes ts d) (hd : d.kind ≠ .atSign) : expression n c = .ok x d := by
  unfold expression
  rw [bind_kind]
  cases h with
  | typeDesc spelled =>
    have opener : c.kind = .quote := by
      cases spelled with
      | intro opener _ _ => rw [Cursor.kind, pass.current, opener]
    rw [opener]
    dsimp only
    rw [bind_of_ok (typeDesc_reads spelled pass)]
    rfl
  | protoGacWord opener content closer target =>
    have kind : c.kind = .protoOpen := by rw [Cursor.kind, pass.current, opener]
    rw [kind]
    dsimp only
    rw [typeWord_apply, if_pos kind, pass.current]
    exact typeWordRest_reads content closer target pass pass.tail hd
  | stdGacWord opener content closer target =>
    have kind : c.kind = .leftBracket := by rw [Cursor.kind, pass.current, opener]
    rw [kind]
    dsimp only
    rw [typeWord_apply, if_neg (by rw [kind]; decide), bind_of_ok (expect_reads pass opener),
      pass.current]
    exact typeWordRest_reads content closer target pass pass.tail hd
  | fycoide spelled =>
    have opener : c.kind = .fycoideOpen := by
      cases spelled with
      | intro opener _ _ => rw [Cursor.kind, pass.current, opener]
    rw [opener]
    dsimp only
    rw [bind_of_ok (fycoide_reads spelled pass)]
    rfl
  | pointerRef spelled =>
    have opener : c.kind = .atSign := by
      cases spelled with
      | intro sign _ => rw [Cursor.kind, pass.current, sign]
    rw [opener]
    dsimp only
    rw [bind_of_ok (pointerRef_reads spelled pass)]
    rfl

/-- An expression begins with a token that may begin one. -/
theorem expression_starts {l : Nat} {x : Expression} (h : x.SpelledBy l ts)
    (pass : c.Passes ts d) : c.kind ∈ TokenKind.expressionStarts := by
  cases h with
  | typeDesc spelled =>
    cases spelled with
    | intro opener _ _ => rw [Cursor.kind, pass.current, opener]; decide
  | protoGacWord opener _ _ _ => rw [Cursor.kind, pass.current, opener]; decide
  | stdGacWord opener _ _ _ => rw [Cursor.kind, pass.current, opener]; decide
  | fycoide spelled =>
    cases spelled with
    | intro opener _ _ => rw [Cursor.kind, pass.current, opener]; decide
  | pointerRef spelled =>
    cases spelled with
    | intro sign _ => rw [Cursor.kind, pass.current, sign]; decide

/-! ### Includes, relations and blocks -/

theorem includeFile_reads {x : IncludeFile} {t : Token} (h : x.SpelledBy t)
    (pass : c.Passes (t :: ts) d) : includeFile c = .ok x c.advance := by
  cases h with
  | identifier kind => simp only [includeFile, bind_current, pass.current, kind]; rfl
  | unicodeString kind => simp only [includeFile, bind_current, pass.current, kind]; rfl
  | quotedString kind => simp only [includeFile, bind_current, pass.current, kind]; rfl

theorem includeBlock_reads {x : Include} (h : x.SpelledBy ts) (pass : c.Passes ts d) :
    includeBlock c = .ok x d := by
  cases h with
  | intro opener file closer =>
    have pass₁ := pass.tail
    have pass₂ := pass₁.tail
    have pass₃ := pass₂.tail
    rw [includeBlock, bind_of_ok (expect_reads pass opener),
      bind_of_ok (includeFile_reads file pass₁), bind_of_ok (expect_reads pass₂ closer),
      ← pass₃.eq_of_nil, bind_originFrom, pass.originFrom]
    rfl

theorem mem_relationOperators {k : TokenKind} {r : RelationKind}
    (h : RelationKind.ofToken? k = some r) : k ∈ TokenKind.relationOperators := by
  cases k <;> cases h <;> decide

section
variable {braced : RightSide → List Token → Prop} {body : Nesting → Parse BlockBody}
  {n : Nesting} {m : Nat}

/-- What is spelled between braces by fewer tokens than a bound is read. -/
def ReadsBraced (braced : RightSide → List Token → Prop) (p : Parse RightSide) (m : Nat) : Prop :=
  ∀ ⦃c d : Cursor⦄ ⦃x : RightSide⦄ ⦃ts : List Token⦄, ts.length < m → braced x ts →
    c.Passes ts d → d.kind = .rightBrace → p c = .ok x d

/-- A relation's left side is read first, and the rest from the operator on. -/
theorem relationWith_reads (hin : ReadsBraced braced (nested n (bracedWith body)) m)
    {x : Relation} (h : x.SpelledWith braced n.levels ts) (pass : c.Passes ts d)
    (hd : d.kind ≠ .atSign) (hm : ts.length ≤ m) :
    c.kind ∈ TokenKind.expressionStarts ∧ ∃ left e, expression n c = .ok left e ∧
      e.kind ∈ TokenKind.relationOperators ∧ relationWith body n left e = .ok x d := by
  cases h with
  | @pure o kind x y ts us left operator right =>
    obtain ⟨e, pass₁, pass₂⟩ := Cursor.Passes.split pass
    have operator : RelationKind.ofToken? e.kind = some kind := by
      rw [Cursor.kind, pass₂.current]
      exact operator
    have hop : e.kind ∈ TokenKind.relationOperators := mem_relationOperators operator
    have hat : e.kind ≠ .atSign := fun he => by rw [he] at hop; exact absurd hop (by decide)
    refine ⟨expression_starts left pass₁, x, e, expression_reads left pass₁ hat, hop, ?_⟩
    have hbrace : e.advance.kind ≠ .leftBrace := fun he => by
      have := expression_starts right pass₂.tail
      rw [he] at this
      exact absurd this (by decide)
    simp only [relationWith, bind_kind, operator, bind_advance]
    rw [if_neg hbrace, bind_of_ok (expression_reads right pass₂.tail hd)]
    rfl
  | @block o b e kind x y ts us left operator opener content closer =>
    obtain ⟨c₁, pass₁, pass₂⟩ := Cursor.Passes.split pass
    have operator : RelationKind.ofToken? c₁.kind = some kind := by
      rw [Cursor.kind, pass₂.current]
      exact operator
    have hop : c₁.kind ∈ TokenKind.relationOperators := mem_relationOperators operator
    have hat : c₁.kind ≠ .atSign := fun he => by rw [he] at hop; exact absurd hop (by decide)
    refine ⟨expression_starts left pass₁, x, c₁, expression_reads left pass₁ hat, hop, ?_⟩
    have hbrace : c₁.advance.kind = .leftBrace := by
      rw [Cursor.kind, pass₂.tail.current, opener]
    obtain ⟨c₂, pass₃, pass₄⟩ := Cursor.Passes.split pass₂.tail.tail
    have hclose : c₂.kind = .rightBrace := by rw [Cursor.kind, pass₄.current, closer]
    have read := hin (by simp at hm; omega) content pass₃ hclose
    simp only [relationWith, bind_kind, operator, bind_advance]
    rw [if_pos hbrace, bind_advance, bind_of_ok read, bind_of_ok (expect_reads pass₄ closer),
      ← pass₄.tail.eq_of_nil]
    rfl

/-- The kinds of tokens that may stand behind an element. -/
def EndsElement (k : TokenKind) : Prop := k = .comma ∨ k = .rightBrace

theorem elementWith_reads (hin : ReadsBraced braced (nested n (bracedWith body)) m) {x : Element}
    (h : x.SpelledWith braced n.levels ts) (pass : c.Passes ts d) (hd : EndsElement d.kind)
    (hm : ts.length ≤ m) : elementWith body n c = .ok x d ∧ c.kind ≠ .rightBrace := by
  have hat : d.kind ≠ .atSign := by rcases hd with h | h <;> rw [h] <;> decide
  have starts (h : c.kind ∈ TokenKind.expressionStarts) :
      c.kind ≠ .includeOpen ∧ c.kind ≠ .rightBrace := by
    constructor <;> intro he <;> rw [he] at h <;> exact absurd h (by decide)
  unfold elementWith
  rw [bind_kind]
  cases h with
  | expression spelled =>
    obtain ⟨hopen, hclose⟩ := starts (expression_starts spelled pass)
    have hop : d.kind ∉ TokenKind.relationOperators := by
      rcases hd with h | h <;> rw [h] <;> decide
    rw [if_neg hopen, bind_of_ok (expression_reads spelled pass hat), bind_kind, if_neg hop]
    exact ⟨rfl, hclose⟩
  | inclusion spelled =>
    have opener : c.kind = .includeOpen := by
      cases spelled with
      | intro opener _ _ => rw [Cursor.kind, pass.current, opener]
    rw [if_pos opener, bind_of_ok (includeBlock_reads spelled pass)]
    exact ⟨rfl, by rw [opener]; decide⟩
  | relation spelled =>
    obtain ⟨hstart, left, e, read, hop, rest⟩ := relationWith_reads hin spelled pass hat hm
    obtain ⟨hopen, hclose⟩ := starts hstart
    rw [if_neg hopen, bind_of_ok read, bind_kind, if_pos hop, bind_of_ok rest]
    exact ⟨rfl, hclose⟩

theorem furtherElements_stops (element : Parse Element) (k : Nat) (h : c.kind ≠ .comma) :
    furtherElements element k c = .ok ([], false) c := by
  cases k with
  | zero => rfl
  | succ k =>
    have none : accept [.comma] c = .ok false c := by
      rw [accept_apply, if_neg (by simpa using h)]
    rw [furtherElements, bind_of_ok none]
    rfl

/-- A row of elements is read as its first element and the others. -/
theorem elements_read (hin : ReadsBraced braced (nested n (bracedWith body)) m)
    {xs : List Element} {trailingComma : Bool}
    (h : Element.RowSpelledWith braced n.levels xs trailingComma ts) (pass : c.Passes ts d)
    (hd : d.kind = .rightBrace) (hm : ts.length ≤ m) :
    c.kind ≠ .rightBrace ∧ ∃ x ys us e, xs = x :: ys ∧ elementWith body n c = .ok x e ∧
      e.Passes us d ∧ us.length < ts.length ∧
      ∀ k, us.length ≤ k → furtherElements (elementWith body n) k e = .ok (ys, trailingComma) d := by
  have comma_of (e : Cursor) (he : e.kind = .comma) : accept [.comma] e = .ok true e.advance := by
    rw [accept_apply, if_pos (by simpa using he)]
  induction h generalizing c with
  | @last x ts element =>
    have hts := List.length_pos_iff.2 element.ne_nil
    obtain ⟨read, hclose⟩ := elementWith_reads hin element pass (.inr hd) hm
    refine ⟨hclose, x, [], [], d, rfl, read, .refl d, hts, ?_⟩
    intro k _
    exact furtherElements_stops _ k (by rw [hd]; decide)
  | @trailing t x ts element comma =>
    obtain ⟨e, pass₁, pass₂⟩ := Cursor.Passes.split pass
    rw [List.length_append] at hm
    have he : e.kind = .comma := by rw [Cursor.kind, pass₂.current, comma]
    obtain ⟨read, hclose⟩ := elementWith_reads hin element pass₁ (.inl he) (by omega)
    have hts := List.length_pos_iff.2 element.ne_nil
    refine ⟨hclose, x, [], [t], e, rfl, read, pass₂, by simp; omega, ?_⟩
    intro k hk
    obtain ⟨k, rfl⟩ : ∃ j, k = j + 1 := ⟨k - 1, by simp at hk; omega⟩
    rw [furtherElements, bind_of_ok (comma_of e he), if_pos rfl, bind_kind,
      ← pass₂.tail.eq_of_nil, if_pos hd]
    rfl
  | @cons t x xs trailingComma ts us element comma elements ih =>
    obtain ⟨e, pass₁, pass₂⟩ := Cursor.Passes.split pass
    rw [List.length_append, List.length_cons] at hm
    have he : e.kind = .comma := by rw [Cursor.kind, pass₂.current, comma]
    obtain ⟨read, hclose⟩ := elementWith_reads hin element pass₁ (.inl he) (by omega)
    obtain ⟨hnext, y, ys, vs, e', rfl, read', pass₃, hvs, further⟩ := ih pass₂.tail (by omega)
    refine ⟨hclose, x, y :: ys, t :: us, e, rfl, read, pass₂, ?_, fun k hk => ?_⟩
    · have hts := List.length_pos_iff.2 element.ne_nil
      simp only [List.length_append, List.length_cons]
      omega
    · rw [List.length_cons] at hk
      obtain ⟨k, rfl⟩ : ∃ j, k = j + 1 := ⟨k - 1, by omega⟩
      rw [furtherElements, bind_of_ok (comma_of e he), if_pos rfl, bind_kind, if_neg hnext,
        bind_of_ok read', bind_of_ok (further k (by omega))]
      rfl

end

theorem blockBodyWithin_reads {k : Nat} {n : Nesting} {x : BlockBody}
    (h : x.SpelledWith (RightSide.SpelledIn n.levels) n.levels ts) (pass : c.Passes ts d)
    (hd : d.kind = .rightBrace) (hk : ts.length ≤ k) :
    blockBodyWithin k n c = .ok x d ∧ c.kind ≠ .rightBrace := by
  induction k generalizing n c d x ts with
  | zero =>
    cases h with
    | intro elements =>
      have := List.length_pos_iff.2 elements.ne_nil
      omega
  | succ k ih =>
    have hin : ReadsBraced (RightSide.SpelledIn n.levels)
        (nested n (bracedWith (blockBodyWithin k))) (k + 1) := by
      intro c d x ts hts hx pass hd
      cases hl : n.levels with
      | zero => rw [hl] at hx; exact hx.elim
      | succ l =>
        obtain ⟨deeper, hlevels⟩ := nested_of_levels hl (bracedWith (blockBodyWithin k))
        rw [hl, ← hlevels] at hx
        rw [deeper, bracedWith, bind_kind]
        cases hx with
        | empty => rw [← pass.eq_of_nil, if_pos hd]; rfl
        | body spelled =>
          obtain ⟨read, hclose⟩ := ih spelled pass hd (by omega)
          rw [if_neg hclose, bind_of_ok read]
          rfl
    cases h with
    | intro elements =>
      obtain ⟨hclose, x, ys, us, e, hxs, read, pass₁, hus, further⟩ :=
        elements_read hin elements pass hd hk
      cases hxs
      refine ⟨?_, hclose⟩
      rw [blockBodyWithin, bind_current, bind_of_ok read, bind_get,
        bind_of_ok (further _ pass₁.length_le)]
      dsimp only
      rw [bind_kind, if_pos hd]
      cases ts with
      | nil => exact absurd rfl elements.ne_nil
      | cons t ts =>
        rw [bind_originFrom, pass.current, pass.originFrom]
        rfl

theorem nested_blockBody_reads {n : Nesting} {m : Nat} :
    ReadsBraced (RightSide.SpelledIn n.levels) (nested n (bracedWith blockBody)) m := by
  intro c d x ts _ hx pass hd
  cases hl : n.levels with
  | zero => rw [hl] at hx; exact hx.elim
  | succ l =>
    obtain ⟨deeper, hlevels⟩ := nested_of_levels hl (bracedWith blockBody)
    rw [hl, ← hlevels] at hx
    rw [deeper, bracedWith, bind_kind]
    cases hx with
    | empty => rw [← pass.eq_of_nil, if_pos hd]; rfl
    | body spelled =>
      obtain ⟨read, hclose⟩ := blockBodyWithin_reads spelled pass hd pass.length_le
      rw [if_neg hclose, bind_of_ok (show blockBody n.deeper c = _ from read)]
      rfl

/-! ### Statements -/

theorem functionBlock_reads {n : Nesting} {x : FunctionBlock} (h : x.SpelledBy n.levels ts)
    (pass : c.Passes ts d) (hd : d.kind = .semicolon) :
    functionBlock n c = .ok x d ∧ c.kind ≠ .semicolon ∧ c.kind ≠ .dashComment := by
  unfold functionBlock
  rw [bind_kind]
  cases h with
  | inclusion spelled =>
    have opener : c.kind = .includeOpen := by
      cases spelled with
      | intro opener _ _ => rw [Cursor.kind, pass.current, opener]
    rw [if_pos opener, bind_of_ok (includeBlock_reads spelled pass), opener]
    exact ⟨rfl, by decide⟩
  | relation spelled =>
    obtain ⟨hstart, left, e, read, -, rest⟩ :=
      relationWith_reads nested_blockBody_reads spelled pass (by rw [hd]; decide) (Nat.le_refl _)
    have starts (k : TokenKind) (hk : k ∉ TokenKind.expressionStarts) : c.kind ≠ k :=
      fun he => hk (he ▸ hstart)
    rw [if_neg (starts _ (by decide)), bind_of_ok read, bind_of_ok rest]
    exact ⟨rfl, starts _ (by decide), starts _ (by decide)⟩

/-- What spells a statement is read as that statement. -/
theorem statement_reads {n : Nesting} {x : Statement} (h : x.SpelledBy n.levels ts)
    (pass : c.Passes ts d) : statement n c = .ok x d := by
  unfold statement
  rw [bind_current]
  cases h with
  | empty kind =>
    rw [pass.current, kind, pass.tail.eq_of_nil]
    rfl
  | dashComment kind =>
    rw [pass.current, kind, pass.tail.eq_of_nil]
    rfl
  | @block s x ts spelled semicolon =>
    obtain ⟨e, pass₁, pass₂⟩ := Cursor.Passes.split pass
    have he : e.kind = .semicolon := by rw [Cursor.kind, pass₂.current, semicolon]
    obtain ⟨read, hsemi, hdash⟩ := functionBlock_reads spelled pass₁ he
    unfold Cursor.kind at hsemi hdash
    generalize c.current.kind = k at hsemi hdash
    split
    next => exact absurd rfl hsemi
    next => exact absurd rfl hdash
    next =>
      rw [bind_of_ok read, bind_of_ok (expect_reads pass₂ semicolon), ← pass₂.tail.eq_of_nil,
        bind_originFrom]
      cases ts with
      | nil => exact absurd rfl spelled.ne_nil
      | cons t ts =>
        rw [List.cons_append] at pass ⊢
        rw [pass.current, pass.originFrom]
        rfl

end Parse

end RelationNotation
