import RelationNotation.Proofs.Canonical.SetOut

/-!
Tokens for well-formed trees. Whether or not a tree was read from a text, some tokens spell it
(`Statement.expressible`), so its canonical text is scanned as tokens that spell it.
-/

namespace RelationNotation

open Token

/-! ### Punctuation that stands for a choice -/

theorem PrefixMarker.exists_token (marker : PrefixMarker) :
    ∃ k, ofKind? k = some marker ∧ k.isClass = false ∧ ({} : ScanMode).after k = {} := by
  cases marker
  · exact ⟨.equals, rfl, rfl, rfl⟩
  · exact ⟨.prefixMark, rfl, rfl, rfl⟩

theorem SuffixMarker.exists_token (marker : SuffixMarker) :
    ∃ k, ofKind? k = some marker ∧ k.isClass = false ∧ ({} : ScanMode).after k = {} := by
  cases marker
  · exact ⟨.minus, rfl, rfl, rfl⟩
  · exact ⟨.plus, rfl, rfl, rfl⟩

theorem RelationKind.exists_token (kind : RelationKind) :
    ∃ k, ofToken? k = some kind ∧ k.isClass = false ∧ ({} : ScanMode).after k = {} := by
  cases kind
  · exact ⟨.shape, rfl, rfl, rfl⟩
  · exact ⟨.hold, rfl, rfl, rfl⟩
  · exact ⟨.shift, rfl, rfl, rfl⟩
  · exact ⟨.flow, rfl, rfl, rfl⟩
  · exact ⟨.melt, rfl, rfl, rfl⟩

/-! ### Gac strings -/

theorem SetOut.loose {ts us : List Token} {u : Token} (h₁ : SetOut ts) (hts : ts ≠ [])
    (h₂ : SetOut (u :: us)) : Loose ts u := by
  apply loose_of_not_touches
  have hstop : 0 < (ts.getLastD default).span.stop.offset := by
    obtain ⟨vs, v, rfl⟩ := ts.eq_nil_or_concat.resolve_left hts
    rw [List.concat_eq_append] at h₁ ⊢
    simpa using h₁.stops v (by simp)
  have hstart := h₂.start u rfl
  simp only [touches, beq_iff_eq]
  omega

section
variable {bracketed : GacString → List Token → Token → Prop} {d : Nat}

/-- What nests in less than a number of levels may stand between brackets. -/
def ExpressesBracketed (bracketed : GacString → List Token → Token → Prop) (d : Nat) : Prop :=
  ∀ ⦃x : GacString⦄, x.isWellFormed → x.nesting < d →
    Expressible (fun y ts => ∀ next, next.kind = .rightBracket → bracketed y ts next)
      (GacString.mapOrigins .bare ()) x

theorem GacStem.expressible (hin : ExpressesBracketed bracketed d) {x : GacStem}
    (h : x.isWellFormed) (shallow : x.nesting ≤ d) :
    Expressible (fun y ts => ∀ next, Loose ts next → GacStem.SpelledWith bracketed next y ts)
      (GacStem.mapOrigins .bare ()) x := by
  have named {y : Identifier} (hy : y.isName) : SetOut [atStart .identifier y.text] :=
    .single rfl (y.fits hy .token) rfl
  cases x with
  | fycoide x =>
    rw [isWellFormed] at h
    exact (Fycoide.expressible h).map GacStem.fycoide (fun hy _ _ => .fycoide hy) fun _ => rfl
  | pointerRef x =>
    rw [isWellFormed] at h
    exact (PointerRef.expressible h).map GacStem.pointerRef (fun hy _ _ => .pointerRef hy)
      fun _ => rfl
  | operator x =>
    rw [isWellFormed] at h
    obtain ⟨k, hk, htext⟩ := exists_kind (TokenKind.bareOperators ++ [.minus, .plus]) (by decide) h
    have facts : ∀ k ∈ TokenKind.bareOperators ++ [.minus, .plus],
        k.isClass = false ∧ ({} : ScanMode).after k = {} := by
      decide
    obtain ⟨punctuation, clear⟩ := facts k hk
    refine ⟨[mark k], .operator (mark k).toOperator, .mark punctuation clear, ?_, ?_⟩
    · intro next loose
      -- A lone sign is an operator only where no name follows it at once.
      rcases List.mem_append.1 hk with bare | sign
      · exact .operator bare
      · refine .sign ?_ loose.2
        rcases List.mem_pair.1 sign with rfl | rfl <;> rfl
    · rw [mark, htext]
      rfl
  | identifier x =>
    rw [isWellFormed] at h
    exact ⟨_, _, named h, fun next loose => .identifier rfl loose.1, rfl⟩
  | front x =>
    rw [isWellFormed] at h
    obtain ⟨origin, name, marker⟩ := x
    obtain ⟨k, hmark, punctuation, clear⟩ := marker.exists_token
    refine ⟨_, _, (named h).pair (.mark punctuation clear), fun next _ => .front rfl hmark ?_, rfl⟩
    exact touches_placed (atStart .identifier name.text) (mark k) .start
  | ending x =>
    rw [isWellFormed] at h
    obtain ⟨origin, marker, name⟩ := x
    obtain ⟨k, hmark, punctuation, clear⟩ := marker.exists_token
    refine ⟨_, _, (SetOut.mark punctuation clear).pair (named h),
      fun next _ => .ending hmark rfl ?_, rfl⟩
    exact touches_placed (mark k) (atStart .identifier name.text) .start
  | synonym x =>
    rw [isWellFormed] at h
    exact ⟨_, _, (SetOut.mark (k := .synonym) rfl rfl).append (named h),
      fun next _ => .synonym rfl rfl, rfl⟩
  | nested x =>
    obtain ⟨origin, content⟩ := x
    rw [isWellFormed, GacNested.isWellFormed] at h
    rw [nesting, GacNested.nesting] at shallow
    obtain ⟨ts, y, setOut, spelled, erased⟩ := hin h shallow
    refine ⟨_, _, setOut.enclosed (o := .leftBracket) (c := .rightBracket) rfl rfl rfl rfl,
      fun next _ => .nested rfl (spelled _ rfl) rfl, ?_⟩
    exact congrArg (fun z => GacStem.nested ⟨default, z⟩) erased

theorem GacStem.row_expressible (hin : ExpressesBracketed bracketed d) {x : GacStem}
    {xs : List GacStem} (h : x.isWellFormed && GacStem.areWellFormed xs)
    (shallow : max x.nesting (GacStem.nestingAmong xs) ≤ d) :
    Expressible (fun ys ts => ∀ next, Loose ts next → GacStem.RowSpelledWith bracketed next ys ts)
      (List.map (GacStem.mapOrigins .bare ())) (x :: xs) := by
  induction xs generalizing x with
  | nil =>
    rw [Bool.and_eq_true] at h
    obtain ⟨ts, y, setOut, spelled, erased⟩ :=
      GacStem.expressible hin h.1 (Nat.le_trans (Nat.le_max_left _ _) shallow)
    exact ⟨ts, [y], setOut, fun next loose => .last (spelled next loose),
      congrArg (fun z => [z]) erased⟩
  | cons z zs ih =>
    rw [Bool.and_eq_true, areWellFormed] at h
    rw [nestingAmong, Nat.max_le] at shallow
    obtain ⟨ts, y, setOut, spelled, erased⟩ := GacStem.expressible hin h.1 shallow.1
    obtain ⟨us, ys, setOut', spelled', erased'⟩ := ih h.2 shallow.2
    -- Neither part is empty, whatever stands behind it; a closer may stand behind both.
    have hts := (spelled (mark .rightBracket) (loose_of_closer ts rfl)).ne_nil
    have hus := (spelled' (mark .rightBracket) (loose_of_closer us rfl)).ne_nil
    obtain ⟨u, us, rfl⟩ := List.exists_cons_of_ne_nil hus
    refine ⟨ts ++ u :: us, y :: ys, setOut.append setOut', fun next loose => ?_, ?_⟩
    · exact .cons (spelled u (setOut.loose hts setOut')) (spelled' next (loose.of_append hus))
    · rw [List.map_cons, List.map_cons, erased, erased']

theorem GacString.expressible_with (hin : ExpressesBracketed bracketed d) {x : GacString}
    (h : x.isWellFormed) (shallow : x.nesting ≤ d) :
    Expressible (fun y ts => ∀ next, next.kind = .rightBracket → y.SpelledWith bracketed ts next)
      (GacString.mapOrigins .bare ()) x := by
  obtain ⟨origin, first, rest⟩ := x
  rw [isWellFormed] at h
  rw [nesting] at shallow
  obtain ⟨ts, zs, setOut, spelled, erased⟩ := GacStem.row_expressible hin h shallow
  cases zs with
  | nil => cases erased
  | cons y ys =>
    refine ⟨ts, ⟨originOver ts, y, ys⟩, setOut,
      fun next closer => .intro (spelled next (loose_of_closer ts closer)), ?_⟩
    obtain ⟨hfirst, hrest⟩ := List.cons.inj erased
    rw [mapOrigins, mapOrigins, GacStem.mapListOrigins_each, GacStem.mapListOrigins_each]
    exact congrArg₂ (GacString.mk default) hfirst hrest

end

theorem GacString.expressible (d : Nat) : ExpressesBracketed (fun x => x.SpelledIn d) d := by
  induction d with
  | zero => exact fun x _ shallow => absurd shallow (Nat.not_lt_zero _)
  | succ d ih => exact fun x h shallow => expressible_with ih h (Nat.le_of_lt_succ shallow)

/-! ### Expressions -/

theorem Pointer.option_expressible {x : Option Pointer} (h : Pointer.isWellFormedOption x) :
    Expressible Pointer.OptionSpelledBy (Option.map (Pointer.mapOrigins .bare ())) x := by
  cases x with
  | none => exact ⟨[], none, .nil, .none, rfl⟩
  | some x => exact (Pointer.expressible h).map some .some fun _ => rfl

theorem gacWord_expressible {d : Nat} {o : TokenKind} {x : GacString} {pointer : Option Pointer}
    (punctuation : o.isClass = false) (clear : ({} : ScanMode).after o = {})
    (h : x.isWellFormed && Pointer.isWellFormedOption pointer) (shallow : x.nesting + 1 ≤ d) :
    ∃ ts us, ∃ y : GacString, ∃ pointer' : Option Pointer,
      SetOut (mark o :: ts ++ mark .rightBracket :: us) ∧ y.SpelledIn d ts (mark .rightBracket) ∧
      Pointer.OptionSpelledBy pointer' us ∧ y.mapOrigins .bare () = x.mapOrigins .bare () ∧
      pointer'.map (·.mapOrigins .bare ()) = pointer.map (·.mapOrigins .bare ()) := by
  rw [Bool.and_eq_true] at h
  obtain ⟨ts, y, setOut, spelled, erased⟩ := GacString.expressible d h.1 shallow
  obtain ⟨us, pointer', setOut', spelled', erased'⟩ := Pointer.option_expressible h.2
  refine ⟨ts, us, y, pointer', ?_, spelled _ rfl, spelled', erased, erased'⟩
  have opened := (SetOut.mark punctuation clear).append setOut
  exact opened.append ((SetOut.mark (k := .rightBracket) rfl rfl).append setOut')

theorem Expression.expressible {d : Nat} {x : Expression} (h : x.isWellFormed)
    (shallow : x.nesting ≤ d) :
    Expressible (Expression.SpelledBy d) (Expression.mapOrigins .bare ()) x := by
  cases x with
  | typeDesc x => exact (TypeDesc.expressible h).map Expression.typeDesc .typeDesc fun _ => rfl
  | protoGacWord x =>
    obtain ⟨ts, us, y, pointer, setOut, spelled, target, erased, erased'⟩ :=
      gacWord_expressible (o := .protoOpen) rfl rfl h shallow
    refine ⟨_, _, setOut, .protoGacWord rfl spelled rfl target, ?_⟩
    exact congrArg₂ (fun a b => Expression.protoGacWord ⟨default, a, b⟩) erased erased'
  | stdGacWord x =>
    obtain ⟨ts, us, y, pointer, setOut, spelled, target, erased, erased'⟩ :=
      gacWord_expressible (o := .leftBracket) rfl rfl h shallow
    refine ⟨_, _, setOut, .stdGacWord rfl spelled rfl target, ?_⟩
    exact congrArg₂ (fun a b => Expression.stdGacWord ⟨default, a, b⟩) erased erased'
  | fycoide x => exact (Fycoide.expressible h).map Expression.fycoide .fycoide fun _ => rfl
  | pointerRef x =>
    exact (PointerRef.expressible h).map Expression.pointerRef .pointerRef fun _ => rfl

/-! ### Relations -/

section
variable {braced : RightSide → List Token → Prop} {d : Nat}

/-- What nests in a number of levels at most may stand between braces. -/
def ExpressesBraced (braced : RightSide → List Token → Prop) (d : Nat) : Prop :=
  ∀ ⦃x : RightSide⦄, x.isBlock → x.isWellFormed → x.nesting ≤ d →
    Expressible (RightSide.BetweenBraces braced) (RightSide.mapOrigins .bare ()) x

theorem Relation.expressible (hin : ExpressesBraced braced d) {x : Relation} (h : x.isWellFormed)
    (shallow : x.nesting ≤ d) :
    Expressible (Relation.SpelledWith braced d) (Relation.mapOrigins .bare ()) x := by
  obtain ⟨kind, origin, left, right⟩ := x
  rw [isWellFormed, Bool.and_eq_true] at h
  rw [nesting, Nat.max_le] at shallow
  obtain ⟨ts, y, setOut, spelled, erased⟩ := Expression.expressible h.1 shallow.1
  obtain ⟨k, operator, punctuation, clear⟩ := kind.exists_token
  have sides {us : List Token} (setOut' : SetOut us) : SetOut (ts ++ mark k :: us) :=
    setOut.append ((SetOut.mark punctuation clear).append setOut')
  by_cases block : right.isBlock
  · obtain ⟨us, z, setOut', between, erased'⟩ := hin block h.2 shallow.2
    obtain ⟨us, b, c, rfl, opener, content, closer⟩ := between
    refine ⟨_, _, sides setOut', .block spelled operator opener content closer, ?_⟩
    rw [mapOrigins, mapOrigins]
    exact congrArg₂ (fun a b => Relation.mk kind default a b) erased erased'
  · cases right with
    | expression right =>
      rw [RightSide.isWellFormed] at h
      rw [RightSide.nesting] at shallow
      obtain ⟨us, z, setOut', spelled', erased'⟩ := Expression.expressible h.2 shallow.2
      refine ⟨_, _, sides setOut', .pure spelled operator spelled', ?_⟩
      rw [mapOrigins, mapOrigins, RightSide.mapOrigins, RightSide.mapOrigins]
      exact congrArg₂ (fun a b => Relation.mk kind default a (.expression b)) erased erased'
    | _ => exact absurd rfl block

theorem Element.expressible (hin : ExpressesBraced braced d) {x : Element} (h : x.isWellFormed)
    (shallow : x.nesting ≤ d) :
    Expressible (Element.SpelledWith braced d) (Element.mapOrigins .bare ()) x := by
  cases x with
  | expression x =>
    rw [isWellFormed] at h
    rw [nesting] at shallow
    exact (Expression.expressible h shallow).map Element.expression .expression
      fun _ => by rw [mapOrigins]
  | inclusion x =>
    rw [isWellFormed] at h
    exact (Include.expressible h).map Element.inclusion .inclusion fun _ => by rw [mapOrigins]
  | relation x =>
    rw [isWellFormed] at h
    rw [nesting] at shallow
    exact (Relation.expressible hin h shallow).map Element.relation .relation
      fun _ => by rw [mapOrigins]

theorem Element.row_expressible (hin : ExpressesBraced braced d) (trailingComma : Bool)
    {x : Element} {xs : List Element} (h : x.isWellFormed && Element.areWellFormed xs)
    (shallow : max x.nesting (Element.nestingAmong xs) ≤ d) :
    Expressible (fun ys ts => Element.RowSpelledWith braced d ys trailingComma ts)
      (List.map (Element.mapOrigins .bare ())) (x :: xs) := by
  have comma : SetOut [mark .comma] := .mark rfl rfl
  induction xs generalizing x with
  | nil =>
    rw [Bool.and_eq_true] at h
    obtain ⟨ts, y, setOut, spelled, erased⟩ :=
      Element.expressible hin h.1 (Nat.le_trans (Nat.le_max_left _ _) shallow)
    have erased' : [y].map (mapOrigins .bare ()) = [x].map (mapOrigins .bare ()) :=
      congrArg (fun z => [z]) erased
    cases trailingComma with
    | false => exact ⟨ts, [y], setOut, .last spelled, erased'⟩
    | true => exact ⟨_, [y], setOut.append comma, .trailing spelled rfl, erased'⟩
  | cons z zs ih =>
    rw [Bool.and_eq_true, areWellFormed] at h
    rw [nestingAmong, Nat.max_le] at shallow
    obtain ⟨ts, y, setOut, spelled, erased⟩ := Element.expressible hin h.1 shallow.1
    obtain ⟨us, ys, setOut', spelled', erased'⟩ := ih h.2 shallow.2
    refine ⟨_, y :: ys, setOut.append (comma.append setOut'), .cons spelled rfl spelled', ?_⟩
    rw [List.map_cons, List.map_cons, erased, erased']

theorem BlockBody.expressible (hin : ExpressesBraced braced d) {x : BlockBody}
    (h : x.isWellFormed) (shallow : x.nesting ≤ d) :
    Expressible (BlockBody.SpelledWith braced d) (BlockBody.mapOrigins .bare ()) x := by
  obtain ⟨origin, first, rest, trailingComma⟩ := x
  rw [isWellFormed] at h
  rw [nesting] at shallow
  obtain ⟨ts, zs, setOut, spelled, erased⟩ := Element.row_expressible hin trailingComma h shallow
  cases zs with
  | nil => cases erased
  | cons y ys =>
    refine ⟨ts, _, setOut, .intro spelled, ?_⟩
    obtain ⟨hfirst, hrest⟩ := List.cons.inj erased
    rw [mapOrigins, mapOrigins, Element.mapListOrigins_each, Element.mapListOrigins_each]
    exact congrArg₂ (fun a b => BlockBody.mk default a b trailingComma) hfirst hrest

theorem braces_expressible (hin : ExpressesBraced braced d) :
    ExpressesBraced (RightSide.BracesSpelledWith braced d) (d + 1) := by
  have enclosed {ts : List Token} (setOut : SetOut ts) :
      SetOut (mark .leftBrace :: (ts ++ [mark .rightBrace])) :=
    setOut.enclosed (o := .leftBrace) (c := .rightBrace) rfl rfl rfl rfl
  intro x block h shallow
  cases x with
  | expression x => cases block
  | emptyBlock =>
    exact ⟨_, .emptyBlock, enclosed .nil, ⟨[], _, _, rfl, rfl, .empty, rfl⟩, rfl⟩
  | block body =>
    rw [RightSide.isWellFormed] at h
    rw [RightSide.nesting] at shallow
    obtain ⟨ts, y, setOut, spelled, erased⟩ :=
      BlockBody.expressible hin h (Nat.le_of_succ_le_succ shallow)
    refine ⟨_, .block y, enclosed setOut, ⟨ts, _, _, rfl, rfl, .body spelled, rfl⟩, ?_⟩
    rw [RightSide.mapOrigins, RightSide.mapOrigins, erased]

end

theorem RightSide.expressible (d : Nat) : ExpressesBraced (RightSide.SpelledIn d) d := by
  induction d with
  | zero =>
    intro x block _ shallow
    cases x with
    | expression x => cases block
    | emptyBlock => exact absurd shallow (by simp [nesting])
    | block body => exact absurd shallow (by simp [nesting])
  | succ d ih => exact braces_expressible ih

/-! ### Statements -/

theorem FunctionBlock.expressible {d : Nat} {x : FunctionBlock} (h : x.isWellFormed)
    (shallow : x.nesting ≤ d) :
    Expressible (FunctionBlock.SpelledBy d) (FunctionBlock.mapOrigins .bare ()) x := by
  cases x with
  | inclusion x =>
    exact (Include.expressible h).map FunctionBlock.inclusion .inclusion fun _ => rfl
  | relation x =>
    exact (Relation.expressible (RightSide.expressible d) h shallow).map FunctionBlock.relation
      .relation fun _ => rfl

theorem Statement.expressible {d : Nat} {x : Statement} (h : x.isWellFormed)
    (shallow : x.nesting ≤ d) :
    Expressible (Statement.SpelledBy d) (Statement.mapOrigins .bare ()) x := by
  have semicolon : SetOut [mark .semicolon] := .mark rfl rfl
  cases x with
  | block x =>
    obtain ⟨ts, y, setOut, spelled, erased⟩ := FunctionBlock.expressible h shallow
    refine ⟨_, _, setOut.append semicolon, .block spelled rfl, ?_⟩
    exact congrArg (fun z => Statement.block ⟨default, z⟩) erased
  | dashComment x => exact ⟨_, _, .single rfl (x.fits h .token) rfl, .dashComment rfl, rfl⟩
  | empty x => exact ⟨_, _, semicolon, .empty rfl, rfl⟩
  | error x => cases h

end RelationNotation
