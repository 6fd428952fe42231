import RelationNotation.Proofs.Canonical.GacString
import RelationNotation.Proofs.Token.Recut

/-!
Statements written again. Their parts stand one space apart, or behind a character that joins
nothing, so that the canonical text of a statement is scanned as the tokens that spell it.
-/

namespace RelationNotation

open Token

/-! ### Expressions -/

/-- A gac word's brackets with what stands between them, and the pointer behind them. -/
theorem gacWord_writes {d : Nat} {o c : Token} {x : GacString} {pointer : Option Pointer}
    {ts us : List Token} (opener : o.kind ∈ TokenKind.loners)
    (clear : ({} : ScanMode).after o.kind = {}) (content : x.SpelledIn d ts c)
    (closer : c.kind = .rightBracket) (target : Pointer.OptionSpelledBy pointer us)
    (fit : Fitting {} (o :: ts ++ c :: us)) :
    ({} : ScanMode).afterAll (o :: ts ++ c :: us) = {} ∧ ∀ p v, Separates v →
      ∃ vs ws, ∃ c' : Token, ∃ y : GacString, ∃ pointer' : Option Pointer,
        Writes {} p (o.text ++ (x.canonical ++ c.text) ++ Pointer.canonicalOption pointer) v
          (o :: ts ++ c :: us) (o.placedAt p :: vs ++ c' :: ws) ∧
        y.SpelledIn d vs c' ∧ c'.kind = .rightBracket ∧ Pointer.OptionSpelledBy pointer' ws ∧
        y.mapOrigins .bare () = x.mapOrigins .bare () ∧
        pointer'.map (·.mapOrigins .bare ()) = pointer.map (·.mapOrigins .bare ()) := by
  rw [List.append_cons] at fit
  obtain ⟨fit₁, fit₂⟩ := fitting_append.1 fit
  have hc : c.text = [']'] := text_of_fits closer (fitting_append.1 fit₁).2.2.1 fun _ h => h.1
  obtain ⟨clean, again⟩ := gacString_rewrites d content (fitting_enclosed fit₁ clear)
  have clean₁ := afterAll_enclosed clear clean (show ({} : ScanMode).after c.kind = {} by
    rw [closer]; rfl)
  rw [clean₁] at fit₂
  have word (p : Position) (v : Text) :
      ∃ vs, ∃ c' : Token, ∃ y : GacString,
        Writes {} p (o.text ++ (x.canonical ++ c.text)) v (o :: ts ++ [c])
          (o.placedAt p :: vs ++ [c']) ∧
        y.SpelledIn d vs c' ∧ c'.kind = .rightBracket ∧
        y.mapOrigins .bare () = x.mapOrigins .bare () := by
    obtain ⟨vs, y, written, hy, erased⟩ := again (p.after o.text) (c.text ++ v)
      ⟨v, by rw [hc]; rfl⟩
    have enclosed := written.enclosed fit₁ opener clear clean (by rw [closer]; decide)
    exact ⟨vs, _, y, enclosed, hy _ closer, closer, erased⟩
  cases target with
  | none =>
    refine ⟨clean₁, ?_⟩
    intro p v _
    obtain ⟨vs, c', y, written, hy, closer', erased⟩ := word p v
    rw [Pointer.canonicalOption, List.append_nil]
    exact ⟨vs, [], c', y, none, written, hy, closer', .none, erased, rfl⟩
  | @some z us spelled =>
    have hus : us ≠ [] := by cases spelled; simp
    obtain ⟨clean₂, again₂⟩ := pointer_rewrites spelled fit₂
    refine ⟨by rw [List.append_cons, ScanMode.afterAll_append, clean₁, clean₂], ?_⟩
    intro p v hv
    obtain ⟨vs, c', y, written, hy, closer', erased⟩ := word p (z.canonical ++ v)
    obtain ⟨ws, pointer', written', hpointer, erased'⟩ :=
      again₂ (p.after (o.text ++ (x.canonical ++ c.text))) v hv
    rw [← clean₁] at written'
    have whole := written.append written' hus
    rw [← List.append_cons, ← List.append_cons] at whole
    exact ⟨vs, ws, c', y, some pointer', whole, hy, closer', .some hpointer, erased,
      congrArg some erased'⟩

theorem expression_rewrites {d : Nat} {x : Expression} {ts : List Token} (h : x.SpelledBy d ts)
    (fit : Fitting {} ts) :
    Rewrites (Expression.SpelledBy d) (Expression.mapOrigins .bare ()) Separates x x.canonical
      ts := by
  cases h with
  | typeDesc spelled =>
    exact (typeDesc_rewrites spelled fit).map Expression.typeDesc .typeDesc (fun _ => rfl)
      fun _ _ => trivial
  | @protoGacWord o c x pointer ts us opener content closer target =>
    have ho : o.text = ['*', '['] := text_of_fits opener fit.2.1 fun _ h => h.1
    have hc : c.text = [']'] :=
      text_of_fits closer (fitting_append.1 fit).2.2.1 fun _ h => h.1
    have text : Expression.canonical (.protoGacWord ⟨originOver (o :: ts ++ c :: us), x, pointer⟩) =
        o.text ++ (x.canonical ++ c.text) ++ Pointer.canonicalOption pointer := by
      rw [ho, hc]
      simp [Expression.canonical, ProtoGacWord.canonical]
    obtain ⟨clean, again⟩ := gacWord_writes (by rw [opener]; decide) (by rw [opener]; rfl) content
      closer target fit
    refine ⟨clean, ?_⟩
    intro p v hv
    obtain ⟨vs, ws, c', y, pointer', written, hy, closer', target', erased, erased'⟩ := again p v hv
    rw [text]
    refine ⟨_, _, written, .protoGacWord (o := o.placedAt p) opener hy closer' target', ?_⟩
    exact congrArg₂ (fun a b => Expression.protoGacWord ⟨default, a, b⟩) erased erased'
  | @stdGacWord o c x pointer ts us opener content closer target =>
    have ho : o.text = ['['] := text_of_fits opener fit.2.1 fun _ h => h.1
    have hc : c.text = [']'] :=
      text_of_fits closer (fitting_append.1 fit).2.2.1 fun _ h => h.1
    have text : Expression.canonical (.stdGacWord ⟨originOver (o :: ts ++ c :: us), x, pointer⟩) =
        o.text ++ (x.canonical ++ c.text) ++ Pointer.canonicalOption pointer := by
      rw [ho, hc]
      simp [Expression.canonical, StdGacWord.canonical]
    obtain ⟨clean, again⟩ := gacWord_writes (by rw [opener]; decide) (by rw [opener]; rfl) content
      closer target fit
    refine ⟨clean, ?_⟩
    intro p v hv
    obtain ⟨vs, ws, c', y, pointer', written, hy, closer', target', erased, erased'⟩ := again p v hv
    rw [text]
    refine ⟨_, _, written, .stdGacWord (o := o.placedAt p) opener hy closer' target', ?_⟩
    exact congrArg₂ (fun a b => Expression.stdGacWord ⟨default, a, b⟩) erased erased'
  | fycoide spelled =>
    exact (fycoide_rewrites spelled fit).map Expression.fycoide .fycoide (fun _ => rfl)
      fun _ _ => trivial
  | pointerRef spelled =>
    exact (pointerRef_rewrites spelled fit).map Expression.pointerRef .pointerRef (fun _ => rfl)
      fun _ => id

/-! ### Relations -/

/-- An operator between its two sides. -/
theorem relation_writes {β γ : Type} {spelled : β → List Token → Prop} {erase : β → γ}
    {before : Text → Prop} {d : Nat} {x : Expression} {z : β} {right : Text} {o : Token}
    {kind : RelationKind} {ts us : List Token} (left : x.SpelledBy d ts)
    (operator : RelationKind.ofToken? o.kind = some kind) (fit : Fitting {} (ts ++ o :: us))
    (hright : Fitting {} us → Rewrites spelled erase before z right us) (hus : us ≠ []) :
    ({} : ScanMode).afterAll (ts ++ o :: us) = {} ∧ ∀ p v, before v →
      ∃ vs ws, ∃ o' : Token, ∃ y : Expression, ∃ z' : β,
        Writes {} p (relationText x.canonical kind.operator right) v (ts ++ o :: us)
          (vs ++ o' :: ws) ∧
        o'.kind = o.kind ∧ y.SpelledBy d vs ∧ spelled z' ws ∧
        y.mapOrigins .bare () = x.mapOrigins .bare () ∧ erase z' = erase z := by
  obtain ⟨fit₁, fit₂⟩ := fitting_append.1 fit
  obtain ⟨clean₁, again₁⟩ := expression_rewrites left fit₁
  rw [clean₁] at fit₂
  obtain ⟨takes, fits, fit₃⟩ := fit₂
  have facts : o.kind ∈ TokenKind.loners ∧ ({} : ScanMode).after o.kind = {} ∧
      o.text = kind.operator.toList := by
    generalize o.kind = k at operator fits
    cases k <;> cases operator <;> exact ⟨by decide, rfl, fits.1⟩
  obtain ⟨loner, clear, text⟩ := facts
  rw [clear] at fit₃
  obtain ⟨clean₂, again₂⟩ := hright fit₃
  refine ⟨by rw [ScanMode.afterAll_append, clean₁, ScanMode.afterAll_cons, clear, clean₂],
    fun p v hv => ?_⟩
  obtain ⟨vs, y, written₁, hy, erased₁⟩ := again₁ p (' ' :: (o.text ++ ' ' :: right) ++ v)
    (separates_cons (by decide) _)
  have written₂ := Writes.token (p := (p.after x.canonical).next ' ') takes fits
    (TokenKind.stopsAt_of_loner loner (' ' :: right ++ v))
  obtain ⟨ws, z', written₃, hz, erased₂⟩ :=
    again₂ (((p.after x.canonical).next ' ').after o.text |>.next ' ') v hv
  have tail := written₂.append (by
    rw [ScanMode.afterAll_cons, clear]
    exact written₃.blank) hus
  have whole := written₁.append (by rw [clean₁]; exact tail.blank) (by simp)
  have canonical : relationText x.canonical kind.operator right =
      x.canonical ++ ' ' :: (o.text ++ ' ' :: right) := by
    rw [text]
    simp [relationText]
  rw [canonical]
  exact ⟨vs, ws, _, y, z', whole, rfl, hy, hz, erased₁, erased₂⟩

section
variable {braced : RightSide → List Token → Prop} {d : Nat}

/-- Braces with what may stand between them. -/
def RightSide.BetweenBraces (braced : RightSide → List Token → Prop) (x : RightSide)
    (ts : List Token) : Prop :=
  ∃ us, ∃ b c : Token, ts = b :: (us ++ [c]) ∧ b.kind = .leftBrace ∧ braced x us ∧
    c.kind = .rightBrace

/-- What stands between braces is written again. -/
def RewritesBraced (braced : RightSide → List Token → Prop) : Prop :=
  ∀ ⦃x ts⦄, RightSide.BetweenBraces braced x ts → Fitting {} ts →
    Rewrites (RightSide.BetweenBraces braced) (RightSide.mapOrigins .bare ()) (fun _ => True) x
      x.canonical ts

theorem relation_rewrites (hin : RewritesBraced braced) {x : Relation} {ts : List Token}
    (h : x.SpelledWith braced d ts) (fit : Fitting {} ts) :
    Rewrites (Relation.SpelledWith braced d) (Relation.mapOrigins .bare ()) Separates x
      x.canonical ts := by
  cases h with
  | @pure o kind x y ts us left operator right =>
    obtain ⟨clean, again⟩ := relation_writes left operator fit (expression_rewrites right)
      right.ne_nil
    refine ⟨clean, ?_⟩
    intro p v hv
    obtain ⟨vs, ws, o', x', y', written, ho, hx, hy, erased₁, erased₂⟩ := again p v hv
    refine ⟨_, _, by rw [Relation.canonical, RightSide.canonical]; exact written,
      .pure hx (by rw [ho]; exact operator) hy, ?_⟩
    rw [Relation.mapOrigins, Relation.mapOrigins, RightSide.mapOrigins, RightSide.mapOrigins]
    exact congrArg₂ (fun a b => Relation.mk kind default a (.expression b)) erased₁ erased₂
  | @block o b c kind x y ts us left operator opener content closer =>
    obtain ⟨clean, again⟩ := relation_writes left operator fit
      (hin ⟨us, b, c, rfl, opener, content, closer⟩) (by simp)
    refine ⟨clean, ?_⟩
    intro p v hv
    obtain ⟨vs, ws, o', x', y', written, ho, hx, hy, erased₁, erased₂⟩ := again p v trivial
    obtain ⟨us', b', c', rfl, opener', content', closer'⟩ := hy
    refine ⟨_, _, by rw [Relation.canonical]; exact written,
      .block hx (by rw [ho]; exact operator) opener' content' closer', ?_⟩
    rw [Relation.mapOrigins, Relation.mapOrigins]
    exact congrArg₂ (fun a b => Relation.mk kind default a b) erased₁ erased₂

theorem element_rewrites (hin : RewritesBraced braced) {x : Element} {ts : List Token}
    (h : x.SpelledWith braced d ts) (fit : Fitting {} ts) :
    Rewrites (Element.SpelledWith braced d) (Element.mapOrigins .bare ()) Separates x x.canonical
      ts := by
  cases h with
  | expression spelled =>
    rw [Element.canonical]
    exact (expression_rewrites spelled fit).map Element.expression .expression
      (fun _ => by rw [Element.mapOrigins]) fun _ => id
  | inclusion spelled =>
    rw [Element.canonical]
    exact (include_rewrites spelled fit).map Element.inclusion .inclusion
      (fun _ => by rw [Element.mapOrigins]) fun _ _ => trivial
  | relation spelled =>
    rw [Element.canonical]
    exact (relation_rewrites hin spelled fit).map Element.relation .relation
      (fun _ => by rw [Element.mapOrigins]) fun _ => id

/-! ### Block bodies -/

/-- Elements with a comma and a space between any two, and a comma behind the last or not. -/
def Element.canonicalRow (trailingComma : Bool) : List Element → Text
  | [] => []
  | x :: xs => x.canonical ++ Element.canonicalRest xs ++ if trailingComma then [','] else []

theorem Element.canonicalRow_cons (trailingComma : Bool) (x : Element) {xs : List Element}
    (h : xs ≠ []) : Element.canonicalRow trailingComma (x :: xs) =
      x.canonical ++ ',' :: ' ' :: Element.canonicalRow trailingComma xs := by
  obtain ⟨y, ys, rfl⟩ := List.exists_cons_of_ne_nil h
  rw [Element.canonicalRow, Element.canonicalRest, Element.canonicalRow]
  simp

theorem Element.RowSpelledWith.elements_ne_nil {xs : List Element} {trailingComma : Bool}
    {ts : List Token} (h : Element.RowSpelledWith braced d xs trailingComma ts) : xs ≠ [] := by
  cases h <;> simp

theorem elements_rewrite (hin : RewritesBraced braced) {xs : List Element} {trailingComma : Bool}
    {ts : List Token} (h : Element.RowSpelledWith braced d xs trailingComma ts)
    (fit : Fitting {} ts) :
    Rewrites (fun ys us => Element.RowSpelledWith braced d ys trailingComma us)
      (List.map (Element.mapOrigins .bare ())) Separates xs
      (Element.canonicalRow trailingComma xs) ts := by
  have comma {c : Token} {m : ScanMode} (hc : c.kind = .comma) (fits : c.kind.Fits m.awaited c.text) :
      c.kind ∈ TokenKind.loners ∧ ({} : ScanMode).after c.kind = {} ∧ c.text = [','] :=
    ⟨by rw [hc]; decide, by rw [hc]; rfl, text_of_fits hc fits fun _ h => h.1⟩
  induction h with
  | @last x ts element =>
    obtain ⟨clean, again⟩ := element_rewrites hin element fit
    have canonical : Element.canonicalRow false [x] = x.canonical := by
      simp [Element.canonicalRow, Element.canonicalRest]
    refine ⟨clean, ?_⟩
    intro p v hv
    obtain ⟨us, y, written, hy, erased⟩ := again p v hv
    rw [canonical]
    exact ⟨us, [y], written, .last hy, congrArg (fun z => [z]) erased⟩
  | @trailing c x ts element hc =>
    obtain ⟨fit₁, takes, fits, -⟩ := fitting_append.1 fit
    obtain ⟨loner, clear, text⟩ := comma hc fits
    obtain ⟨clean, again⟩ := element_rewrites hin element fit₁
    rw [clean] at takes fits
    have canonical : Element.canonicalRow true [x] = x.canonical ++ c.text := by
      simp [Element.canonicalRow, Element.canonicalRest, text]
    refine ⟨by rw [ScanMode.afterAll_append, clean, ScanMode.afterAll_cons, clear]; rfl,
      fun p v _ => ?_⟩
    obtain ⟨us, y, written₁, hy, erased⟩ := again p (c.text ++ v) (by
      rw [text]
      exact separates_cons (by decide) v)
    have written₂ := Writes.token (p := p.after x.canonical) takes fits
      (TokenKind.stopsAt_of_loner loner v)
    rw [← clean] at written₂
    rw [canonical]
    exact ⟨_, [y], written₁.append written₂ (List.cons_ne_nil c []), .trailing hy hc,
      congrArg (fun z => [z]) erased⟩
  | @cons c x xs trailingComma ts us element hc elements ih =>
    obtain ⟨fit₁, takes, fits, fit₂⟩ := fitting_append.1 fit
    obtain ⟨loner, clear, text⟩ := comma hc fits
    obtain ⟨clean₁, again₁⟩ := element_rewrites hin element fit₁
    rw [clean₁] at takes fits fit₂
    rw [clear] at fit₂
    obtain ⟨clean₂, again₂⟩ := ih fit₂
    have canonical : Element.canonicalRow trailingComma (x :: xs) =
        x.canonical ++ (c.text ++ ' ' :: Element.canonicalRow trailingComma xs) := by
      rw [Element.canonicalRow_cons trailingComma x elements.elements_ne_nil, text]
      rfl
    refine ⟨by rw [ScanMode.afterAll_append, clean₁, ScanMode.afterAll_cons, clear, clean₂],
      fun p v hv => ?_⟩
    obtain ⟨vs, y, written₁, hy, erased₁⟩ := again₁ p
      (c.text ++ ' ' :: Element.canonicalRow trailingComma xs ++ v) (by
        rw [text]
        exact separates_cons (by decide) _)
    have written₂ := Writes.token (p := p.after x.canonical) takes fits
      (TokenKind.stopsAt_of_loner loner (' ' :: Element.canonicalRow trailingComma xs ++ v))
    obtain ⟨ws, ys, written₃, hys, erased₂⟩ :=
      again₂ (((p.after x.canonical).after c.text).next ' ') v hv
    have tail := written₂.append (by
      rw [ScanMode.afterAll_cons, clear]
      exact written₃.blank) elements.ne_nil
    have whole := written₁.append (by rw [clean₁]; exact tail) (by simp)
    rw [canonical]
    refine ⟨_, y :: ys, whole, .cons hy hc hys, ?_⟩
    rw [List.map_cons, List.map_cons, erased₁, erased₂]

theorem blockBody_rewrites (hin : RewritesBraced braced) {x : BlockBody} {ts : List Token}
    (h : x.SpelledWith braced d ts) (fit : Fitting {} ts) :
    Rewrites (BlockBody.SpelledWith braced d) (BlockBody.mapOrigins .bare ()) Separates x
      x.canonical ts := by
  cases h with
  | @intro x xs trailingComma ts elements =>
    obtain ⟨clean, again⟩ := elements_rewrite hin elements fit
    refine ⟨clean, ?_⟩
    intro p v hv
    obtain ⟨us, zs, written, hzs, erased⟩ := again p v hv
    obtain ⟨y, ys, rfl⟩ : ∃ y ys, zs = y :: ys := by
      cases zs with
      | nil => cases erased
      | cons y ys => exact ⟨y, ys, rfl⟩
    have canonical : BlockBody.canonical ⟨originOver ts, x, xs, trailingComma⟩ =
        Element.canonicalRow trailingComma (x :: xs) := by
      rw [BlockBody.canonical, Element.canonicalRow]
    rw [canonical]
    refine ⟨us, _, written, .intro hzs, ?_⟩
    obtain ⟨hfirst, hrest⟩ := List.cons.inj erased
    rw [BlockBody.mapOrigins, BlockBody.mapOrigins, Element.mapListOrigins_each,
      Element.mapListOrigins_each]
    exact congrArg₂ (fun a b => BlockBody.mk default a b trailingComma) hfirst hrest

theorem braces_rewrite (hin : RewritesBraced braced) :
    RewritesBraced (RightSide.BracesSpelledWith braced d) := by
  rintro x _ ⟨us, b, c, rfl, opener, content, closer⟩ fit
  have clear : ({} : ScanMode).after b.kind = {} := by rw [opener]; rfl
  have clear' : ({} : ScanMode).after c.kind = {} := by rw [closer]; rfl
  have hb : b.text = ['{'] := text_of_fits opener fit.2.1 fun _ h => h.1
  have fit' : Fitting {} (b :: us ++ [c]) := fit
  have hc : c.text = ['}'] := text_of_fits closer (fitting_append.1 fit').2.2.1 fun _ h => h.1
  obtain ⟨takes, fits, -⟩ := fit
  have opens (p : Position) (v : Text) := Writes.token (p := p) takes fits
    (TokenKind.stopsAt_of_loner (show b.kind ∈ TokenKind.loners by rw [opener]; decide) v)
  have closes {m : ScanMode} (hm : m = {}) (p : Position) (v : Text) :
      Writes m p c.text v [c] [c.placedAt p] := by
    subst hm
    have fits' : c.kind.Fits .token c.text := by
      rw [closer, hc]
      exact ⟨rfl, fun h => absurd rfl h⟩
    exact .token (by rw [closer]; rfl) fits'
      (TokenKind.stopsAt_of_loner (by rw [closer]; decide) v)
  cases content with
  | empty =>
    refine ⟨afterAll_enclosed clear rfl clear', ?_⟩
    intro p v _
    have whole := (opens p (c.text ++ v)).append (closes clear (p.after b.text) v) (by simp)
    have canonical : RightSide.canonical .emptyBlock = b.text ++ c.text := by
      rw [RightSide.canonical, hb, hc]
      rfl
    rw [canonical]
    exact ⟨_, .emptyBlock, whole, ⟨[], _, _, rfl, opener, .empty, closer⟩, rfl⟩
  | @body x us spelled =>
    obtain ⟨clean, again⟩ := blockBody_rewrites hin spelled (fitting_enclosed fit' clear)
    refine ⟨afterAll_enclosed clear clean clear', ?_⟩
    intro p v _
    have hus : us ≠ [] := by
      cases spelled with
      | intro elements => exact elements.ne_nil
    obtain ⟨vs, y, written, hy, erased⟩ := again ((p.after b.text).next ' ')
      (' ' :: c.text ++ v) (separates_cons (by decide) _)
    have tail := written.append (closes clean _ v).blank (List.cons_ne_nil c [])
    have whole := (opens p _).append (by
      rw [ScanMode.afterAll_cons, clear]
      exact tail.blank) (by simp)
    have canonical : RightSide.canonical (.block x) =
        b.text ++ (' ' :: (x.canonical ++ ' ' :: c.text)) := by
      rw [RightSide.canonical, hb, hc]
      simp
    rw [canonical]
    refine ⟨_, .block y, whole, ⟨vs, _, _, rfl, opener, .body hy, closer⟩, ?_⟩
    rw [RightSide.mapOrigins, RightSide.mapOrigins, erased]

end

/-- Right sides are written again, whatever their depth. -/
theorem rightSide_rewrites (d : Nat) : RewritesBraced (RightSide.SpelledIn d) := by
  induction d with
  | zero =>
    rintro x ts ⟨us, b, c, -, -, h, -⟩
    exact h.elim
  | succ d ih => exact braces_rewrite ih

/-! ### Statements -/

theorem functionBlock_rewrites {d : Nat} {x : FunctionBlock} {ts : List Token}
    (h : x.SpelledBy d ts) (fit : Fitting {} ts) :
    Rewrites (FunctionBlock.SpelledBy d) (FunctionBlock.mapOrigins .bare ()) Separates x
      x.canonical ts := by
  cases h with
  | inclusion spelled =>
    exact (include_rewrites spelled fit).map FunctionBlock.inclusion .inclusion (fun _ => rfl)
      fun _ _ => trivial
  | relation spelled =>
    exact (relation_rewrites (rightSide_rewrites d) spelled fit).map FunctionBlock.relation .relation
      (fun _ => rfl) fun _ => id

/-- The canonical text of a statement, at the end of a line, is scanned as tokens that spell the
statement again. -/
theorem statement_rewrites {d : Nat} {x : Statement} {ts : List Token} (h : x.SpelledBy d ts)
    (fit : Fitting {} ts) :
    Rewrites (Statement.SpelledBy d) (Statement.mapOrigins .bare ()) Breaks x x.canonical ts := by
  cases h with
  | @empty t kind =>
    obtain ⟨takes, fits, -⟩ := fit
    have text : t.text = [';'] := text_of_fits kind fits fun _ h => h.1
    refine ⟨by rw [ScanMode.afterAll_cons, kind]; rfl, ?_⟩
    intro p v _
    have written := Writes.token (p := p) takes fits
      (TokenKind.stopsAt_of_loner (by rw [kind]; decide) v)
    have canonical : Statement.canonical (.empty ⟨t.origin⟩) = t.text := text.symm
    rw [canonical]
    exact ⟨_, _, written, .empty kind, rfl⟩
  | @dashComment t kind =>
    obtain ⟨takes, fits, -⟩ := fit
    refine ⟨by rw [ScanMode.afterAll_cons, kind]; rfl, ?_⟩
    intro p v hv
    have stops : t.kind.StopsAt v := by
      rw [kind]
      exact fun d hd he => absurd ((hv d hd).symm.trans he) (by decide)
    exact ⟨_, _, .token takes fits stops, .dashComment (t := t.placedAt p) kind, rfl⟩
  | @block s x ts spelled semicolon =>
    obtain ⟨fit₁, takes, fits, -⟩ := fitting_append.1 fit
    obtain ⟨clean, again⟩ := functionBlock_rewrites spelled fit₁
    rw [clean] at takes fits
    have text : s.text = [';'] := text_of_fits semicolon fits fun _ h => h.1
    refine ⟨by rw [ScanMode.afterAll_append, clean, ScanMode.afterAll_cons, semicolon]; rfl,
      fun p v _ => ?_⟩
    obtain ⟨us, y, written₁, hy, erased⟩ := again p (s.text ++ v) (by
      rw [text]
      exact separates_cons (by decide) v)
    have written₂ := Writes.token (p := p.after x.canonical) takes fits
      (TokenKind.stopsAt_of_loner (by rw [semicolon]; decide) v)
    rw [← clean] at written₂
    have canonical : Statement.canonical (.block ⟨originOver (ts ++ [s]), x⟩) =
        x.canonical ++ s.text := by
      rw [text]
      rfl
    rw [canonical]
    exact ⟨_, _, written₁.append written₂ (List.cons_ne_nil s []), .block hy semicolon,
      congrArg (fun z => Statement.block ⟨default, z⟩) erased⟩

end RelationNotation
