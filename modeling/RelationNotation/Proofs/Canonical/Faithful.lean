import RelationNotation.Proofs.Canonical.LeafClass
import RelationNotation.Proofs.Token.Tiling
import RelationNotation.Proofs.Tree.Faithful
import RelationNotation.Proofs.Tree.Spans

/-!
What is read is faithful to the text. The tokens of a statement are scanned in the modes in which
the grammar asks for them: behind an opening quote, `#(` or `#[` a string, elsewhere any token. So a
leaf lies in the class that its place asks for, through all mistakes before it, and is worded as the
text of its span: `faithful_parseDocument`.
-/

namespace RelationNotation

open Token Node

/-! ### Stretches side by side -/

theorem Text.slice_append_slice (t : Text) {i j k : Nat} (hij : i ≤ j) (hjk : j ≤ k) :
    t.slice i j ++ t.slice j k = t.slice i k := by
  simp only [slice, List.drop_take]
  have hdrop : t.drop j = (t.drop i).drop (j - i) := by
    rw [List.drop_drop, Nat.add_sub_cancel' hij]
  have hlength : k - i = (j - i) + (k - j) := by omega
  rw [hdrop, hlength, List.take_add]

section
variable {source : Text} {t m : Token}

theorem slice_originOver_pair (ht : t ∈ scan source) (hm : m ∈ scan source)
    (touches : t.touches m) : (originOver [t, m]).span.slice source = t.text ++ m.text := by
  have meet : t.span.stop.offset = m.span.start.offset := beq_iff_eq.1 touches
  have first : t.span.start.offset ≤ m.span.start.offset :=
    meet ▸ (scanFrom_within {} .start source t ht).2.1
  have second : m.span.start.offset ≤ m.span.stop.offset :=
    (scanFrom_within {} .start source m hm).2.1
  rw [← slice_of_mem_scan ht, ← slice_of_mem_scan hm, Span.slice, Span.slice, Span.slice, meet]
  exact (source.slice_append_slice (Int.toNat_le_toNat first) (Int.toNat_le_toNat second)).symm

/-- A leaf that is worded as a token is. -/
theorem Token.faithful_leaf {n : Node} (ht : t ∈ scan source) (childless : n.children = [])
    (span : n.span = t.span) (worded : n.wording? = some t.text) (classed : n.inClass) :
    n.AllFaithful source :=
  allFaithful_of_worded worded (by rw [span, slice_of_mem_scan ht]) classed
    (forall_mem_childless childless)

end

/-- Tokens in a row fit their kinds, each where something is awaited. -/
theorem Token.Fitting.exists_fits {m : ScanMode} {ts : List Token} (h : Fitting m ts) :
    ∀ t ∈ ts, ∃ awaited, t.kind.Fits awaited t.text := by
  induction ts generalizing m with
  | nil => exact fun t ht => absurd ht List.not_mem_nil
  | cons t ts ih => exact List.forall_mem_cons.2 ⟨⟨m.awaited, h.2.1⟩, ih h.2.2⟩

section
variable {source : Text} {awaited : Awaited}

/-! ### Leaves -/

theorem Token.faithful_identifier {t : Token} (ht : t ∈ scan source) (kind : t.kind = .identifier)
    (fits : t.kind.Fits awaited t.text) : (Node.identifier t.toIdentifier).AllFaithful source := by
  rw [kind] at fits
  exact faithful_leaf ht rfl rfl rfl fits.1

/-- Where any token may stand, a lone underscore is no name. -/
theorem Token.not_isUnderscore {t : Token} (kind : t.kind = .identifier)
    (fits : t.kind.Fits .token t.text) : (Node.identifier t.toIdentifier).isUnderscore = false := by
  rw [kind] at fits
  exact beq_eq_false_iff_ne.2 (fits.2 rfl)

theorem Token.faithful_unicodeString {t : Token} (ht : t ∈ scan source)
    (kind : t.kind = .unicodeString) (fits : t.kind.Fits awaited t.text) :
    (Node.unicodeString ⟨t.origin, t.text⟩).AllFaithful source := by
  rw [kind] at fits
  exact faithful_leaf ht rfl rfl rfl (UnicodeString.isWellFormed_of_fits fits)

theorem Token.faithful_number {t : Token} (ht : t ∈ scan source)
    (kind : t.kind ∈ TokenKind.numbers) (fits : t.kind.Fits awaited t.text) :
    (Node.number t.toNumber).AllFaithful source :=
  faithful_leaf ht rfl rfl rfl (toNumber_isWellFormed kind fits)

theorem StringValue.SpelledBy.faithful {x : StringValue} {t : Token} (h : x.SpelledBy t)
    (ht : t ∈ scan source) (fits : t.kind.Fits awaited t.text) : x.toNode.AllFaithful source := by
  cases h with
  | identifier kind => exact faithful_identifier ht kind fits
  | unicodeString kind => exact faithful_unicodeString ht kind fits

theorem IncludeFile.SpelledBy.faithful {x : IncludeFile} {t : Token} (h : x.SpelledBy t)
    (ht : t ∈ scan source) (fits : t.kind.Fits awaited t.text) : x.toNode.AllFaithful source := by
  cases h with
  | identifier kind => exact faithful_identifier ht kind fits
  | unicodeString kind => exact faithful_unicodeString ht kind fits
  | quotedString kind =>
    rw [kind] at fits
    obtain ⟨body, htext, hrest⟩ := fits
    obtain ⟨content, rfl, quotable⟩ := isQuotable_of_stringRest hrest
    have middle : t.text.tail.dropLast = content := by simp [htext]
    refine faithful_leaf ht rfl rfl ?_ (middle ▸ quotable)
    change some ('"' :: t.text.tail.dropLast ++ ['"']) = some t.text
    rw [middle, htext]
    rfl

/-- What stands between an opener and a closer fits its kind. -/
theorem fits_between {m : ScanMode} {o s c : Token} (fit : Fitting m [o, s, c]) :
    s.kind.Fits (m.after o.kind).awaited s.text := fit.2.2.2.1

theorem TypeDesc.SpelledBy.faithful {x : TypeDesc} {ts : List Token} (h : x.SpelledBy ts)
    (fit : Fitting {} ts) (hts : ts ⊆ scan source) : (Node.typeDesc x).AllFaithful source := by
  cases h with
  | intro opener string closer =>
    have name := string.faithful (hts (by simp)) (fits_between fit)
    exact allFaithful_of_wordless rfl rfl (forall_mem_single rfl (name.inField (by decide)))

theorem Fycoide.SpelledBy.faithful {x : Fycoide} {ts : List Token} (h : x.SpelledBy ts)
    (fit : Fitting {} ts) (hts : ts ⊆ scan source) : (Node.fycoide x).AllFaithful source := by
  cases h with
  | intro opener string closer =>
    have name := string.faithful (hts (by simp)) (fits_between fit)
    exact allFaithful_of_wordless rfl rfl (forall_mem_single rfl (name.inField (by decide)))

theorem Include.SpelledBy.faithful {x : Include} {ts : List Token} (h : x.SpelledBy ts)
    (fit : Fitting {} ts) (hts : ts ⊆ scan source) : (Node.inclusion x).AllFaithful source := by
  cases h with
  | intro opener file closer =>
    have name := file.faithful (hts (by simp)) (fits_between fit)
    exact allFaithful_of_wordless rfl rfl (forall_mem_single rfl (name.inField (by decide)))

/-! ### Pointers -/

theorem Token.faithful_operator {t : Token} (ht : t ∈ scan source)
    (kind : t.kind ∈ TokenKind.bareOperators ++ [.minus, .plus])
    (fits : t.kind.Fits awaited t.text) : (Node.operator t.toOperator).AllFaithful source := by
  refine faithful_leaf ht rfl rfl rfl ?_
  change isOneOf gacSymbols t.text
  generalize t.kind = k at kind fits
  cases k <;> first | exact absurd kind (by decide) | (rw [fits.1]; decide)

theorem Token.faithful_pointerTerm {t : Token} (ht : t ∈ scan source)
    (kind : t.kind ∈ TokenKind.pointerTerms) (fits : t.kind.Fits awaited t.text) :
    t.toPointerTerm.toNode.AllFaithful source := by
  unfold toPointerTerm
  split
  next hnumber => exact faithful_number ht hnumber fits
  next hnumber =>
    split
    next hbare => exact faithful_operator ht (List.mem_append_left _ hbare) fits
    next hbare =>
      refine faithful_leaf ht rfl rfl rfl ?_
      change isOneOf arithmeticSymbols t.text
      generalize t.kind = k at kind fits hnumber hbare
      cases k <;> first | exact absurd kind (by decide) | exact absurd (by decide) hnumber |
        exact absurd (by decide) hbare | (rw [fits.1]; decide)

theorem PointerExpression.SpelledBy.faithful {x : PointerExpression} {ts : List Token}
    (h : x.SpelledBy ts) (fit : Fitting {} ts) (hts : ts ⊆ scan source) :
    (Node.pointerExpression x).AllFaithful source := by
  cases h with
  | @intro o t c ts opener terms closer =>
    refine allFaithful_of_wordless rfl rfl (List.forall_mem_map.2 fun y hy => ?_)
    obtain ⟨u, hu, rfl⟩ : ∃ u ∈ t :: ts, y = u.toPointerTerm := by
      rcases List.mem_cons.1 hy with rfl | hy
      · exact ⟨t, List.mem_cons_self, rfl⟩
      · obtain ⟨u, hu, rfl⟩ := List.mem_map.1 hy
        exact ⟨u, List.mem_cons_of_mem t hu, rfl⟩
    have here : u ∈ o :: t :: ts ++ [c] := List.mem_cons_of_mem o (List.mem_append_left [c] hu)
    obtain ⟨awaited, fits⟩ := fit.exists_fits u here
    refine (faithful_pointerTerm (hts here) (terms u hu) fits).under ?_ _
    cases u.toPointerTerm <;> rfl

theorem PointerId.isUnderscore_toNode (x : PointerId) : x.toNode.isUnderscore = false := by
  cases x <;> rfl

theorem PointerId.SpelledBy.faithful {x : PointerId} {ts : List Token} (h : x.SpelledBy ts)
    (fit : Fitting {} ts) (hts : ts ⊆ scan source) : x.toNode.AllFaithful source := by
  cases h with
  | number kind => exact faithful_number (hts List.mem_cons_self) kind fit.2.1
  | expression spelled => exact spelled.faithful fit hts

/-- What an at sign points to. -/
theorem faithful_target {a : Token} {x : PointerId} {ts : List Token} (sign : a.kind = .atSign)
    (id : x.SpelledBy ts) (fit : Fitting {} (a :: ts)) (hts : a :: ts ⊆ scan source) :
    FaithfulUnder source ("id", x.toNode) := by
  obtain ⟨-, -, fit⟩ := fit
  have clear : ({} : ScanMode).after a.kind = {} := by rw [sign]; rfl
  rw [clear] at fit
  exact (id.faithful fit (List.subset_of_cons_subset hts)).under x.isUnderscore_toNode _

theorem Pointer.SpelledBy.faithful {x : Pointer} {ts : List Token} (h : x.SpelledBy ts)
    (fit : Fitting {} ts) (hts : ts ⊆ scan source) : (Node.pointer x).AllFaithful source := by
  cases h with
  | intro sign id =>
    exact allFaithful_of_wordless rfl rfl (forall_mem_single rfl (faithful_target sign id fit hts))

theorem PointerRef.SpelledBy.faithful {x : PointerRef} {ts : List Token} (h : x.SpelledBy ts)
    (fit : Fitting {} ts) (hts : ts ⊆ scan source) : (Node.pointerRef x).AllFaithful source := by
  cases h with
  | intro sign id =>
    exact allFaithful_of_wordless rfl rfl (forall_mem_single rfl (faithful_target sign id fit hts))

theorem Pointer.OptionSpelledBy.faithful {x : Option Pointer} {ts : List Token}
    (h : Pointer.OptionSpelledBy x ts) (fit : Fitting {} ts) (hts : ts ⊆ scan source) :
    ∀ y ∈ x, (Node.pointer y).AllFaithful source := by
  cases h with
  | none => exact fun y hy => absurd hy (Option.not_mem_none y)
  | some spelled =>
    rintro y ⟨⟩
    exact spelled.faithful fit hts

end

/-! ### Gac strings -/

section
variable {source : Text} {bracketed : GacString → List Token → Token → Prop}
  (rewrites : RewritesBracketed bracketed)
  (inner : ∀ {x ts c}, bracketed x ts c → Fitting {} ts → ts ⊆ scan source →
    (Node.gacString x).AllFaithful source)

/-- A name in a stem, behind a sign or not. -/
theorem Token.faithful_name {t : Token} (ht : t ∈ scan source) (kind : t.kind = .identifier)
    (fits : t.kind.Fits .token t.text) (field : String) :
    FaithfulUnder source (field, .identifier t.toIdentifier) :=
  (faithful_identifier ht kind fits).under (not_isUnderscore kind fits) field

theorem PrefixMarker.text_of_fits {m : Token} {marker : PrefixMarker} {awaited : Awaited}
    (mark : PrefixMarker.ofKind? m.kind = some marker) (fits : m.kind.Fits awaited m.text) :
    m.text = marker.text.toList := by
  generalize m.kind = k at mark fits
  cases k <;> cases mark <;> exact fits.1

theorem SuffixMarker.text_of_fits {m : Token} {marker : SuffixMarker} {awaited : Awaited}
    (mark : SuffixMarker.ofKind? m.kind = some marker) (fits : m.kind.Fits awaited m.text) :
    m.text = marker.text.toList := by
  generalize m.kind = k at mark fits
  cases k <;> cases mark <;> exact fits.1

theorem SuffixMarker.after_clean {k : TokenKind} {marker : SuffixMarker}
    (mark : SuffixMarker.ofKind? k = some marker) : ({} : ScanMode).after k = {} := by
  cases k <;> cases mark <;> rfl

include inner

theorem GacStem.SpelledWith.faithful {next : Token} {x : GacStem} {ts : List Token}
    (h : x.SpelledWith bracketed next ts) (fit : Fitting {} ts) (hts : ts ⊆ scan source) :
    FaithfulUnder source ("stems", x.toNode) := by
  cases h with
  | fycoide spelled => exact (spelled.faithful fit hts).under rfl _
  | pointerRef spelled => exact (spelled.faithful fit hts).under rfl _
  | identifier kind longest => exact faithful_name (hts List.mem_cons_self) kind fit.2.1 _
  | @front t m marker kind mark touches =>
    have ht : t ∈ scan source := hts List.mem_cons_self
    have slice := slice_originOver_pair ht (hts (by simp)) touches
    rw [PrefixMarker.text_of_fits mark fit.2.2.2.1] at slice
    have name := faithful_name ht kind fit.2.1 "prefix"
    have tree : (Node.gacPrefix ⟨originOver [t, m], t.toIdentifier, marker⟩).AllFaithful source :=
      allFaithful_of_worded rfl slice rfl (forall_mem_single rfl name)
    exact tree.under rfl _
  | @ending m t marker mark kind touches =>
    have ht : t ∈ scan source := hts (by simp)
    have slice := slice_originOver_pair (hts List.mem_cons_self) ht touches
    rw [SuffixMarker.text_of_fits mark fit.2.1] at slice
    have fits := fit.2.2.2.1
    rw [SuffixMarker.after_clean mark] at fits
    have name := faithful_name ht kind fits "suffix"
    have tree : (Node.gacSuffix ⟨originOver [m, t], marker, t.toIdentifier⟩).AllFaithful source :=
      allFaithful_of_worded rfl slice rfl (forall_mem_single rfl name)
    exact tree.under rfl _
  | @sign t mark longest =>
    have kind : t.kind ∈ [TokenKind.minus, .plus] := by
      generalize t.kind = k at mark
      cases k <;> first | decide | cases mark
    have leaf := faithful_operator (hts List.mem_cons_self) (List.mem_append_right _ kind) fit.2.1
    exact leaf.under rfl _
  | @synonym s t mark kind =>
    have fits := fit.2.2.2.1
    rw [mark] at fits
    have name := faithful_name (hts (by simp)) kind fits "synonym"
    exact (allFaithful_of_wordless rfl rfl (forall_mem_single rfl name)).under rfl _
  | @nested o c x ts opener content closer =>
    have clear : ({} : ScanMode).after o.kind = {} := by rw [opener]; rfl
    have within : ts ⊆ scan source := fun t ht => hts (by simp [ht])
    have tree := inner content (fitting_enclosed fit clear) within
    exact (allFaithful_of_wordless rfl rfl (forall_mem_single rfl (tree.under rfl _))).under rfl _
  | @operator t kind =>
    have leaf := faithful_operator (hts List.mem_cons_self) (List.mem_append_left _ kind) fit.2.1
    exact leaf.under rfl _

include rewrites

theorem GacStem.RowSpelledWith.faithful {next : Token} {xs : List GacStem} {ts : List Token}
    (h : GacStem.RowSpelledWith bracketed next xs ts) (fit : Fitting {} ts)
    (hts : ts ⊆ scan source) : ∀ x ∈ xs, FaithfulUnder source ("stems", x.toNode) := by
  induction h with
  | last stem => exact List.forall_mem_singleton.2 (stem.faithful inner fit hts)
  | cons stem stems ih =>
    obtain ⟨fit₁, fit₂⟩ := fitting_append.1 fit
    obtain ⟨hts₁, hts₂⟩ := List.append_subset.1 hts
    rw [(stem_rewrites rewrites stem fit₁).clean] at fit₂
    exact List.forall_mem_cons.2 ⟨stem.faithful inner fit₁ hts₁, ih fit₂ hts₂⟩

theorem GacString.SpelledWith.faithful {x : GacString} {ts : List Token} {next : Token}
    (h : x.SpelledWith bracketed ts next) (fit : Fitting {} ts) (hts : ts ⊆ scan source) :
    (Node.gacString x).AllFaithful source := by
  cases h with
  | intro stems =>
    exact allFaithful_of_wordless rfl rfl
      (List.forall_mem_map.2 (stems.faithful rewrites inner fit hts))

end

section
variable {source : Text} {d : Nat}

theorem GacString.SpelledIn.faithful {x : GacString} {ts : List Token} {next : Token}
    (h : x.SpelledIn d ts next) (fit : Fitting {} ts) (hts : ts ⊆ scan source) :
    (Node.gacString x).AllFaithful source := by
  induction d generalizing x ts next with
  | zero => exact h.elim
  | succ d ih => exact GacString.SpelledWith.faithful (gacString_rewrites d) ih h fit hts

/-! ### Expressions -/

/-- The content of a gac word and the pointer behind it. -/
theorem faithful_gacWord {o c : Token} {x : GacString} {pointer : Option Pointer}
    {ts us : List Token} (clear : ({} : ScanMode).after o.kind = {}) (content : x.SpelledIn d ts c)
    (closer : c.kind = .rightBracket) (target : Pointer.OptionSpelledBy pointer us)
    (fit : Fitting {} (o :: ts ++ c :: us)) (hts : o :: ts ++ c :: us ⊆ scan source) :
    ∀ e ∈ ("content", Node.gacString x) :: pointer.toList.map fun y => ("pointer", Node.pointer y),
      FaithfulUnder source e := by
  rw [List.append_cons] at fit hts
  obtain ⟨fit₁, fit₂⟩ := fitting_append.1 fit
  obtain ⟨hts₁, hts₂⟩ := List.append_subset.1 hts
  have inside := fitting_enclosed fit₁ clear
  have clean := (gacString_rewrites d content inside).clean
  rw [afterAll_enclosed clear clean (by rw [closer]; rfl)] at fit₂
  have tree := content.faithful inside fun t ht => hts₁ (by simp [ht])
  refine List.forall_mem_cons.2 ⟨tree.under rfl _, List.forall_mem_map.2 fun y hy => ?_⟩
  exact (target.faithful fit₂ hts₂ y (Option.mem_toList.1 hy)).under rfl _

theorem Expression.isUnderscore_toNode (x : Expression) : x.toNode.isUnderscore = false := by
  cases x <;> rfl

theorem Expression.SpelledBy.faithful {x : Expression} {ts : List Token} (h : x.SpelledBy d ts)
    (fit : Fitting {} ts) (hts : ts ⊆ scan source) (field : String) :
    FaithfulUnder source (field, x.toNode) := by
  refine AllFaithful.under ?_ x.isUnderscore_toNode field
  cases h with
  | typeDesc spelled => exact spelled.faithful fit hts
  | protoGacWord opener content closer target =>
    exact allFaithful_of_wordless rfl rfl
      (faithful_gacWord (by rw [opener]; rfl) content closer target fit hts)
  | stdGacWord opener content closer target =>
    exact allFaithful_of_wordless rfl rfl
      (faithful_gacWord (by rw [opener]; rfl) content closer target fit hts)
  | fycoide spelled => exact spelled.faithful fit hts
  | pointerRef spelled => exact spelled.faithful fit hts

/-! ### Relations -/

theorem RelationKind.after_clean {k : TokenKind} {kind : RelationKind}
    (operator : RelationKind.ofToken? k = some kind) : ({} : ScanMode).after k = {} := by
  cases k <;> cases operator <;> rfl

end

section
variable {source : Text} {braced : RightSide → List Token → Prop} {d : Nat}
  (rewrites : RewritesBraced braced)
  (inner : ∀ {x ts}, braced x ts → Fitting {} ts → ts ⊆ scan source →
    ∀ c ∈ x.children, FaithfulUnder source c)
include inner

theorem Relation.SpelledWith.faithful {x : Relation} {ts : List Token}
    (h : x.SpelledWith braced d ts) (fit : Fitting {} ts) (hts : ts ⊆ scan source) :
    (Node.relation x).AllFaithful source := by
  cases h with
  | @pure o kind x y ts us left operator right =>
    obtain ⟨fit₁, -, -, fit₂⟩ := fitting_append.1 fit
    obtain ⟨hts₁, hts₂⟩ := List.append_subset.1 hts
    rw [(expression_rewrites left fit₁).clean, RelationKind.after_clean operator] at fit₂
    refine allFaithful_of_wordless rfl rfl (List.forall_mem_cons.2 ⟨left.faithful fit₁ hts₁ _, ?_⟩)
    exact List.forall_mem_singleton.2 (right.faithful fit₂ (List.subset_of_cons_subset hts₂) _)
  | @block o b c kind x y ts us left operator opener content closer =>
    obtain ⟨fit₁, -, -, fit₂⟩ := fitting_append.1 fit
    obtain ⟨hts₁, hts₂⟩ := List.append_subset.1 hts
    rw [(expression_rewrites left fit₁).clean, RelationKind.after_clean operator] at fit₂
    have clear : ({} : ScanMode).after b.kind = {} := by rw [opener]; rfl
    have inside : Fitting {} us := fitting_enclosed fit₂ clear
    refine allFaithful_of_wordless rfl rfl (List.forall_mem_cons.2 ⟨left.faithful fit₁ hts₁ _, ?_⟩)
    exact inner content inside fun t ht => hts₂ (by simp [ht])

theorem Element.SpelledWith.faithful {x : Element} {ts : List Token}
    (h : x.SpelledWith braced d ts) (fit : Fitting {} ts) (hts : ts ⊆ scan source) :
    FaithfulUnder source ("elements", x.toNode) := by
  cases h with
  | expression spelled => exact spelled.faithful fit hts _
  | inclusion spelled => exact (spelled.faithful fit hts).under rfl _
  | relation spelled => exact (spelled.faithful inner fit hts).under rfl _

include rewrites

theorem Element.RowSpelledWith.faithful {xs : List Element} {trailingComma : Bool}
    {ts : List Token} (h : Element.RowSpelledWith braced d xs trailingComma ts)
    (fit : Fitting {} ts) (hts : ts ⊆ scan source) :
    ∀ x ∈ xs, FaithfulUnder source ("elements", x.toNode) := by
  induction h with
  | last element => exact List.forall_mem_singleton.2 (element.faithful inner fit hts)
  | trailing element comma =>
    exact List.forall_mem_singleton.2
      (element.faithful inner (fitting_append.1 fit).1 (List.append_subset.1 hts).1)
  | cons element comma elements ih =>
    obtain ⟨fit₁, -, -, fit₂⟩ := fitting_append.1 fit
    obtain ⟨hts₁, hts₂⟩ := List.append_subset.1 hts
    rw [(element_rewrites rewrites element fit₁).clean, comma] at fit₂
    exact List.forall_mem_cons.2
      ⟨element.faithful inner fit₁ hts₁, ih fit₂ (List.subset_of_cons_subset hts₂)⟩

theorem BlockBody.SpelledWith.faithful {x : BlockBody} {ts : List Token}
    (h : x.SpelledWith braced d ts) (fit : Fitting {} ts) (hts : ts ⊆ scan source) :
    (Node.blockBody x).AllFaithful source := by
  cases h with
  | intro elements =>
    exact allFaithful_of_wordless rfl rfl
      (List.forall_mem_map.2 (elements.faithful rewrites inner fit hts))

theorem RightSide.BracesSpelledWith.faithful {x : RightSide} {ts : List Token}
    (h : x.BracesSpelledWith braced d ts) (fit : Fitting {} ts) (hts : ts ⊆ scan source) :
    ∀ c ∈ x.children, FaithfulUnder source c := by
  cases h with
  | empty => exact fun c hc => absurd hc List.not_mem_nil
  | body spelled =>
    exact List.forall_mem_singleton.2 ((spelled.faithful rewrites inner fit hts).under rfl _)

end

section
variable {source : Text} {d : Nat}

theorem RightSide.SpelledIn.faithful {x : RightSide} {ts : List Token} (h : x.SpelledIn d ts)
    (fit : Fitting {} ts) (hts : ts ⊆ scan source) : ∀ c ∈ x.children, FaithfulUnder source c := by
  induction d generalizing x ts with
  | zero => exact h.elim
  | succ d ih => exact RightSide.BracesSpelledWith.faithful (rightSide_rewrites d) ih h fit hts

/-! ### Statements -/

theorem FunctionBlock.SpelledBy.faithful {x : FunctionBlock} {ts : List Token}
    (h : x.SpelledBy d ts) (fit : Fitting {} ts) (hts : ts ⊆ scan source) :
    FaithfulUnder source ("block", x.toNode) := by
  cases h with
  | inclusion spelled => exact (spelled.faithful fit hts).under rfl _
  | relation spelled =>
    exact (spelled.faithful RightSide.SpelledIn.faithful fit hts).under rfl _

theorem Statement.SpelledBy.faithful {x : Statement} {ts : List Token} (h : x.SpelledBy d ts)
    (fit : Fitting {} ts) (hts : ts ⊆ scan source) :
    FaithfulUnder source ("statements", x.toNode) := by
  cases h with
  | empty kind =>
    exact (allFaithful_of_wordless rfl rfl (forall_mem_childless rfl)).under rfl _
  | @dashComment t kind =>
    have fits := fit.2.1
    rw [kind] at fits
    have leaf : (Node.dashComment ⟨t.origin, t.text⟩).AllFaithful source :=
      faithful_leaf (hts List.mem_cons_self) rfl rfl rfl (DashComment.isWellFormed_of_fits fits)
    exact leaf.under rfl _
  | block spelled semicolon =>
    have block := spelled.faithful (fitting_append.1 fit).1 (List.append_subset.1 hts).1
    exact (allFaithful_of_wordless rfl rfl (forall_mem_single rfl block)).under rfl _

end

/-! ### Documents -/

/-- Statements read where any token is awaited are faithful, and so is the text of mistakes. -/
theorem Session.faithful_statements {source : Text} {s : Session} (hc : s.cursor.EndsOnce)
    (hsource : s.source = source) (fit : Fitting {} s.cursor.ahead)
    (within : s.cursor.ahead ⊆ scan source) :
    ∀ x ∈ s.statements.1, FaithfulUnder source ("statements", x.toNode) := by
  revert hsource fit within
  refine steps_induction (fun s ha _ _ _ => ?_) (fun s hc ha ih hsource fit within => ?_) hc
  · rw [statements_of_nil ha]
    exact fun x hx => absurd hx List.not_mem_nil
  · rw [statements_of_ahead hc ha]
    cases hs : Parse.statement s.nesting s.cursor with
    | ok x d =>
      obtain ⟨ts, pass, spelled⟩ := Parse.statement_spelled s.nesting hc.ended hs
      rw [statement_of_ok hs] at ih ⊢
      rw [pass.ahead] at fit within
      obtain ⟨fit₁, fit₂⟩ := fitting_append.1 fit
      obtain ⟨within₁, within₂⟩ := List.append_subset.1 within
      rw [(statement_rewrites spelled fit₁).clean] at fit₂
      exact List.forall_mem_cons.2 ⟨spelled.faithful fit₁ within₁, ih hsource fit₂ within₂⟩
    | error fault d =>
      obtain ⟨ts, us, -, hus, hne, pass, step⟩ := statement_of_error ha hs
      rw [step] at ih ⊢
      rw [pass.ahead] at fit within
      have skipped : FaithfulUnder source
          ("statements", .errorStatement (s.mistake fault (ts ++ us))) :=
        (allFaithful_of_worded rfl (by rw [← hsource]; rfl) rfl (forall_mem_childless rfl)).under
          rfl _
      refine List.forall_mem_cons.2 ⟨skipped, ih hsource ?_ (List.append_subset.1 within).2⟩
      -- A mistake ends with a semicolon, behind which any token is awaited, or nothing is behind it.
      by_cases hstops : Cursor.SkipStops 0 d.ahead
      · obtain ⟨vs, z, hvs, hz⟩ := Cursor.skipped_of_stops hstops
        have clear : ScanMode.afterAll {} (ts ++ us) = {} := by
          rw [hus, hvs, ← List.append_assoc]
          exact ScanMode.afterAll_semicolon _ _ hz
        exact clear ▸ (fitting_append.1 fit).2
      · have hnone : (s.behindMistake fault d).cursor.ahead = [] := Cursor.skip_of_not_stops hstops
        rw [hnone]
        exact trivial

section
variable (source : Text) (options : ParserOptions)

theorem readDocument_faithful (limit : Int) :
    (Node.document (readDocument source limit)).AllFaithful source := by
  have reads := reads_startOf source limit
  have statements := Session.faithful_statements reads.endsOnce rfl (upcoming_split reads.upcoming).2
    (ahead_sublist_scan source limit).subset
  refine allFaithful_of_wordless rfl rfl ?_
  rw [readDocument_eq]
  exact List.forall_mem_map.2 statements

/-- Every node of the tree of a text is faithful to the text: a leaf is worded as the text of its
span and lies in its class, a name with its marker is worded as both with nothing in between, and
an underscore is a name only as a description, a name in parentheses or an included file. -/
theorem faithful_parseDocument :
    ∀ n ∈ (Node.document (parseDocument source options).document).walk, n.Faithful source := by
  have read := readDocument_faithful source options.maxDepth
  rw [parseDocument_document]
  split
  · rw [Document.attach_eq]
    exact read.mapOrigins (fun _ _ _ => rfl) _
  · exact read

end

/-- Between `#(` and `)` an underscore is a name. -/
theorem faithful_parseDocument_underscore :
    let text := "#(_)::[b];".toList
    ∃ n ∈ (Node.document (parseDocument text {}).document).walk,
      n.children.map (fun c => (c.1, c.2.wording?)) = [("name", some ['_'])] ∧ n.Faithful text := by
  intro text
  have named : ((Node.document (parseDocument text {}).document).at? [0, 0, 0]).map
      (fun n => n.children.map fun c => (c.1, c.2.wording?)) = some [("name", some ['_'])] := by
    decide +kernel
  obtain ⟨n, there, children⟩ := Option.map_eq_some_iff.1 named
  have walked := Node.mem_walk_iff.2 ⟨_, there⟩
  exact ⟨n, walked, children, faithful_parseDocument text {} n walked⟩

end RelationNotation
