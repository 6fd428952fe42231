import RelationNotation.Proofs.Canonical.Leaf

/-!
Gac strings written again. A space stands between any two stems, so no stem's last token touches the
first of the next, and each is read for itself.
-/

namespace RelationNotation

open Token

/-- Whether the last of some tokens leaves the token behind it to itself. -/
def Loose (ts : List Token) (next : Token) : Prop :=
  ¬ (ts.getLastD default).MarksFront next ∧ ¬ (ts.getLastD default).NamesEnding next

theorem loose_of_not_touches {ts : List Token} {next : Token}
    (h : ¬ (ts.getLastD default).touches next) : Loose ts next :=
  ⟨fun hm => h hm.2, fun hn => h hn.2⟩

theorem loose_of_closer (ts : List Token) {next : Token} (h : next.kind = .rightBracket) :
    Loose ts next := by
  refine ⟨fun hm => ?_, fun hn => ?_⟩
  · rw [MarksFront, h] at hm
    exact absurd hm.1 (by decide)
  · rw [NamesEnding, h] at hn
    exact absurd hn.1 (by decide)

theorem touches_placed (t u : Token) (p : Position) :
    (t.placedAt p).touches (u.placedAt (p.after t.text)) := by
  simp [touches, placedAt]

/-- Two tokens set side by side. -/
theorem writes_pair {t u : Token} {v : Text} (p : Position) (fit : Fitting {} [t, u])
    (clear : ({} : ScanMode).after t.kind = {}) (stops : t.kind.StopsAt (u.text ++ v))
    (hv : Separates v) :
    Writes {} p (t.text ++ u.text) v [t, u] [t.placedAt p, u.placedAt (p.after t.text)] := by
  obtain ⟨ht, ft, hu, fu, -⟩ := fit
  rw [clear] at hu fu
  have w := Writes.token (p := p.after t.text) hu fu (TokenKind.stopsAt_of_separates hv)
  rw [← clear] at w
  exact (Writes.token ht ft stops).append w (by simp)

section
variable {bracketed : GacString → List Token → Token → Prop}

/-- What stands between brackets is written again. -/
def RewritesBracketed (bracketed : GacString → List Token → Token → Prop) : Prop :=
  ∀ ⦃x ts c⦄, bracketed x ts c → Fitting {} ts →
    Rewrites (fun y us => ∀ next, next.kind = .rightBracket → bracketed y us next)
      (GacString.mapOrigins .bare ()) (fun v => ∃ w, v = ']' :: w) x x.canonical ts

theorem minus_stopsAt {v : Text} (h : ∀ d ∈ v.head?, isWordStart d) :
    TokenKind.minus.StopsAt v := by
  intro c hc d hd
  obtain rfl : '-' = c := (List.cons.inj hc).1
  have hstart := h d hd
  have hgt : d ≠ '>' := by rintro rfl; exact absurd hstart (by decide)
  have hdash : d ≠ '-' := by rintro rfl; exact absurd hstart (by decide)
  simp only [joins, Bool.or_eq_false_iff]
  refine ⟨⟨?_, rfl⟩, by simpa using hdash⟩
  unfold Lexeme.twoChars
  split <;> simp_all

theorem marker_stopsAt {k : TokenKind} {m : SuffixMarker} {v : Text}
    (mark : SuffixMarker.ofKind? k = some m) (h : ∀ d ∈ v.head?, isWordStart d) :
    k.StopsAt v := by
  cases k <;> cases mark
  · exact TokenKind.stopsAt_of_loner (by decide) v
  · exact minus_stopsAt h

theorem head_of_isWord {t v : Text} (h : isWord t) : ∀ d ∈ (t ++ v).head?, isWordStart d := by
  cases t with
  | nil => cases h
  | cons c cs =>
    intro d hd
    cases hd
    simp only [isWord, Bool.and_eq_true] at h
    exact h.1

theorem identifier_stopsAt {v : Text} {c : Char} (h : ¬ isStringChar c) :
    TokenKind.identifier.StopsAt (c :: v) := by
  intro d hd
  cases hd
  exact h

theorem stem_rewrites (hin : RewritesBracketed bracketed) {x : GacStem} {ts : List Token}
    {next : Token} (h : x.SpelledWith bracketed next ts) (fit : Fitting {} ts) :
    Rewrites (fun y us => ∀ next, Loose us next → GacStem.SpelledWith bracketed next y us)
      (GacStem.mapOrigins .bare ()) Separates x x.canonical ts := by
  -- Two tokens that make one stem must touch again, and a lone name or sign must stay loose.
  cases h with
  | fycoide spelled =>
    exact (fycoide_rewrites spelled fit).map GacStem.fycoide (fun hy _ _ => .fycoide hy)
      (fun _ => rfl) fun _ _ => trivial
  | pointerRef spelled =>
    exact (pointerRef_rewrites spelled fit).map GacStem.pointerRef (fun hy _ _ => .pointerRef hy)
      (fun _ => rfl) fun _ => id
  | @identifier t kind longest =>
    obtain ⟨ht, ft, -⟩ := fit
    refine ⟨after_clean (by rw [kind]; decide), ?_⟩
    intro p v hv
    exact ⟨_, _, .token ht ft (TokenKind.stopsAt_of_separates hv),
      fun next h => .identifier (t := t.placedAt p) kind h.1, rfl⟩
  | @front t m marker kind mark touches =>
    have clear : ({} : ScanMode).after t.kind = {} := by rw [kind]; rfl
    have clear' : ({} : ScanMode).after m.kind = {} := by
      generalize m.kind = k at mark
      cases k <;> cases mark <;> rfl
    have text : m.text = marker.text.toList ∧ ∃ c cs, m.text = c :: cs ∧ ¬ isStringChar c := by
      have fm := fit.2.2.2.1
      generalize m.kind = k at mark fm
      cases k <;> cases mark
      · exact ⟨fm.1, '<', ['|'], fm.1, by decide⟩
      · exact ⟨fm.1, '=', [], fm.1, by decide⟩
    obtain ⟨htext, c, cs, hm, hc⟩ := text
    refine ⟨?_, fun p v hv => ?_⟩
    · simp only [ScanMode.afterAll_cons, ScanMode.afterAll_nil, clear, clear']
    · have stops : t.kind.StopsAt (m.text ++ v) := by
        rw [kind, hm]
        exact identifier_stopsAt hc
      have written := writes_pair p fit clear stops hv
      have canonical : GacStem.canonical (.front ⟨originOver [t, m], t.toIdentifier, marker⟩) =
          t.text ++ m.text := by rw [htext]; rfl
      rw [canonical]
      exact ⟨_, _, written, fun next _ => .front (t := t.placedAt p) kind mark (touches_placed t m p),
        rfl⟩
  | @ending m t marker mark kind touches =>
    have clear : ({} : ScanMode).after m.kind = {} := by
      generalize m.kind = k at mark
      cases k <;> cases mark <;> rfl
    have htext : m.text = marker.text.toList := by
      have fm := fit.2.1
      generalize m.kind = k at mark fm
      cases k <;> cases mark <;> exact fm.1
    refine ⟨?_, fun p v hv => ?_⟩
    · simp only [ScanMode.afterAll_cons, ScanMode.afterAll_nil, clear, kind]
      rfl
    · have ft := fit.2.2.2.1
      rw [kind] at ft
      have written := writes_pair p fit clear (marker_stopsAt mark (head_of_isWord ft.1)) hv
      have canonical : GacStem.canonical (.ending ⟨originOver [m, t], marker, t.toIdentifier⟩) =
          m.text ++ t.text := by rw [htext]; rfl
      rw [canonical]
      exact ⟨_, _, written, fun next _ => .ending (m := m.placedAt p) mark kind
        (touches_placed m t p), rfl⟩
  | @sign t mark longest =>
    obtain ⟨ht, ft, -⟩ := fit
    have clear : ({} : ScanMode).after t.kind = {} := by
      obtain ⟨marker, mark⟩ := Option.isSome_iff_exists.1 mark
      generalize t.kind = k at mark
      cases k <;> cases mark <;> rfl
    refine ⟨clear, ?_⟩
    intro p v hv
    exact ⟨_, _, .token ht ft (TokenKind.stopsAt_of_separates hv),
      fun next h => .sign (t := t.placedAt p) mark h.2, rfl⟩
  | @synonym s t mark kind =>
    have clear : ({} : ScanMode).after s.kind = {} := by rw [mark]; rfl
    have hs : s.text = ['|', '>'] := text_of_fits mark fit.2.1 fun _ h => h.1
    refine ⟨?_, fun p v hv => ?_⟩
    · simp only [ScanMode.afterAll_cons, ScanMode.afterAll_nil, clear, kind]
      rfl
    · have written := writes_pair p fit clear
        (TokenKind.stopsAt_of_loner (by rw [mark]; decide) _) hv
      have canonical : GacStem.canonical (.synonym ⟨originOver [s, t], t.toIdentifier⟩) =
          s.text ++ t.text := by rw [hs]; rfl
      rw [canonical]
      exact ⟨_, _, written, fun next _ => .synonym (s := s.placedAt p) (t := t.placedAt _) mark kind,
        rfl⟩
  | @nested o c x ts opener content closer =>
    have clear : ({} : ScanMode).after o.kind = {} := by rw [opener]; rfl
    have ho : o.text = ['['] := text_of_fits opener fit.2.1 fun _ h => h.1
    have hc : c.text = [']'] := text_of_fits closer (fitting_append.1 fit).2.2.1 fun _ h => h.1
    obtain ⟨clean, again⟩ := hin content (fitting_enclosed fit clear)
    refine ⟨afterAll_enclosed clear clean (by rw [closer]; rfl), ?_⟩
    intro p v hv
    obtain ⟨us, y, written, hy, erased⟩ := again (p.after o.text) (c.text ++ v) ⟨v, by rw [hc]; rfl⟩
    have enclosed := written.enclosed fit (by rw [opener]; decide) clear clean
      (by rw [closer]; decide)
    have canonical : GacStem.canonical (.nested ⟨originOver (o :: ts ++ [c]), x⟩) =
        o.text ++ (x.canonical ++ c.text) := by
      rw [ho, hc]
      rfl
    rw [canonical]
    refine ⟨_, _, enclosed, fun next _ => .nested (o := o.placedAt p) opener (hy _ closer) closer, ?_⟩
    exact congrArg (fun z => GacStem.nested ⟨default, z⟩) erased
  | @operator t kind =>
    obtain ⟨ht, ft, -⟩ := fit
    have clear : ({} : ScanMode).after t.kind = {} :=
      after_pointerTerm (List.mem_append_left _ (List.mem_append_right _ kind))
    refine ⟨clear, ?_⟩
    intro p v hv
    exact ⟨_, _, .token ht ft (TokenKind.stopsAt_of_separates hv),
      fun next _ => .operator (t := t.placedAt p) kind, rfl⟩

/-- Stems with a space between any two. -/
def GacStem.canonicalRow : List GacStem → Text
  | [] => []
  | x :: xs => x.canonical ++ GacStem.canonicalRest xs

theorem GacStem.canonicalRow_cons (x : GacStem) {xs : List GacStem} (h : xs ≠ []) :
    GacStem.canonicalRow (x :: xs) = x.canonical ++ ' ' :: GacStem.canonicalRow xs := by
  obtain ⟨y, ys, rfl⟩ := List.exists_cons_of_ne_nil h
  rw [GacStem.canonicalRow, GacStem.canonicalRest]
  rfl

theorem GacStem.RowSpelledWith.stems_ne_nil {next : Token} {xs : List GacStem} {ts : List Token}
    (h : GacStem.RowSpelledWith bracketed next xs ts) : xs ≠ [] := by
  cases h <;> simp

theorem Loose.of_append {ts us : List Token} {next : Token} (h : Loose (ts ++ us) next)
    (hus : us ≠ []) : Loose us next := by
  obtain ⟨vs, u, rfl⟩ := us.eq_nil_or_concat.resolve_left hus
  simpa [Loose, List.concat_eq_append, ← List.append_assoc] using h

/-- A token that stands behind a space touches nothing before the space. -/
theorem Writes.not_touches {m m' : ScanMode} {p : Position} {s text v w : Text}
    {ts us ts' us' : List Token} {u : Token} (h₁ : Writes m p s w ts us)
    (h₂ : Writes m' ((p.after s).next ' ') text v ts' (u :: us')) :
    ¬ (us.getLastD default).touches u := by
  have hwithin := (significantFrom_within _ _ _ u (by rw [h₂.scan]; exact List.mem_cons_self)).1
  rw [Position.offset_next] at hwithin
  simp only [touches, h₁.stop, beq_iff_eq]
  omega

theorem stems_rewrite (hin : RewritesBracketed bracketed) {xs : List GacStem} {ts : List Token}
    {next : Token} (h : GacStem.RowSpelledWith bracketed next xs ts) (fit : Fitting {} ts) :
    Rewrites (fun ys us => ∀ next, Loose us next → GacStem.RowSpelledWith bracketed next ys us)
      (List.map (GacStem.mapOrigins .bare ())) Separates xs (GacStem.canonicalRow xs) ts := by
  induction h with
  | @last x ts stem =>
    obtain ⟨clean, again⟩ := stem_rewrites hin stem fit
    have canonical : GacStem.canonicalRow [x] = x.canonical := by
      simp [GacStem.canonicalRow, GacStem.canonicalRest]
    refine ⟨clean, ?_⟩
    intro p v hv
    obtain ⟨us, y, written, hy, erased⟩ := again p v hv
    rw [canonical]
    exact ⟨us, [y], written, fun next h => .last (hy next h), by simpa using erased⟩
  | @cons x xs t ts us stem stems ih =>
    obtain ⟨fit₁, fit₂⟩ := fitting_append.1 fit
    obtain ⟨clean₁, again₁⟩ := stem_rewrites hin stem fit₁
    rw [clean₁] at fit₂
    obtain ⟨clean₂, again₂⟩ := ih fit₂
    rw [GacStem.canonicalRow_cons x stems.stems_ne_nil]
    refine ⟨by rw [ScanMode.afterAll_append, clean₁, clean₂], ?_⟩
    intro p v hv
    have hsep : Separates (' ' :: GacStem.canonicalRow xs ++ v) := separates_cons (by decide) _
    obtain ⟨vs, y, written₁, hy, erased₁⟩ := again₁ p _ hsep
    obtain ⟨ws, ys, written₂, hys, erased₂⟩ := again₂ ((p.after x.canonical).next ' ') v hv
    have hws := written₂.ne_nil (List.cons_ne_nil t us)
    obtain ⟨w, ws, rfl⟩ := List.exists_cons_of_ne_nil hws
    have loose := loose_of_not_touches (written₁.not_touches written₂)
    have whole := written₁.append (by rw [clean₁]; exact written₂.blank) (List.cons_ne_nil t us)
    refine ⟨_, y :: ys, whole, fun next h => ?_, ?_⟩
    · exact .cons (hy w loose) (hys next (h.of_append hws))
    · rw [List.map_cons, List.map_cons, erased₁, erased₂]

theorem gacString_rewrites_with (hin : RewritesBracketed bracketed) {x : GacString}
    {ts : List Token} {next : Token} (h : x.SpelledWith bracketed ts next) (fit : Fitting {} ts) :
    Rewrites (fun y us => ∀ next, next.kind = .rightBracket → y.SpelledWith bracketed us next)
      (GacString.mapOrigins .bare ()) (fun v => ∃ w, v = ']' :: w) x x.canonical ts := by
  cases h with
  | @intro x xs ts next stems =>
    obtain ⟨clean, again⟩ := stems_rewrite hin stems fit
    refine ⟨clean, ?_⟩
    intro p v hv
    obtain ⟨w, rfl⟩ := hv
    obtain ⟨us, zs, written, hzs, erased⟩ := again p (']' :: w) (separates_cons (by decide) w)
    obtain ⟨y, ys, rfl⟩ : ∃ y ys, zs = y :: ys := by
      cases zs with
      | nil => cases erased
      | cons y ys => exact ⟨y, ys, rfl⟩
    have canonical : GacString.canonical ⟨originOver ts, x, xs⟩ = GacStem.canonicalRow (x :: xs) := by
      rw [GacString.canonical, GacStem.canonicalRow]
    rw [canonical]
    refine ⟨us, ⟨originOver us, y, ys⟩, written,
      fun next hn => .intro (hzs next (loose_of_closer us hn)), ?_⟩
    obtain ⟨hfirst, hrest⟩ := List.cons.inj erased
    rw [GacString.mapOrigins, GacString.mapOrigins, GacStem.mapListOrigins_each,
      GacStem.mapListOrigins_each]
    exact congrArg₂ (GacString.mk default) hfirst hrest

end

/-- Gac strings are written again, whatever their depth. -/
theorem gacString_rewrites (d : Nat) : RewritesBracketed (fun x => x.SpelledIn d) := by
  induction d with
  | zero => exact fun x ts c h => h.elim
  | succ d ih => exact fun x ts c h fit => gacString_rewrites_with ih h fit

end RelationNotation
