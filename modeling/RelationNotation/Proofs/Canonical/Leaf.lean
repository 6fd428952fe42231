import RelationNotation.Proofs.Grammar.Production
import RelationNotation.Proofs.Token.Placing
import RelationNotation.Proofs.Tree.Pass

/-!
Names, markers, literals and operators written again. `Rewrites` says of a part of a tree that its
canonical text, wherever it stands, is scanned as tokens that spell the part, positions aside. A leaf
is written as the text of its own token, so it is enough that this text still fits the kind.
-/

namespace RelationNotation

open Token

/-! ### Texts scanned as given tokens -/

/-- A text at a place, before another text, is scanned as tokens of the same forms as given ones,
without errors. -/
structure Writes (m : ScanMode) (p : Position) (text v : Text) (ts us : List Token) : Prop where
  scan : significantFrom m p (text ++ v) = us ++ significantFrom (m.afterAll ts) (p.after text) v
  errors : errors (scanFrom m p (text ++ v)) = errors (scanFrom (m.afterAll ts) (p.after text) v)
  form : us.map form = ts.map form
  stop : (us.getLastD default).span.stop = p.after text

namespace Writes
variable {m : ScanMode} {p : Position} {s text v : Text} {ts us ts' us' : List Token}

theorem token {t : Token} (htakes : m.takes t.kind) (fits : t.kind.Fits m.awaited t.text)
    (stops : t.kind.StopsAt v) : Writes m p t.text v [t] [t.placedAt p] where
  scan := significantFrom_token p htakes fits stops
  errors := by
    rw [scanFrom_token p htakes fits stops]
    exact errors_cons (t := t.placedAt p) (ScanMode.ne_error_of_takes htakes) _
  form := rfl
  stop := rfl

theorem ne_nil (h : Writes m p text v ts us) (hts : ts ≠ []) : us ≠ [] := by
  rintro rfl
  exact hts (List.map_eq_nil_iff.1 h.form.symm)

theorem append (h₁ : Writes m p s (text ++ v) ts us)
    (h₂ : Writes (m.afterAll ts) (p.after s) text v ts' us') (hts' : ts' ≠ []) :
    Writes m p (s ++ text) v (ts ++ ts') (us ++ us') where
  scan := by
    rw [List.append_assoc, h₁.scan, h₂.scan, ScanMode.afterAll_append, Position.after_append,
      List.append_assoc]
  errors := by
    rw [List.append_assoc, h₁.errors, h₂.errors, ScanMode.afterAll_append, Position.after_append]
  form := by rw [List.map_append, List.map_append, h₁.form, h₂.form]
  stop := by
    rw [Position.after_append, ← h₂.stop]
    obtain ⟨vs, u, rfl⟩ := us'.eq_nil_or_concat.resolve_left (h₂.ne_nil hts')
    rw [List.concat_eq_append, ← List.append_assoc]
    simp

theorem blank (h : Writes m (p.next ' ') text v ts us) : Writes m p (' ' :: text) v ts us where
  scan := by
    rw [List.cons_append, significantFrom_blank _ p isBlank_space, h.scan]
    rfl
  errors := by
    rw [List.cons_append, errors_behind_blank _ p isBlank_space, h.errors]
    rfl
  form := h.form
  stop := h.stop

end Writes

theorem fitting_enclosed {o c : Token} {ts : List Token} (fit : Fitting {} (o :: ts ++ [c]))
    (clear : ({} : ScanMode).after o.kind = {}) : Fitting {} ts := by
  obtain ⟨⟨-, -, fit⟩, -⟩ := fitting_append.1 fit
  rwa [clear] at fit

theorem afterAll_enclosed {o c : Token} {ts : List Token}
    (clear : ({} : ScanMode).after o.kind = {}) (clean : ({} : ScanMode).afterAll ts = {})
    (clear' : ({} : ScanMode).after c.kind = {}) : ({} : ScanMode).afterAll (o :: ts ++ [c]) = {} := by
  simp only [ScanMode.afterAll_append, ScanMode.afterAll_cons, ScanMode.afterAll_nil, clear, clean,
    clear']

/-- A text between an opener and a closer. -/
theorem Writes.enclosed {p : Position} {o c : Token} {text v : Text} {ts us : List Token}
    (fit : Fitting {} (o :: ts ++ [c])) (opener : o.kind ∈ TokenKind.loners)
    (clear : ({} : ScanMode).after o.kind = {}) (clean : ({} : ScanMode).afterAll ts = {})
    (closer : c.kind ∈ TokenKind.loners)
    (h : Writes {} (p.after o.text) text (c.text ++ v) ts us) :
    Writes {} p (o.text ++ (text ++ c.text)) v (o :: ts ++ [c])
      (o.placedAt p :: us ++ [c.placedAt ((p.after o.text).after text)]) := by
  obtain ⟨⟨takes, fo, -⟩, tc, fc, -⟩ := fitting_append.1 fit
  rw [ScanMode.afterAll_cons, clear, clean] at tc fc
  have w₁ := Writes.token (p := p) takes fo (TokenKind.stopsAt_of_loner opener (text ++ c.text ++ v))
  have w₃ := Writes.token (p := (p.after o.text).after text) tc fc
    (TokenKind.stopsAt_of_loner closer v)
  rw [← clean] at w₃
  have w₂ := h.append w₃ (List.cons_ne_nil c [])
  rw [← clear] at w₂
  exact w₁.append w₂ (by simp)

/-! ### Parts of a tree spelled again -/

/-- A part of a tree is written in a text whose tokens spell that part again, positions and trivia
aside, wherever the text stands before one of a certain kind. -/
structure Rewrites {α β : Type} (spelled : α → List Token → Prop) (erase : α → β)
    (before : Text → Prop) (x : α) (text : Text) (ts : List Token) : Prop where
  clean : ({} : ScanMode).afterAll ts = {}
  again : ∀ p v, before v → ∃ us y, Writes {} p text v ts us ∧ spelled y us ∧ erase y = erase x

/-- A larger part that is nothing but a smaller one is written as the smaller one is. -/
theorem Rewrites.map {α β : Type} {spelled : α → List Token → Prop} {erase : α → α}
    {before before' : Text → Prop} {x : α} {text : Text} {ts : List Token}
    {spelled' : β → List Token → Prop} {erase' : β → β} (h : Rewrites spelled erase before x text ts)
    (f : α → β) (hspelled : ∀ {y us}, spelled y us → spelled' (f y) us)
    (herase : ∀ y, erase' (f y) = f (erase y)) (hbefore : ∀ v, before' v → before v) :
    Rewrites spelled' erase' before' (f x) text ts := by
  refine ⟨h.clean, ?_⟩
  intro p v hv
  obtain ⟨us, y, written, hy, erased⟩ := h.again p v (hbefore v hv)
  exact ⟨us, f y, written, hspelled hy, by rw [herase, herase, erased]⟩

theorem StringValue.SpelledBy.canonical {x : StringValue} {t : Token} (h : x.SpelledBy t) :
    x.canonical = t.text := by
  cases h <;> rfl

theorem StringValue.SpelledBy.placed {x : StringValue} {t : Token} (h : x.SpelledBy t)
    (p : Position) : ∃ y : StringValue, y.SpelledBy (t.placedAt p) ∧
      y.mapOrigins .bare () = x.mapOrigins .bare () := by
  cases h with
  | identifier kind => exact ⟨_, .identifier kind, rfl⟩
  | unicodeString kind => exact ⟨_, .unicodeString kind, rfl⟩

theorem StringValue.SpelledBy.after {x : StringValue} {t : Token} (h : x.SpelledBy t)
    (m : ScanMode) : m.after t.kind = { m with awaited := .token } := by
  cases h with
  | identifier kind => rw [kind]; rfl
  | unicodeString kind => rw [kind]; rfl

theorem separates_cons {d : Char} (h : d ∈ separators) (v : Text) : Separates (d :: v) := by
  intro e he
  cases he
  exact h

theorem text_of_fits {k : TokenKind} {awaited : Awaited} {t : Token} {s : Text} (hk : t.kind = k)
    (h : t.kind.Fits awaited t.text) (hs : ∀ u, k.Fits awaited u → u = s) : t.text = s :=
  hs _ (hk ▸ h)

/-- One token between an opener and a closer. -/
theorem writes_between {m : ScanMode} {o s c : Token} {v : Text} (p : Position)
    (fit : Fitting m [o, s, c]) (opener : o.kind ∈ TokenKind.loners)
    (closer : c.kind ∈ TokenKind.loners) (ends : ∀ d ∈ c.text.head?, d ∈ separators) :
    Writes m p (o.text ++ (s.text ++ c.text)) v [o, s, c]
      [o.placedAt p, s.placedAt (p.after o.text), c.placedAt ((p.after o.text).after s.text)] := by
  obtain ⟨takes, fo, ts, fs, tc, fc, -⟩ := fit
  have hstring : s.kind.StopsAt (c.text ++ v) := by
    refine TokenKind.stopsAt_of_separates fun d hd => ends d ?_
    cases htext : c.text with
    | nil => exact absurd htext (fc.ne_nil tc)
    | cons e es => rwa [htext] at hd
  have w₁ := Writes.token (p := p) takes fo (TokenKind.stopsAt_of_loner opener (s.text ++ c.text ++ v))
  have w₂ := Writes.token (p := p.after o.text) ts fs hstring
  have w₃ := Writes.token (p := (p.after o.text).after s.text) tc fc
    (TokenKind.stopsAt_of_loner closer v)
  exact w₁.append (w₂.append w₃ (by simp)) (by simp)

/-- A part spelled by one token between an opener and a closer. -/
theorem rewrites_between {α β : Type} {spelled : α → List Token → Prop} {erase : α → β} {x : α}
    {o s c : Token} {text : Text} (fit : Fitting {} [o, s, c]) (opener : o.kind ∈ TokenKind.loners)
    (closer : c.kind ∈ TokenKind.loners) (ends : ∀ d ∈ c.text.head?, d ∈ separators)
    (clean : ({} : ScanMode).afterAll [o, s, c] = {}) (written : text = o.text ++ (s.text ++ c.text))
    (again : ∀ p q r, ∃ y, spelled y [o.placedAt p, s.placedAt q, c.placedAt r] ∧
      erase y = erase x) :
    Rewrites spelled erase (fun _ => True) x text [o, s, c] := by
  refine ⟨clean, ?_⟩
  intro p v _
  obtain ⟨y, hy, erased⟩ := again p (p.after o.text) ((p.after o.text).after s.text)
  subst written
  exact ⟨_, y, writes_between p fit opener closer ends, hy, erased⟩

theorem typeDesc_rewrites {x : TypeDesc} {ts : List Token} (h : x.SpelledBy ts)
    (fit : Fitting {} ts) :
    Rewrites TypeDesc.SpelledBy (TypeDesc.mapOrigins .bare ()) (fun _ => True) x x.canonical ts := by
  cases h with
  | @intro o s c x opener string closer =>
    have ho : o.text = ['\x27'] := text_of_fits opener fit.2.1 fun _ h => h.1
    have hc : c.text = ['\x27'] := text_of_fits closer fit.2.2.2.2.2.1 fun _ h => h.1
    apply rewrites_between fit
    · rw [opener]; decide
    · rw [closer]; decide
    · rw [hc]; simp [separators]
    · simp only [ScanMode.afterAll_cons, ScanMode.afterAll_nil, string.after, opener, closer]
      rfl
    · rw [ho, hc, ← string.canonical]
      rfl
    · intro p q r
      obtain ⟨y, hy, erased⟩ := string.placed q
      exact ⟨_, .intro opener hy closer, congrArg (TypeDesc.mk default) erased⟩

theorem fycoide_rewrites {x : Fycoide} {ts : List Token} (h : x.SpelledBy ts)
    (fit : Fitting {} ts) :
    Rewrites Fycoide.SpelledBy (Fycoide.mapOrigins .bare ()) (fun _ => True) x x.canonical ts := by
  cases h with
  | @intro o s c x opener string closer =>
    have ho : o.text = ['#', '('] := text_of_fits opener fit.2.1 fun _ h => h.1
    have hc : c.text = [')'] := text_of_fits closer fit.2.2.2.2.2.1 fun _ h => h.1
    apply rewrites_between fit
    · rw [opener]; decide
    · rw [closer]; decide
    · rw [hc]; simp [separators]
    · simp only [ScanMode.afterAll_cons, ScanMode.afterAll_nil, string.after, opener, closer]
      rfl
    · rw [ho, hc, ← string.canonical]
      rfl
    · intro p q r
      obtain ⟨y, hy, erased⟩ := string.placed q
      exact ⟨_, .intro opener hy closer, congrArg (Fycoide.mk default) erased⟩

/-! ### Includes -/

theorem IncludeFile.SpelledBy.canonical {x : IncludeFile} {t : Token} (h : x.SpelledBy t)
    (fits : t.kind.Fits .file t.text) : x.canonical = t.text := by
  cases h with
  | identifier kind => rfl
  | unicodeString kind => rfl
  | quotedString kind =>
    rw [kind] at fits
    obtain ⟨body, hbody, hrest⟩ := fits
    obtain ⟨content, hcontent⟩ := Lexeme.stringRest_closed hrest
    rw [List.take_length] at hcontent
    simp [IncludeFile.canonical, QuotedString.canonical, hbody, hcontent]

theorem IncludeFile.SpelledBy.placed {x : IncludeFile} {t : Token} (h : x.SpelledBy t)
    (p : Position) : ∃ y : IncludeFile, y.SpelledBy (t.placedAt p) ∧
      y.mapOrigins .bare () = x.mapOrigins .bare () := by
  cases h with
  | identifier kind => exact ⟨_, .identifier kind, rfl⟩
  | unicodeString kind => exact ⟨_, .unicodeString kind, rfl⟩
  | quotedString kind => exact ⟨_, .quotedString kind, rfl⟩

theorem IncludeFile.SpelledBy.after {x : IncludeFile} {t : Token} (h : x.SpelledBy t)
    {m : ScanMode} (hm : m.awaited = .file) : m.after t.kind = { m with awaited := .token } := by
  cases h with
  | identifier kind => rw [kind]; rfl
  | unicodeString kind => rw [kind]; rfl
  | quotedString kind => rw [kind]; exact if_pos hm

theorem include_rewrites {x : Include} {ts : List Token} (h : x.SpelledBy ts)
    (fit : Fitting {} ts) :
    Rewrites Include.SpelledBy (Include.mapOrigins .bare ()) (fun _ => True) x x.canonical ts := by
  cases h with
  | @intro o f c x opener file closer =>
    have ho : o.text = ['#', '['] := text_of_fits opener fit.2.1 fun _ h => h.1
    have hc : c.text = [']'] := text_of_fits closer fit.2.2.2.2.2.1 fun _ h => h.1
    have hf : f.kind.Fits .file f.text := by
      have fits := fit.2.2.2.1
      rwa [opener] at fits
    apply rewrites_between fit
    · rw [opener]; decide
    · rw [closer]; decide
    · rw [hc]; simp [separators]
    · simp only [ScanMode.afterAll_cons, ScanMode.afterAll_nil, opener, closer]
      rw [file.after rfl]
      rfl
    · rw [ho, hc, ← file.canonical hf]
      rfl
    · intro p q r
      obtain ⟨y, hy, erased⟩ := file.placed q
      exact ⟨_, .intro opener hy closer, congrArg (Include.mk default) erased⟩

/-! ### Pointers -/

/-- Behind most tokens the scanner awaits any token. -/
theorem after_clean {k : TokenKind} (h : k ∉ [.quote, .includeOpen, .fycoideOpen]) :
    ({} : ScanMode).after k = {} := by
  cases k <;> first | rfl | exact absurd (by decide) h

theorem after_pointerTerm {k : TokenKind} (h : k ∈ TokenKind.pointerTerms) :
    ({} : ScanMode).after k = {} :=
  after_clean (by revert h; cases k <;> decide)

theorem toPointerTerm_canonical (t : Token) : t.toPointerTerm.canonical = t.text := by
  unfold toPointerTerm
  split
  · rfl
  · split <;> rfl

/-- What depends on the forms of tokens only is the same for tokens of the same forms. -/
theorem map_eq_of_form {α : Type} {g : Token → α} (h : ∀ t u, t.form = u.form → g t = g u)
    {ts us : List Token} (hform : us.map form = ts.map form) : us.map g = ts.map g := by
  induction us generalizing ts with
  | nil =>
    cases ts with
    | nil => rfl
    | cons t ts => cases hform
  | cons u us ih =>
    cases ts with
    | nil => cases hform
    | cons t ts =>
      obtain ⟨hhead, htail⟩ := List.cons.inj hform
      rw [List.map_cons, List.map_cons, h u t hhead, ih htail]

/-- Tokens with a space between any two. -/
theorem writes_terms {t : Token} {ts : List Token} {v : Text} (p : Position)
    (kinds : ∀ u ∈ t :: ts, u.kind ∈ TokenKind.pointerTerms) (fit : Fitting {} (t :: ts))
    (hv : Separates v) :
    (({} : ScanMode).afterAll (t :: ts) = {}) ∧
      ∃ us, Writes {} p (t.text ++ ts.flatMap fun u => ' ' :: u.text) v (t :: ts) us := by
  have clean : ({} : ScanMode).after t.kind = {} := after_pointerTerm (kinds t List.mem_cons_self)
  obtain ⟨htakes, hfits, fit⟩ := fit
  induction ts generalizing t p with
  | nil =>
    rw [List.flatMap_nil, List.append_nil]
    exact ⟨clean, _, .token htakes hfits (TokenKind.stopsAt_of_separates hv)⟩
  | cons u us ih =>
    rw [clean] at fit
    have kinds' := fun w hw => kinds w (List.mem_cons_of_mem t hw)
    obtain ⟨clean', vs, written⟩ := ih ((p.after t.text).next ' ') kinds'
      (after_pointerTerm (kinds' u List.mem_cons_self)) fit.1 fit.2.1 fit.2.2
    have hsep : Separates (' ' :: (u.text ++ us.flatMap (fun w => ' ' :: w.text) ++ v)) :=
      separates_cons (by decide) _
    have w₁ := Writes.token (p := p) htakes hfits (TokenKind.stopsAt_of_separates hsep)
    have w₂ : Writes (({} : ScanMode).afterAll [t]) (p.after t.text)
        ((u :: us).flatMap fun w => ' ' :: w.text) v (u :: us) vs := by
      rw [ScanMode.afterAll_cons, clean]
      exact written.blank
    exact ⟨by rw [ScanMode.afterAll_cons, clean, clean'], _, w₁.append w₂ (List.cons_ne_nil u us)⟩

theorem pointerExpression_rewrites {x : PointerExpression} {ts : List Token} (h : x.SpelledBy ts)
    (fit : Fitting {} ts) :
    Rewrites PointerExpression.SpelledBy (PointerExpression.mapOrigins .bare ()) (fun _ => True) x
      x.canonical ts := by
  cases h with
  | @intro o t c ts opener terms closer =>
    have clear : ({} : ScanMode).after o.kind = {} := by rw [opener]; rfl
    have ho : o.text = ['['] := text_of_fits opener fit.2.1 fun _ h => h.1
    have hc : c.text = [']'] :=
      text_of_fits closer (fitting_append.1 fit).2.2.1 fun _ h => h.1
    have rest : (ts.map toPointerTerm).flatMap (fun y => ' ' :: y.canonical) =
        ts.flatMap fun u => ' ' :: u.text := by
      rw [List.flatMap_map]
      simp only [toPointerTerm_canonical]
    have text : PointerExpression.canonical
        ⟨originOver (o :: t :: ts ++ [c]), t.toPointerTerm, ts.map toPointerTerm⟩ =
        o.text ++ ((t.text ++ ts.flatMap fun u => ' ' :: u.text) ++ c.text) := by
      rw [PointerExpression.canonical, toPointerTerm_canonical, rest, ho, hc]
      simp
    have hsep (v : Text) : Separates (c.text ++ v) := by
      rw [hc]
      exact separates_cons (by decide) v
    have clean := (writes_terms default terms (fitting_enclosed fit clear) (hsep [])).1
    refine ⟨afterAll_enclosed clear clean (by rw [closer]; rfl), ?_⟩
    intro p v _
    obtain ⟨-, us, written⟩ :=
      writes_terms (p.after o.text) terms (fitting_enclosed fit clear) (hsep v)
    have enclosed := written.enclosed fit (by rw [opener]; decide) clear clean
      (by rw [closer]; decide)
    cases us with
    | nil => exact absurd rfl (written.ne_nil (List.cons_ne_nil t ts))
    | cons u us =>
      have kinds : ∀ w ∈ u :: us, w.kind ∈ TokenKind.pointerTerms := by
        intro w hw
        have hform : w.form ∈ (t :: ts).map form := written.form ▸ List.mem_map_of_mem hw
        obtain ⟨w', hw', he⟩ := List.mem_map.1 hform
        rw [← (Prod.mk.inj he).1]
        exact terms w' hw'
      have spelled := PointerExpression.SpelledBy.intro (o := o.placedAt p)
        (c := c.placedAt ((p.after o.text).after (t.text ++ ts.flatMap fun u => ' ' :: u.text)))
        opener kinds closer
      refine ⟨_, _, by rw [text]; exact enclosed, spelled, ?_⟩
      have erased := map_eq_of_form (g := fun t => t.toPointerTerm.mapOrigins .bare ())
        (fun t u h => toPointerTerm_bare (congrArg Prod.fst h) (congrArg Prod.snd h)) written.form
      obtain ⟨hfirst, hrest⟩ := List.cons.inj erased
      simp only [PointerExpression.mapOrigins, PointerTerm.mapListOrigins_each, List.map_map]
      exact congrArg₂ (PointerExpression.mk default) hfirst hrest

theorem number_of_fits {t : Token} {awaited : Awaited} (kind : t.kind ∈ TokenKind.numbers)
    (fits : t.kind.Fits awaited t.text) : ∃ c cs, t.text = c :: cs ∧ c.isDigit := by
  simp only [TokenKind.numbers, List.mem_cons, List.not_mem_nil, or_false] at kind
  rcases kind with kind | kind
  · rw [kind] at fits
    obtain ⟨-, hne, hall⟩ := fits
    obtain ⟨c, cs, htext⟩ := List.exists_cons_of_ne_nil hne
    exact ⟨c, cs, htext, hall c (by rw [htext]; exact List.mem_cons_self)⟩
  · rw [kind] at fits
    obtain ⟨-, whole, fraction, htext, hne, -, hall, -⟩ := fits
    obtain ⟨c, cs, rfl⟩ := List.exists_cons_of_ne_nil hne
    exact ⟨c, _, htext, hall c List.mem_cons_self⟩

theorem pointerId_rewrites {x : PointerId} {ts : List Token} (h : x.SpelledBy ts)
    (fit : Fitting {} ts) :
    Rewrites PointerId.SpelledBy (PointerId.mapOrigins .bare ()) Separates x x.canonical ts := by
  cases h with
  | @number t kind =>
    obtain ⟨htakes, hfits, -⟩ := fit
    refine ⟨?_, fun p v hv => ?_⟩
    · exact after_pointerTerm (List.mem_append_left _ (List.mem_append_left _ kind))
    · exact ⟨_, _, .token htakes hfits (TokenKind.stopsAt_of_separates hv),
        .number (t := t.placedAt p) kind, rfl⟩
  | expression spelled =>
    exact (pointerExpression_rewrites spelled fit).map PointerId.expression .expression
      (fun _ => rfl) fun _ _ => trivial

theorem atSign_stopsAt {v : Text} (h : ∀ d ∈ v.head?, d ≠ '>') : TokenKind.atSign.StopsAt v := by
  intro c hc d hd
  obtain rfl : '@' = c := (List.cons.inj hc).1
  have := h d hd
  simp only [joins, Bool.or_eq_false_iff]
  refine ⟨⟨?_, rfl⟩, rfl⟩
  unfold Lexeme.twoChars
  split <;> simp_all

/-- What a pointer points to does not begin with the character that joins an at sign. -/
theorem pointerId_head {x : PointerId} {ts : List Token} (h : x.SpelledBy ts)
    (fit : Fitting {} ts) (v : Text) : ∀ d ∈ (x.canonical ++ v).head?, d ≠ '>' := by
  cases h with
  | @number t kind =>
    obtain ⟨c, cs, htext, hdigit⟩ := number_of_fits kind fit.2.1
    have hcanonical : PointerId.canonical (.number t.toNumber) = c :: cs := htext
    rw [hcanonical]
    intro d hd he
    cases hd
    rw [he] at hdigit
    exact absurd hdigit (by decide)
  | expression spelled =>
    intro d hd
    cases hd
    decide

/-- An at sign before its target. -/
theorem sign_writes {a : Token} {x : PointerId} {ts : List Token} (sign : a.kind = .atSign)
    (id : x.SpelledBy ts) (fit : Fitting {} (a :: ts)) :
    (({} : ScanMode).afterAll (a :: ts) = {}) ∧ ∀ p v, Separates v → ∃ us, ∃ y : PointerId,
      Writes {} p ('@' :: x.canonical) v (a :: ts) (a.placedAt p :: us) ∧ y.SpelledBy us ∧
      y.mapOrigins .bare () = x.mapOrigins .bare () := by
  obtain ⟨htakes, hfits, fit⟩ := fit
  have clear : ({} : ScanMode).after a.kind = {} := by rw [sign]; rfl
  rw [clear] at fit
  have ha : a.text = ['@'] := text_of_fits sign hfits fun _ h => h.1
  obtain ⟨clean, again⟩ := pointerId_rewrites id fit
  refine ⟨by rw [ScanMode.afterAll_cons, clear, clean], ?_⟩
  intro p v hv
  obtain ⟨us, y, written, hy, erased⟩ := again (p.after a.text) v hv
  have stops : a.kind.StopsAt (x.canonical ++ v) := by
    rw [sign]
    exact atSign_stopsAt (pointerId_head id fit v)
  have first := Writes.token (p := p) htakes hfits stops
  rw [← clear] at written
  have whole := first.append written id.ne_nil
  rw [ha] at whole
  exact ⟨us, y, whole, hy, erased⟩

theorem pointer_rewrites {x : Pointer} {ts : List Token} (h : x.SpelledBy ts)
    (fit : Fitting {} ts) :
    Rewrites Pointer.SpelledBy (Pointer.mapOrigins .bare ()) Separates x x.canonical ts := by
  cases h with
  | intro sign id =>
    obtain ⟨clean, again⟩ := sign_writes sign id fit
    refine ⟨clean, ?_⟩
    intro p v hv
    obtain ⟨us, y, written, hy, erased⟩ := again p v hv
    exact ⟨_, _, written, .intro (a := _) sign hy, congrArg (Pointer.mk default) erased⟩

theorem pointerRef_rewrites {x : PointerRef} {ts : List Token} (h : x.SpelledBy ts)
    (fit : Fitting {} ts) :
    Rewrites PointerRef.SpelledBy (PointerRef.mapOrigins .bare ()) Separates x x.canonical ts := by
  cases h with
  | intro sign id =>
    obtain ⟨clean, again⟩ := sign_writes sign id fit
    refine ⟨clean, ?_⟩
    intro p v hv
    obtain ⟨us, y, written, hy, erased⟩ := again p v hv
    exact ⟨_, _, written, .intro sign hy, congrArg (PointerRef.mk default) erased⟩

end RelationNotation
