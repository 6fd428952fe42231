import RelationNotation.Proofs.Canonical.Statement
import RelationNotation.Proofs.Tree.WellFormed

/-!
Tokens for the leaves of well-formed trees. A well-formed leaf fits a kind of token, so whether or
not a leaf was read from a text, some token spells it. Tokens are set out so that no two in a row
touch by chance.
-/

namespace RelationNotation

open Token

/-! ### Well-formed leaves fit kinds of tokens -/

theorem isDigits_iff {t : Text} : isDigits t ↔ t ≠ [] ∧ ∀ c ∈ t, c.isDigit := by
  simp [isDigits]

theorem isDecimal_split {t : Text} (h : isDecimal t) :
    ∃ whole fraction, t = whole ++ '.' :: fraction ∧ isDigits whole ∧ isDigits fraction := by
  unfold isDecimal at h
  split at h
  next fraction hrest =>
    rw [Bool.and_eq_true] at h
    refine ⟨t.takeWhile Char.isDigit, fraction, ?_, h⟩
    rw [← hrest, List.takeWhile_append_dropWhile]
  next => cases h

theorem stringRest_of_isQuotable {t : Text} (h : isQuotable t) :
    Lexeme.stringRest (t ++ ['"']) = some (t.length + 1) := by
  fun_induction isQuotable t with
  | case1 => rfl
  | case2 => cases h
  | case3 => cases h
  | case4 c cs ih =>
    rw [List.cons_append, List.cons_append, Lexeme.stringRest, ih h]
    rfl
  | case5 c cs hquote hlast hslash ih =>
    have hc : c ≠ '\\' := by
      rintro rfl
      cases cs with
      | nil => exact hlast rfl rfl
      | cons d ds => exact hslash d ds rfl rfl
    rw [List.cons_append, Lexeme.stringRest.eq_4 c _ hquote fun _ _ hd _ => hc hd, ih h]
    rfl

/-- A comment's body, behind some dashes in a row, runs into the closing fence. -/
theorem commentRest_of_body (run : Nat) (body : Text)
    (fenceless : ¬ dashFence <:+: List.replicate run '-' ++ body)
    (ends : (List.replicate run '-' ++ body).getLast? ≠ some '-') :
    Lexeme.commentRest run (body ++ dashFence) = .ok (body.length + 4) := by
  induction body generalizing run with
  | nil =>
    cases run with
    | zero => rfl
    | succ run => simp [List.getLast?_replicate] at ends
  | cons c cs ih =>
    -- Four dashes with the body going on would be a fence within it.
    have short : run ≠ 4 := by
      rintro rfl
      exact fenceless ⟨[], c :: cs, rfl⟩
    rw [List.cons_append, Lexeme.commentRest]
    split
    next hc =>
      have longer : List.replicate run '-' ++ c :: cs = List.replicate (run + 1) '-' ++ cs := by
        rw [hc, List.replicate_succ', List.append_assoc]
        rfl
      rw [longer] at fenceless ends
      rw [ih (run + 1) fenceless ends]
      rfl
    next hc =>
      rw [ih 0 ?_ ?_]
      · rfl
      · exact fun h => fenceless (h.trans ⟨List.replicate run '-' ++ [c], [], by simp⟩)
      · cases cs with
        | nil => simp
        | cons d ds => simpa [List.getLast?_append] using ends

theorem DashComment.fits {x : DashComment} (h : x.isWellFormed) (awaited : Awaited) :
    TokenKind.dashComment.Fits awaited x.text := by
  simp only [isWellFormed, Bool.and_eq_true, beq_iff_eq, Bool.not_eq_true', decide_eq_false_iff_not,
    bne_iff_ne] at h
  obtain ⟨⟨htext, fenceless⟩, ends⟩ := h
  refine ⟨x.body ++ dashFence, by rw [← List.append_assoc]; exact htext, ?_⟩
  rw [commentRest_of_body 0 x.body fenceless ends, List.length_append]
  rfl

theorem UnicodeString.fits {x : UnicodeString} (h : x.isWellFormed) {awaited : Awaited}
    (ha : awaited ≠ .token) : TokenKind.unicodeString.Fits awaited x.text := by
  simp only [isWellFormed, Bool.and_eq_true, Bool.not_eq_true', List.isEmpty_eq_false_iff,
    List.all_eq_true] at h
  obtain ⟨⟨⟨nonempty, chars⟩, word⟩, fence⟩ := h
  refine ⟨ha, nonempty, chars, by simp [word], fun hfence => ?_⟩
  rw [List.isPrefixOf_iff_prefix.2 hfence] at fence
  cases fence

theorem Identifier.fits {x : Identifier} (h : x.isName) (awaited : Awaited) :
    TokenKind.identifier.Fits awaited x.text := by
  simp only [isName, Bool.and_eq_true, bne_iff_ne] at h
  exact ⟨h.1, fun _ => h.2⟩

/-- The kind of token that spells a number. -/
def Number.kind (x : Number) : TokenKind := if x.isFloat then .float else .integer

theorem Number.fits {x : Number} (h : x.isWellFormed) : x.kind.Fits .token x.text := by
  unfold isWellFormed at h
  unfold kind
  split
  next hfloat =>
    rw [if_pos hfloat] at h
    obtain ⟨whole, fraction, htext, hwhole, hfraction⟩ := isDecimal_split h
    rw [isDigits_iff] at hwhole hfraction
    exact ⟨rfl, whole, fraction, htext, hwhole.1, hfraction.1, hwhole.2, hfraction.2⟩
  next hfloat =>
    rw [if_neg hfloat] at h
    exact ⟨rfl, isDigits_iff.1 h⟩

/-! ### Tokens set out -/

namespace Token

/-- A token at the start of a text. -/
def atStart (k : TokenKind) (t : Text) : Token := ⟨k, t, ⟨.start, Position.start.after t⟩, none⟩

/-- Punctuation at the start of a text. -/
def mark (k : TokenKind) : Token := atStart k k.text.toList

end Token

/-- Tokens that fit their kinds and leave the scanner as they found it. The first stands at the
start of a text and none ends there, so that such tokens in a row never touch. -/
structure SetOut (ts : List Token) : Prop where
  fitting : Fitting {} ts
  clean : ({} : ScanMode).afterAll ts = {}
  start : ∀ t ∈ ts.head?, t.span.start.offset = 0
  stops : ∀ t ∈ ts, 0 < t.span.stop.offset

theorem TokenKind.fits_own_text {k : TokenKind} (h : k.isClass = false) : k.Fits .token k.text.toList := by
  cases k <;> first | exact ⟨rfl, fun h => absurd rfl h⟩ | cases h

theorem takes_own_text {k : TokenKind} (h : k.isClass = false) (m : ScanMode) : m.takes k := by
  cases k <;> first | rfl | cases h

theorem stop_atStart {k : TokenKind} {t : Text} {m : ScanMode} (takes : m.takes k)
    (fits : k.Fits m.awaited t) : 0 < (atStart k t).span.stop.offset := by
  have := List.length_pos_iff.2 (fits.ne_nil takes)
  rw [atStart, Position.offset_after]
  show 0 < 0 + (t.length : Int)
  omega

theorem stop_mark {k : TokenKind} (h : k.isClass = false) : 0 < (mark k).span.stop.offset :=
  stop_atStart (takes_own_text h {}) (TokenKind.fits_own_text h)

namespace SetOut
variable {ts us : List Token}

theorem nil : SetOut [] := ⟨trivial, rfl, by simp, by simp⟩

theorem append (h₁ : SetOut ts) (h₂ : SetOut us) : SetOut (ts ++ us) where
  fitting := fitting_append.2 ⟨h₁.fitting, by rw [h₁.clean]; exact h₂.fitting⟩
  clean := by rw [ScanMode.afterAll_append, h₁.clean, h₂.clean]
  start := by
    cases ts with
    | nil => exact h₂.start
    | cons t ts => exact h₁.start
  stops := List.forall_mem_append.2 ⟨h₁.stops, h₂.stops⟩

/-- Two tokens side by side. -/
theorem pair {t u : Token} (h₁ : SetOut [t]) (h₂ : SetOut [u]) :
    SetOut [t, u.placedAt (Position.start.after t.text)] where
  fitting := by
    have clear : ({} : ScanMode).after t.kind = {} := h₁.clean
    refine ⟨h₁.fitting.1, h₁.fitting.2.1, ?_⟩
    rw [clear]
    exact h₂.fitting
  clean := (h₁.append h₂).clean
  start := h₁.start
  stops := by
    have := List.length_pos_iff.2 (TokenKind.Fits.ne_nil (m := {}) h₂.fitting.2.1 h₂.fitting.1)
    refine List.forall_mem_cons.2 ⟨h₁.stops t (by simp), List.forall_mem_singleton.2 ?_⟩
    simp only [placedAt, Position.offset_after]
    show 0 < 0 + (t.text.length : Int) + u.text.length
    omega

theorem single {k : TokenKind} {t : Text} (takes : ({} : ScanMode).takes k) (fits : k.Fits .token t)
    (clean : ({} : ScanMode).after k = {}) : SetOut [atStart k t] where
  fitting := ⟨takes, fits, trivial⟩
  clean := clean
  start := by simp [atStart, Position.start]
  stops := List.forall_mem_singleton.2 (stop_atStart takes fits)

theorem mark {k : TokenKind} (h : k.isClass = false) (clean : ({} : ScanMode).after k = {}) :
    SetOut [Token.mark k] := single (takes_own_text h _) (TokenKind.fits_own_text h) clean

theorem enclosed {o c : TokenKind} (opener : o.isClass = false)
    (opens : ({} : ScanMode).after o = {}) (h : SetOut ts) (closer : c.isClass = false)
    (closes : ({} : ScanMode).after c = {}) : SetOut (Token.mark o :: ts ++ [Token.mark c]) :=
  ((SetOut.mark opener opens).append h).append (.mark closer closes)

/-- A token between an opener and a closer, which the scanner awaits behind the opener. -/
theorem between {o c k : TokenKind} {t : Text} {m : ScanMode} (opener : o.isClass = false)
    (closer : c.isClass = false) (opens : ({} : ScanMode).after o = m) (takes : m.takes k)
    (fits : k.Fits m.awaited t) (through : m.after k = { m with awaited := .token })
    (closes : ({ m with awaited := .token } : ScanMode).after c = {}) :
    SetOut [Token.mark o, atStart k t, Token.mark c] := by
  refine ⟨⟨takes_own_text opener _, TokenKind.fits_own_text opener, ?_⟩, ?_, ?_, ?_⟩
  · show Fitting (({} : ScanMode).after o) [atStart k t, Token.mark c]
    rw [opens]
    refine ⟨takes, fits, takes_own_text closer _, ?_, trivial⟩
    show c.Fits (m.after k).awaited c.text.toList
    rw [through]
    exact TokenKind.fits_own_text closer
  · show ((({} : ScanMode).after o).after k).after c = {}
    rw [opens, through, closes]
  · simp [Token.mark, atStart, Position.start]
  · simp [stop_mark opener, stop_atStart takes fits, stop_mark closer]

end SetOut

/-- Some tokens, set out, spell a part of a tree, positions and trivia aside. -/
def Expressible {α : Type} (spelled : α → List Token → Prop) (erase : α → α) (x : α) : Prop :=
  ∃ ts y, SetOut ts ∧ spelled y ts ∧ erase y = erase x

/-- What a part spells, a larger part spells that is nothing but the smaller one. -/
theorem Expressible.map {α β : Type} {spelled : α → List Token → Prop} {erase : α → α}
    {spelled' : β → List Token → Prop} {erase' : β → β} {x : α} (h : Expressible spelled erase x)
    (f : α → β) (hspelled : ∀ {y ts}, spelled y ts → spelled' (f y) ts)
    (herase : ∀ y, erase' (f y) = f (erase y)) : Expressible spelled' erase' (f x) := by
  obtain ⟨ts, y, setOut, hy, erased⟩ := h
  exact ⟨ts, f y, setOut, hspelled hy, by rw [herase, herase, erased]⟩

/-! ### Strings between an opener and a closer -/

theorem StringValue.exists_spelling {x : StringValue} (h : x.isWellFormed) {m : ScanMode}
    (awaits : m.awaited ≠ .token) : ∃ k t, ∃ y : StringValue, m.takes k ∧ k.Fits m.awaited t ∧
      m.after k = { m with awaited := .token } ∧ y.SpelledBy (atStart k t) ∧
      y.mapOrigins .bare () = x.mapOrigins .bare () := by
  cases x with
  | identifier x =>
    exact ⟨.identifier, x.text, _, rfl, ⟨h, fun ha => absurd ha awaits⟩, rfl, .identifier rfl, rfl⟩
  | unicodeString x =>
    exact ⟨.unicodeString, x.text, _, rfl, UnicodeString.fits h awaits, rfl, .unicodeString rfl, rfl⟩

theorem TypeDesc.expressible {x : TypeDesc} (h : x.description.isWellFormed) :
    Expressible TypeDesc.SpelledBy (TypeDesc.mapOrigins .bare ()) x := by
  obtain ⟨k, t, y, takes, fits, after, spelled, erased⟩ :=
    StringValue.exists_spelling h (m := ⟨.string, true⟩) (by decide)
  refine ⟨[mark .quote, atStart k t, mark .quote], _, ?_, .intro rfl spelled rfl, ?_⟩
  · exact .between rfl rfl rfl takes fits after rfl
  · exact congrArg (TypeDesc.mk default) erased

theorem Fycoide.expressible {x : Fycoide} (h : x.name.isWellFormed) :
    Expressible Fycoide.SpelledBy (Fycoide.mapOrigins .bare ()) x := by
  obtain ⟨k, t, y, takes, fits, after, spelled, erased⟩ :=
    StringValue.exists_spelling h (m := ⟨.string, false⟩) (by decide)
  refine ⟨[mark .fycoideOpen, atStart k t, mark .rightParen], _, ?_, .intro rfl spelled rfl, ?_⟩
  · exact .between rfl rfl rfl takes fits after rfl
  · exact congrArg (Fycoide.mk default) erased

theorem IncludeFile.exists_spelling {x : IncludeFile} (h : x.isWellFormed) {m : ScanMode}
    (awaits : m.awaited = .file) : ∃ k t, ∃ y : IncludeFile, m.takes k ∧ k.Fits m.awaited t ∧
      m.after k = { m with awaited := .token } ∧ y.SpelledBy (atStart k t) ∧
      y.mapOrigins .bare () = x.mapOrigins .bare () := by
  have notToken : m.awaited ≠ .token := by rw [awaits]; decide
  cases x with
  | identifier x =>
    exact ⟨.identifier, x.text, _, rfl, ⟨h, fun ha => absurd ha notToken⟩, rfl, .identifier rfl, rfl⟩
  | unicodeString x =>
    exact ⟨.unicodeString, x.text, _, rfl, UnicodeString.fits h notToken, rfl, .unicodeString rfl,
      rfl⟩
  | quotedString x =>
    refine ⟨.quotedString, '"' :: (x.content ++ ['"']), _, ?_, ⟨_, rfl, ?_⟩, if_pos awaits,
      .quotedString rfl, ?_⟩
    · simp [ScanMode.takes, awaits]
    · rw [stringRest_of_isQuotable h, List.length_append]
      rfl
    · simp [mapOrigins, QuotedString.mapOrigins, atStart, OriginMap.leaf, OriginMap.each]

theorem Include.expressible {x : Include} (h : x.file.isWellFormed) :
    Expressible Include.SpelledBy (Include.mapOrigins .bare ()) x := by
  obtain ⟨k, t, y, takes, fits, after, spelled, erased⟩ :=
    IncludeFile.exists_spelling h (m := ⟨.file, false⟩) rfl
  refine ⟨[mark .includeOpen, atStart k t, mark .rightBracket], _, ?_, .intro rfl spelled rfl, ?_⟩
  · exact .between rfl rfl rfl takes fits after rfl
  · exact congrArg (Include.mk default) erased

/-! ### Pointers -/

/-- A symbol is the text of a kind of token. -/
theorem exists_kind {symbols : List Char} (kinds : List TokenKind) {t : Text}
    (table : symbols.all fun c => kinds.any fun k => k.text.toList == [c])
    (h : isOneOf symbols t) : ∃ k ∈ kinds, k.text.toList = t := by
  obtain ⟨c, hc, hsymbol⟩ := List.any_eq_true.1 h
  obtain ⟨k, hk, htext⟩ := List.any_eq_true.1 (List.all_eq_true.1 table c hc)
  exact ⟨k, hk, (beq_iff_eq.1 htext).trans (beq_iff_eq.1 hsymbol).symm⟩

theorem PointerTerm.exists_spelling {x : PointerTerm} (h : x.isWellFormed) :
    ∃ k t, k ∈ TokenKind.pointerTerms ∧ k.Fits .token t ∧
      (atStart k t).toPointerTerm.mapOrigins .bare () = x.mapOrigins .bare () := by
  cases x with
  | number x =>
    have kinds : x.kind ∈ TokenKind.numbers := by
      unfold Number.kind
      split <;> decide
    refine ⟨x.kind, x.text, ?_, Number.fits h, ?_⟩
    · exact List.mem_append_left _ (List.mem_append_left _ kinds)
    · rw [toPointerTerm, if_pos (show (atStart x.kind x.text).kind ∈ _ from kinds)]
      obtain ⟨origin, text, isFloat⟩ := x
      cases isFloat <;> rfl
  | operator x =>
    have facts : ∀ k ∈ TokenKind.bareOperators, k.isClass = false ∧ k ∉ TokenKind.numbers := by
      decide
    obtain ⟨k, hk, htext⟩ := exists_kind TokenKind.bareOperators (by decide) h
    obtain ⟨punctuation, noNumber⟩ := facts k hk
    refine ⟨k, x.symbol, ?_, htext ▸ TokenKind.fits_own_text punctuation, ?_⟩
    · exact List.mem_append_left _ (List.mem_append_right _ hk)
    · rw [toPointerTerm, if_neg (show (atStart k _).kind ∉ _ from noNumber),
        if_pos (show (atStart k _).kind ∈ _ from hk)]
      rfl
  | arithmeticOp x =>
    have facts : ∀ k ∈ TokenKind.arithmeticOperators, k.isClass = false ∧ k ∉ TokenKind.numbers ∧
        k ∉ TokenKind.bareOperators := by
      decide
    obtain ⟨k, hk, htext⟩ := exists_kind TokenKind.arithmeticOperators (by decide) h
    obtain ⟨punctuation, noNumber, notBare⟩ := facts k hk
    refine ⟨k, x.symbol, List.mem_append_right _ hk, htext ▸ TokenKind.fits_own_text punctuation, ?_⟩
    rw [toPointerTerm, if_neg (show (atStart k _).kind ∉ _ from noNumber),
      if_neg (show (atStart k _).kind ∉ _ from notBare)]
    rfl

theorem PointerTerm.exists_row {xs : List PointerTerm} (h : ∀ x ∈ xs, x.isWellFormed) :
    ∃ ts, SetOut ts ∧ (∀ t ∈ ts, t.kind ∈ TokenKind.pointerTerms) ∧
      ts.map (·.toPointerTerm.mapOrigins .bare ()) = xs.map (·.mapOrigins .bare ()) := by
  have taken : ∀ k ∈ TokenKind.pointerTerms, ({} : ScanMode).takes k := by decide
  induction xs with
  | nil => exact ⟨[], .nil, by simp, rfl⟩
  | cons x xs ih =>
    obtain ⟨hx, hxs⟩ := List.forall_mem_cons.1 h
    obtain ⟨k, t, hk, fits, erased⟩ := PointerTerm.exists_spelling hx
    obtain ⟨ts, setOut, kinds, erasedRest⟩ := ih hxs
    refine ⟨atStart k t :: ts, ?_, List.forall_mem_cons.2 ⟨hk, kinds⟩, ?_⟩
    · exact (SetOut.single (taken k hk) fits (after_pointerTerm hk)).append setOut
    · rw [List.map_cons, List.map_cons, erased, erasedRest]

theorem PointerExpression.expressible {x : PointerExpression}
    (h : x.terms.all (·.isWellFormed)) :
    Expressible PointerExpression.SpelledBy (PointerExpression.mapOrigins .bare ()) x := by
  obtain ⟨ts, setOut, kinds, erased⟩ := PointerTerm.exists_row (List.all_eq_true.1 h)
  cases ts with
  | nil => cases erased
  | cons t ts =>
    refine ⟨_, _, setOut.enclosed (o := .leftBracket) (c := .rightBracket) rfl rfl rfl rfl,
      .intro rfl kinds rfl, ?_⟩
    obtain ⟨hfirst, hrest⟩ := List.cons.inj erased
    simp only [mapOrigins, PointerTerm.mapListOrigins_each, List.map_map]
    exact congrArg₂ (PointerExpression.mk default) hfirst hrest

theorem PointerId.expressible {x : PointerId} (h : x.isWellFormed) :
    Expressible PointerId.SpelledBy (PointerId.mapOrigins .bare ()) x := by
  cases x with
  | number x =>
    have facts : x.kind ∈ TokenKind.numbers ∧ ({} : ScanMode).takes x.kind ∧
        ({} : ScanMode).after x.kind = {} := by
      unfold Number.kind
      split <;> decide
    obtain ⟨kinds, takes, clean⟩ := facts
    refine ⟨[atStart x.kind x.text], _, .single takes (Number.fits h) clean, .number kinds, ?_⟩
    obtain ⟨origin, text, isFloat⟩ := x
    cases isFloat <;> rfl
  | expression x =>
    exact (PointerExpression.expressible h).map PointerId.expression .expression fun _ => rfl

theorem Pointer.expressible {x : Pointer} (h : x.id.isWellFormed) :
    Expressible Pointer.SpelledBy (Pointer.mapOrigins .bare ()) x := by
  obtain ⟨ts, y, setOut, spelled, erased⟩ := PointerId.expressible h
  refine ⟨mark .atSign :: ts, _, ?_, .intro rfl spelled, congrArg (Pointer.mk default) erased⟩
  exact (SetOut.mark (k := .atSign) rfl rfl).append setOut

theorem PointerRef.expressible {x : PointerRef} (h : x.id.isWellFormed) :
    Expressible PointerRef.SpelledBy (PointerRef.mapOrigins .bare ()) x := by
  obtain ⟨ts, y, setOut, spelled, erased⟩ := PointerId.expressible h
  refine ⟨mark .atSign :: ts, _, ?_, .intro rfl spelled, congrArg (PointerRef.mk default) erased⟩
  exact (SetOut.mark (k := .atSign) rfl rfl).append setOut

end RelationNotation
