import Mathlib.Data.List.Forall2
import Mathlib.Data.List.Nodup
import RelationNotation.Proofs.Diagnostic.Order
import RelationNotation.Proofs.Parse.Document
import RelationNotation.Proofs.Token.Fault
import RelationNotation.Proofs.Tree.Pass

/-!
Diagnostics are complete. Each error of the scanner and each mistake of the parser has one
diagnostic, in the order of the text; a mistake's is about a structural token within it or about the
end of the input. All start in different places, so none is lost or doubled when they are put in
order: `diagnostics_complete`.
-/

namespace RelationNotation

open Token

/-! ### Places of tokens -/

theorem scanFrom_starts (m : ScanMode) (p : Position) (s : Text) :
    (scanFrom m p s).Pairwise fun t u => t.span.start.offset < u.span.start.offset := by
  fun_induction scanFrom m p s with
  | case1 m p => exact List.pairwise_singleton _ _
  | case2 m p c cs l ih =>
    refine List.pairwise_cons.2 ⟨fun u hu => ?_, ih⟩
    have hstart := (scanFrom_within _ _ _ u hu).1
    have hpos : 0 < l.text.length := Lexeme.length_lexeme_pos ..
    rw [Position.offset_after] at hstart
    change p.offset < _
    omega

/-- Tokens of a text that start in one place are one token. -/
theorem eq_of_start {source : Text} {t u : Token} (ht : t ∈ scan source) (hu : u ∈ scan source)
    (h : t.span.start.offset = u.span.start.offset) : t = u := by
  have starts : ((scan source).map (·.span.start.offset)).Nodup :=
    List.pairwise_map.2 ((scanFrom_starts {} .start source).imp Int.ne_of_lt)
  exact List.inj_on_of_nodup_map starts ht hu h

/-! ### Errors of the scanner -/

namespace Token

/-- A diagnostic says what is wrong with a token, and where. -/
def ReportedBy (t : Token) (x : Diagnostic) : Prop :=
  ∃ f, t.fault = some f ∧ x = ⟨.lexical, f.message, t.span, f.expected⟩

variable {ts : List Token}

theorem toDiagnostic?_eq_none {t : Token} (marked : t.kind = .error ↔ t.fault.isSome)
    (h : t.kind ≠ .error) : t.toDiagnostic? = none := by
  rw [toDiagnostic?, Option.not_isSome_iff_eq_none.1 (mt marked.2 h)]
  rfl

/-- No structural token is an error, so all errors are among the trivia. -/
theorem filterMap_triviaIn (m : ScanMode)
    (marked : ∀ t ∈ ts, t.kind = .error ↔ t.fault.isSome) :
    (triviaIn m ts).filterMap toDiagnostic? = ts.filterMap toDiagnostic? := by
  induction ts generalizing m with
  | nil => rfl
  | cons t ts ih =>
    obtain ⟨ht, hts⟩ := List.forall_mem_cons.1 marked
    unfold triviaIn
    split
    next htakes =>
      have hkind := ScanMode.ne_error_of_takes htakes
      rw [ih _ hts, List.filterMap_cons_none (toDiagnostic?_eq_none ht hkind)]
    next => rw [List.filterMap_cons, List.filterMap_cons, ih m hts]

theorem reportedBy_errors (marked : ∀ t ∈ ts, t.kind = .error ↔ t.fault.isSome) :
    List.Forall₂ ReportedBy (errors ts) (ts.filterMap toDiagnostic?) := by
  induction ts with
  | nil => exact .nil
  | cons t ts ih =>
    obtain ⟨ht, hts⟩ := List.forall_mem_cons.1 marked
    rw [errors]
    by_cases hk : t.kind = .error
    · obtain ⟨f, hf⟩ := Option.isSome_iff_exists.1 (ht.1 hk)
      have hd : t.toDiagnostic? = some ⟨.lexical, f.message, t.span, f.expected⟩ := by
        rw [toDiagnostic?, hf]
        rfl
      rw [List.filter_cons_of_pos (by simpa using hk), List.filterMap_cons_some hd]
      exact .cons ⟨f, hf, rfl⟩ (ih hts)
    · rw [List.filter_cons_of_neg (by simpa using hk),
        List.filterMap_cons_none (toDiagnostic?_eq_none ht hk)]
      exact ih hts

end Token

/-- The errors of a text are what the scanner finds wrong with it. -/
theorem lexicalDiagnostics_errors (source : Text) :
    List.Forall₂ ReportedBy (errors (scan source)) (lexicalDiagnostics source) := by
  have marked : ∀ t ∈ scan source, t.kind = .error ↔ t.fault.isSome := error_iff_fault
  rw [lexicalDiagnostics, trivia_eq, filterMap_triviaIn {} marked]
  exact reportedBy_errors marked

/-! ### Mistakes of the parser -/

def Statement.mistake? : Statement → Option ErrorStatement
  | .error x => some x
  | _ => none

def Document.mistakes (d : Document) : List ErrorStatement :=
  d.statements.filterMap Statement.mistake?

/-- What of a mistake its diagnostic depends on: what it was, and where. -/
def ErrorStatement.claim (e : ErrorStatement) : String × Span := (e.message, e.origin.span)

def claims (xs : List Statement) : List (String × Span) :=
  (xs.filterMap Statement.mistake?).map ErrorStatement.claim

/-- A fault is what a mistake was. It is about a token within the mistake, one of those given, or
about the token at the end. -/
def CausedBy (ts : List Token) (stop : Token) (claim : String × Span) (fault : SyntaxFault) :
    Prop :=
  fault.message = claim.1 ∧
    (fault.found ∈ ts ∧ claim.2.contains fault.found.span ∨ fault.found = stop)

theorem CausedBy.mono {ts us : List Token} {stop : Token} {claim : String × Span}
    {fault : SyntaxFault} (h : CausedBy us stop claim fault) :
    CausedBy (ts ++ us) stop claim fault :=
  h.imp_right (Or.imp_left (And.imp_left (List.mem_append_right ts)))

theorem claims_of_spelled {levels : Nat} {x : Statement} {ts : List Token}
    (h : x.SpelledBy levels ts) (xs : List Statement) : claims (x :: xs) = claims xs := by
  cases h <;> rfl

/-- The mistakes among statements are caused by the faults, one by one. -/
theorem Session.Account.claims {source : Text} {levels : Nat} {stop : Token} {ts : List Token}
    {xs : List Statement} {faults : List SyntaxFault}
    (h : Account source levels stop ts xs faults) (hts : InSequence Token.span ts) :
    List.Forall₂ (CausedBy ts stop) (claims xs) faults := by
  induction h with
  | nil => exact .nil
  | @statement ts us x xs faults spelled further ih =>
    rw [claims_of_spelled spelled]
    exact (ih (hts.sublist (List.sublist_append_right ts us))).imp fun _ _ => .mono
  | @mistake ts us fault xs faults nonempty found further ih =>
    have here := hts.sublist (List.sublist_append_left ts us)
    refine .cons ⟨rfl, found.imp ?_ And.right⟩ ?_
    · exact fun hmem => ⟨List.mem_append_left us hmem, contains_originOver here hmem⟩
    · exact (ih (hts.sublist (List.sublist_append_right ts us))).imp fun _ _ => .mono

theorem Statement.claim_mapOrigins {σ : Type} {p : OriginMap σ} (hp : p.SpansBy id) (s : σ)
    (x : Statement) :
    (x.mapOrigins p s).mistake?.map ErrorStatement.claim = x.mistake?.map ErrorStatement.claim := by
  cases x with
  | error x => exact congrArg (fun span => some (x.message, span)) (hp s [] x.origin)
  | _ => rfl

/-- Trivia make no difference to what mistakes claim. -/
theorem claims_parseDocument (source : Text) (options : ParserOptions) :
    (parseDocument source options).document.mistakes.map ErrorStatement.claim =
      claims (startOf source options.maxDepth).statements.1 := by
  rw [Document.mistakes, statements_parseDocument, claims]
  split
  · rw [List.filterMap_map, List.map_filterMap, List.map_filterMap]
    refine List.filterMap_congr fun x _ => ?_
    exact x.claim_mapOrigins (p := Trivia.attaching) (fun _ _ _ => rfl) _
  · rfl

/-! ### Documents -/

/-- A diagnostic says what a mistake was, and points at a structural token within it or at the end
of the input. -/
def ErrorStatement.ReportedBy (source : Text) (e : ErrorStatement) (x : Diagnostic) : Prop :=
  x.kind = .grammatical ∧ x.message = e.message ∧
    ∃ t ∈ structural (scan source), t.kind ≠ .error ∧ x.span = t.span ∧
      (e.origin.span.contains t.span ∨ t.kind = .endOfInput)

theorem kind_structuralIn {m : ScanMode} {ts : List Token} :
    ∀ t ∈ structuralIn m ts, t.kind ≠ .error := by
  induction ts generalizing m with
  | nil => simp [structuralIn]
  | cons t ts ih =>
    unfold structuralIn
    split
    next htakes => exact List.forall_mem_cons.2 ⟨ScanMode.ne_error_of_takes htakes, ih⟩
    next => exact ih

theorem map_span_of_forall₂ {α : Type} {R : α → Diagnostic → Prop} {spanOf : α → Span}
    {xs : List α} {ds : List Diagnostic} (h : List.Forall₂ R xs ds)
    (hR : ∀ x d, R x d → d.span = spanOf x) : ds.map (·.span) = xs.map spanOf := by
  induction h with
  | nil => rfl
  | cons hx h ih => exact congrArg₂ List.cons (hR _ _ hx) ih

theorem nil_iff_of_forall₂ {α β : Type} {R : α → β → Prop} {xs : List α} {ys : List β}
    (h : List.Forall₂ R xs ys) : xs = [] ↔ ys = [] := by
  cases h <;> simp

section
variable (source : Text) (limit : Int)

def grammaticalDiagnostics : List Diagnostic := (startOf source limit).statements.2.diagnostics

/-- The mistakes in a text are what the parser finds wrong with it, about tokens in the order of the
text. -/
theorem grammaticalDiagnostics_spec :
    ∃ faults : List SyntaxFault, grammaticalDiagnostics source limit =
        faults.map SyntaxFault.toDiagnostic ∧
      (faults.map (·.found)).Sublist (structural (scan source)) ∧
      List.Forall₂ (CausedBy (structural (scan source)) (startOf source limit).cursor.stop)
        (claims (startOf source limit).statements.1) faults := by
  have ends := (reads_startOf source limit).endsOnce
  obtain ⟨faults, account, hdiagnostics, -⟩ := Session.account_statements ends rfl
  rw [← upcoming_startOf source limit]
  refine ⟨faults, hdiagnostics, account.found_sublist, ?_⟩
  refine (account.claims (inSequence_startOf source limit)).imp fun claim fault caused => ?_
  exact caused.imp_right (Or.imp_left (And.imp_left (List.mem_append_left _)))

theorem grammaticalDiagnostics_mistakes (options : ParserOptions) :
    List.Forall₂ (ErrorStatement.ReportedBy source) (parseDocument source options).document.mistakes
      (grammaticalDiagnostics source options.maxDepth) := by
  obtain ⟨faults, hfaults, -, caused⟩ := grammaticalDiagnostics_spec source options.maxDepth
  have ended := (reads_startOf source options.maxDepth).endsOnce.ended
  have hstop : (startOf source options.maxDepth).cursor.stop ∈ structural (scan source) := by
    rw [← upcoming_startOf source options.maxDepth]
    exact List.mem_append_right _ (List.mem_singleton_self _)
  rw [← claims_parseDocument, List.forall₂_map_left_iff] at caused
  rw [hfaults, List.forall₂_map_right_iff]
  refine caused.imp fun e fault hcause => ?_
  obtain ⟨hmessage, ⟨hmem, hcontains⟩ | hfound⟩ := hcause
  · refine ⟨rfl, hmessage, fault.found, hmem, ?_, rfl, .inl hcontains⟩
    rw [structural_eq] at hmem
    exact kind_structuralIn _ hmem
  · have hkind : fault.found.kind = .endOfInput := by
      rw [hfound]
      exact ended
    refine ⟨rfl, hmessage, fault.found, hfound ▸ hstop, ?_, rfl, .inr hkind⟩
    rw [hkind]
    decide

end

/-- Diagnostics of tokens in the order of the text stand in strict order. -/
theorem strict_of_sublist {source : Text} {ts : List Token} {ds : List Diagnostic}
    (hts : ts.Sublist (scan source)) (h : ds.map (·.span) = ts.map (·.span)) :
    ds.Pairwise fun d e => d.span.start.offset < e.span.start.offset := by
  have starts : (ts.map (·.span)).Pairwise fun s s' => s.start.offset < s'.start.offset :=
    List.pairwise_map.2 ((scanFrom_starts {} .start source).sublist hts)
  rw [← h, List.pairwise_map] at starts
  exact starts

section
variable (source : Text) (limit : Int)

theorem lexicalDiagnostics_strict :
    (lexicalDiagnostics source).Pairwise fun d e => d.span.start.offset < e.span.start.offset := by
  have spans : (lexicalDiagnostics source).map (·.span) = (errors (scan source)).map (·.span) :=
    map_span_of_forall₂ (lexicalDiagnostics_errors source) fun t d ⟨f, _, hd⟩ => by rw [hd]
  exact strict_of_sublist List.filter_sublist spans

theorem grammaticalDiagnostics_strict :
    (grammaticalDiagnostics source limit).Pairwise
      fun d e => d.span.start.offset < e.span.start.offset := by
  obtain ⟨faults, hfaults, found, -⟩ := grammaticalDiagnostics_spec source limit
  refine strict_of_sublist (found.trans (structural_sublist _)) ?_
  rw [hfaults, List.map_map, List.map_map]
  rfl

theorem mem_lexicalDiagnostics {d : Diagnostic} (h : d ∈ lexicalDiagnostics source) :
    d.kind = .lexical ∧ ∃ t ∈ scan source, t.kind = .error ∧ d.span = t.span := by
  obtain ⟨t, ht, hd⟩ := List.mem_filterMap.1 h
  obtain ⟨f, hf, rfl⟩ := Option.map_eq_some_iff.1 hd
  have hmem := (proper_trivia ht).1
  exact ⟨rfl, t, hmem, (error_iff_fault t hmem).2 (Option.isSome_of_eq_some hf), rfl⟩

theorem mem_grammaticalDiagnostics {d : Diagnostic} (h : d ∈ grammaticalDiagnostics source limit) :
    d.kind = .grammatical ∧ ∃ t ∈ structuralIn {} (scan source), d.span = t.span := by
  obtain ⟨faults, hfaults, found, -⟩ := grammaticalDiagnostics_spec source limit
  rw [hfaults] at h
  obtain ⟨fault, hfault, rfl⟩ := List.mem_map.1 h
  rw [structural_eq] at found
  exact ⟨rfl, fault.found, found.subset (List.mem_map_of_mem hfault), rfl⟩

theorem nodup_starts :
    ((lexicalDiagnostics source ++ grammaticalDiagnostics source limit).map
      (·.span.start.offset)).Nodup := by
  have lexical := List.pairwise_map.2 ((lexicalDiagnostics_strict source).imp Int.ne_of_lt)
  have grammatical :=
    List.pairwise_map.2 ((grammaticalDiagnostics_strict source limit).imp Int.ne_of_lt)
  rw [List.map_append]
  refine List.nodup_append.2 ⟨lexical, grammatical, ?_⟩
  -- Diagnostics of both kinds in one place would be about one token, an error and structural.
  rintro _ hx _ hy rfl
  obtain ⟨d, hd, hstart⟩ := List.mem_map.1 hx
  obtain ⟨e, he, hstart'⟩ := List.mem_map.1 hy
  obtain ⟨-, t, ht, hkind, hspan⟩ := mem_lexicalDiagnostics source hd
  obtain ⟨-, u, hu, hspan'⟩ := mem_grammaticalDiagnostics source limit he
  have same : t.span.start.offset = u.span.start.offset := by
    rw [← hspan, ← hspan', hstart, hstart']
  obtain rfl := eq_of_start ht ((structuralIn_sublist _ _).subset hu) same
  exact kind_structuralIn t hu hkind

end

theorem diagnostics_eq_inOrder (source : Text) (options : ParserOptions) :
    (parseDocument source options).diagnostics = Diagnostic.inOrder
      (lexicalDiagnostics source ++ grammaticalDiagnostics source options.maxDepth) :=
  diagnostics_parseDocument source options

/-- Putting the diagnostics of a text in order keeps both kinds as they are. -/
theorem filter_diagnostics (source : Text) (options : ParserOptions) :
    (parseDocument source options).diagnostics.filter (·.kind == .lexical) =
        lexicalDiagnostics source ∧
      (parseDocument source options).diagnostics.filter (·.kind == .grammatical) =
        grammaticalDiagnostics source options.maxDepth := by
  have nodup := nodup_starts source options.maxDepth
  have lexical : ∀ d ∈ lexicalDiagnostics source, d.kind = .lexical :=
    fun d hd => (mem_lexicalDiagnostics source hd).1
  have grammatical : ∀ d ∈ grammaticalDiagnostics source options.maxDepth, d.kind = .grammatical :=
    fun d hd => (mem_grammaticalDiagnostics source _ hd).1
  rw [diagnostics_eq_inOrder]
  constructor
  · refine Diagnostic.filter_inOrder _ ?_ nodup (lexicalDiagnostics_strict source)
    rw [List.filter_append, List.filter_eq_self.2 fun d hd => by simp [lexical d hd],
      List.filter_eq_nil_iff.2 fun d hd => by simp [grammatical d hd], List.append_nil]
  · refine Diagnostic.filter_inOrder _ ?_ nodup (grammaticalDiagnostics_strict source _)
    rw [List.filter_append, List.filter_eq_nil_iff.2 fun d hd => by simp [lexical d hd],
      List.filter_eq_self.2 fun d hd => by simp [grammatical d hd], List.nil_append]

/-- The diagnostics of a text start in different places, in the order of the text. There is one for
each error of the scanner and one for each mistake in the document, in their order, and no other. -/
theorem diagnostics_complete (source : Text) (options : ParserOptions) :
    let parsed := parseDocument source options
    (parsed.diagnostics.Pairwise fun x y => x.span.start.offset < y.span.start.offset) ∧
      List.Forall₂ ReportedBy (errors (scan source))
        (parsed.diagnostics.filter (·.kind == .lexical)) ∧
      List.Forall₂ (ErrorStatement.ReportedBy source) parsed.document.mistakes
        (parsed.diagnostics.filter (·.kind == .grammatical)) ∧
      (parsed.diagnostics.map (·.span)).Nodup ∧
      (parsed.ok ↔ errors (scan source) = [] ∧ parsed.document.mistakes = []) := by
  intro parsed
  obtain ⟨lexical, grammatical⟩ := filter_diagnostics source options
  have strict := Diagnostic.inOrder_strict (nodup_starts source options.maxDepth)
  have errors := lexicalDiagnostics_errors source
  have mistakes := grammaticalDiagnostics_mistakes source options
  refine ⟨strict, lexical ▸ errors, grammatical ▸ mistakes, ?_, ?_⟩
  · refine List.pairwise_map.2 (strict.imp fun hlt heq => ?_)
    rw [heq] at hlt
    exact absurd hlt (Int.lt_irrefl _)
  · rw [Parsed.ok, List.isEmpty_iff, diagnostics_eq_inOrder, Diagnostic.inOrder_eq_nil_iff,
      List.append_eq_nil_iff, nil_iff_of_forall₂ errors, nil_iff_of_forall₂ mistakes]

end RelationNotation
