import RelationNotation.Proofs.Diagnostic.Completeness
import RelationNotation.Proofs.Grammar.Acceptance
import RelationNotation.Proofs.Grammar.Level
import RelationNotation.Proofs.Parse.Retracing

/-!
The limit of nesting cuts off and does nothing else. Where no mistake is about too deep a nesting, a
higher limit makes no difference to a session, step by step (`Session.statements_relimit`); and what
is accepted with one limit is accepted with exactly those limits that its nesting allows.
-/

namespace RelationNotation

open Token

/-- A diagnostic that says that the nesting was too deep. -/
def Diagnostic.FindsTooDeep (d : Diagnostic) : Prop :=
  "Nesting too deep".toList <+: d.message.toList

instance (d : Diagnostic) : Decidable d.FindsTooDeep :=
  inferInstanceAs (Decidable (_ <+: _))

theorem SyntaxFault.TooDeep.findsTooDeep {fault : SyntaxFault} (h : fault.TooDeep) :
    fault.toDiagnostic.FindsTooDeep := by
  obtain ⟨limit, hdemand⟩ := h
  have opening : "Nesting too deep (limit " = "Nesting too deep" ++ " (limit " := rfl
  have phrase : (Demand.shallower limit).phrase =
      "Nesting too deep" ++ (" (limit " ++ toString limit ++ ")") := by
    rw [← String.append_assoc, ← String.append_assoc, ← opening]
    rfl
  rw [Diagnostic.FindsTooDeep, toDiagnostic, message, hdemand, phrase, String.append_assoc,
    String.append_assoc, String.toList_append]
  exact List.prefix_append _ _

namespace Session
variable {s : Session} {limit : Int}

/-- The same session with another limit of nesting. -/
def relimit (s : Session) (limit : Int) : Session :=
  { s with nesting := { s.nesting with limit } }

theorem limit_statement (s : Session) : s.statement.2.nesting.limit = s.nesting.limit := by
  unfold Session.statement
  split <;> rfl

theorem statement_relimit (hc : s.cursor.EndsOnce) (ha : s.cursor.ahead ≠ [])
    (hlimit : s.nesting.limit ≤ limit)
    (shallow : ∀ x ∈ s.statement.2.diagnostics, ¬ x.FindsTooDeep) :
    (s.relimit limit).statement = (s.statement.1, s.statement.2.relimit limit) := by
  have hwithin : s.nesting.Within (s.relimit limit).nesting := Int.sub_le_sub_right hlimit _
  have read := Parse.statement_deeper hwithin hc
  cases hs : Parse.statement s.nesting s.cursor with
  | ok x d =>
    rw [hs] at read
    rw [statement_of_ok hs, statement_of_ok (read.resolve_left id)]
    rfl
  | error fault d =>
    obtain ⟨ts, us, -, -, -, -, step⟩ := statement_of_error ha hs
    rw [step] at shallow
    have hshallow : ¬ fault.TooDeep := fun deep =>
      shallow _ (List.mem_append_right _ (List.mem_singleton_self _)) deep.findsTooDeep
    rw [hs] at read
    have read' : Parse.statement (s.relimit limit).nesting (s.relimit limit).cursor =
        .error fault d := read.resolve_left hshallow
    rw [Session.statement, Session.statement, hs, read']
    rfl

theorem statements_relimit (hc : s.cursor.EndsOnce) (hlimit : s.nesting.limit ≤ limit)
    (shallow : ∀ x ∈ s.statements.2.diagnostics, ¬ x.FindsTooDeep) :
    (s.relimit limit).statements = (s.statements.1, s.statements.2.relimit limit) := by
  revert hlimit shallow
  refine steps_induction (fun s ha _ _ => ?_) (fun s hc ha ih hlimit shallow => ?_) hc
  · rw [statements_of_nil ha, statements_of_nil (s := s.relimit limit) ha]
  · have hrest := diagnostics_prefix (endsOnce_statement ha hc)
    rw [statements_of_ahead hc ha] at shallow ⊢
    have step := statement_relimit hc ha hlimit fun x hx => shallow x (hrest.subset hx)
    have rest := ih (s.limit_statement ▸ hlimit) shallow
    rw [statements_of_ahead (s := s.relimit limit) hc ha, step, rest]

/-- A session that finds no mistake reads statements of the grammar. -/
theorem Account.row {source : Text} {levels : Nat} {stop : Token} {ts : List Token}
    {xs : List Statement} (h : Account source levels stop ts xs []) :
    Statement.RowSpelledBy levels xs ts := by
  generalize hfaults : ([] : List SyntaxFault) = faults at h
  induction h with
  | nil => exact .nil
  | statement spelled further ih => exact .cons spelled (ih hfaults)
  | mistake nonempty found further ih => cases hfaults

end Session

section
variable (source : Text) (options : ParserOptions)

/-- With a higher limit a text is read alike, unless it nests too deep for the lower one. -/
theorem parseDocument_deeper {limit : Int} (hlimit : options.maxDepth ≤ limit)
    (shallow : ∀ x ∈ grammaticalDiagnostics source options.maxDepth, ¬ x.FindsTooDeep) :
    parseDocument source { options with maxDepth := limit } = parseDocument source options := by
  have hc := (reads_startOf source options.maxDepth).endsOnce
  have hs := Session.statements_relimit hc hlimit shallow
  have same : parseTokens source (structural (scan source)) limit =
      parseTokens source (structural (scan source)) options.maxDepth := by
    have start : Session.start source (structural (scan source)) limit =
        (startOf source options.maxDepth).relimit limit := rfl
    rw [parseTokens, start, Session.document, hs]
    rfl
  rw [parseDocument, parseDocument, same]

theorem nesting_parseDocument_le_iff {n : Nat} :
    (parseDocument source options).document.nesting ≤ n ↔
      ∀ x ∈ (startOf source options.maxDepth).statements.1, x.nesting ≤ n := by
  rw [Document.nesting_le_iff, statements_parseDocument]
  split
  · simp only [List.forall_mem_map, Statement.nesting_mapOrigins]
  · rfl

variable {source options}

/-- A text without mistakes is a row of its statements. -/
theorem row_of_accepted (h : grammaticalDiagnostics source options.maxDepth = []) :
    Statement.RowSpelledBy options.maxDepth.toNat (startOf source options.maxDepth).statements.1
      (startOf source options.maxDepth).cursor.ahead := by
  obtain ⟨faults, account, hdiagnostics, -⟩ :=
    Session.account_statements (reads_startOf source options.maxDepth).endsOnce rfl
  have hnil : faults.map SyntaxFault.toDiagnostic = [] := hdiagnostics.symm.trans h
  rw [List.map_eq_nil_iff.1 hnil] at account
  have levels : (startOf source options.maxDepth).nesting.levels = options.maxDepth.toNat := by
    simp [startOf, Session.start, Nesting.levels]
  exact levels ▸ account.row

theorem nesting_le_of_accepted (h : grammaticalDiagnostics source options.maxDepth = []) :
    (parseDocument source options).document.nesting ≤ options.maxDepth.toNat :=
  (nesting_parseDocument_le_iff source options).2 (row_of_accepted h).nesting_le

theorem parseDocument_of_accepted {limit : Int}
    (h : grammaticalDiagnostics source options.maxDepth = [])
    (h' : grammaticalDiagnostics source limit = []) :
    parseDocument source { options with maxDepth := limit } = parseDocument source options := by
  rcases Int.le_total options.maxDepth limit with hle | hle
  · exact parseDocument_deeper source options hle (by simp [h])
  · exact (parseDocument_deeper source { options with maxDepth := limit } hle (by simp [h'])).symm

/-- A text that is accepted with some limit is accepted with exactly those that its nesting
allows. -/
theorem accepted_iff_nesting_le (h : grammaticalDiagnostics source options.maxDepth = [])
    (limit : Int) : grammaticalDiagnostics source limit = [] ↔
      (parseDocument source options).document.nesting ≤ limit.toNat := by
  constructor
  · intro h'
    rw [← parseDocument_of_accepted h h']
    exact @nesting_le_of_accepted source { options with maxDepth := limit } h'
  · intro hle
    have row := (row_of_accepted h).relevel ((nesting_parseDocument_le_iff source options).1 hle)
    have ahead : (structural (scan source)).dropLast =
        (startOf source options.maxDepth).cursor.ahead := by
      rw [← upcoming_startOf source options.maxDepth, Cursor.upcoming, List.dropLast_concat]
    exact (start_accepts_iff source limit).2 ⟨_, ahead ▸ row⟩

end

/-- The limit of nesting cuts off, and nothing else depends on it: where no diagnostic finds the
nesting too deep, any higher limit gives the same document and diagnostics; and where the parser
finds nothing wrong with some limit, it finds nothing wrong with exactly those limits that the
document's nesting does not exceed. -/
theorem depth_limit_cuts_off (source : Text) (options : ParserOptions) :
    (∀ limit, options.maxDepth ≤ limit →
      (∀ x ∈ (parseDocument source options).diagnostics, ¬ x.FindsTooDeep) →
        parseDocument source { options with maxDepth := limit } = parseDocument source options) ∧
    ((parseDocument source options).diagnostics.filter (·.kind == .grammatical) = [] →
      ∀ limit, (parseDocument source { options with maxDepth := limit }).diagnostics.filter
          (·.kind == .grammatical) = [] ↔
        ((parseDocument source options).document.nesting : Int) ≤ max limit 0) := by
  refine ⟨fun limit hlimit shallow => parseDocument_deeper source options hlimit ?_, ?_⟩
  · intro x hx
    refine shallow x ?_
    rw [diagnostics_eq_inOrder]
    exact Diagnostic.mem_inOrder.2 (List.mem_append_right _ hx)
  · intro accepted limit
    rw [(filter_diagnostics source options).2] at accepted
    rw [(filter_diagnostics source { options with maxDepth := limit }).2,
      accepted_iff_nesting_le accepted, ← Int.ofNat_le, Int.toNat_eq_max]

/-- A text that nests two levels deep is read alike with two levels and with more, and is refused
with fewer. -/
theorem two_levels_suffice :
    let text := "[a [b]] :: {};".toList
    let parsed := parseDocument text ⟨2, true⟩
    (∀ x ∈ parsed.diagnostics, ¬ x.FindsTooDeep) ∧ parseDocument text ⟨64, true⟩ = parsed ∧
      parsed.diagnostics.filter (·.kind == .grammatical) = [] ∧
      (parseDocument text ⟨1, true⟩).diagnostics.filter (·.kind == .grammatical) ≠ [] := by
  intro text parsed
  have none : parsed.diagnostics = [] := by decide +kernel
  have accepted : parsed.diagnostics.filter (·.kind == .grammatical) = [] := by rw [none]; rfl
  have shallow : ∀ x ∈ parsed.diagnostics, ¬ x.FindsTooDeep := by simp [none]
  have nesting : parsed.document.nesting = 2 := by decide +kernel
  obtain ⟨deeper, limits⟩ := depth_limit_cuts_off text ⟨2, true⟩
  refine ⟨shallow, deeper 64 (by decide) shallow, accepted, fun refused => ?_⟩
  have := (limits accepted 1).1 refused
  rw [nesting] at this
  exact absurd this (by decide)

end RelationNotation
