import RelationNotation.Proofs.Diagnostic.Completeness
import RelationNotation.Proofs.Grammar.Span
import RelationNotation.Proofs.Source.Place
import RelationNotation.Proofs.Tree.Owner

/-!
Spans of a document. In the tree of any text each node lies around its children, which are not empty
and stand in the order of the text; every position in the tree and in the diagnostics is that of a
place in the text: `spans_parseDocument`.
-/

namespace RelationNotation

open Token

/-- How a node lies in a text. -/
structure Node.LiesIn (source : Text) (n : Node) : Prop where
  orderly : n.Orderly
  filled : ∀ c ∈ n.children, c.2.span.start.offset < c.2.span.stop.offset
  placed : n.span.PlacedIn source
  trivia : ∀ item ∈ n.trivia, item.span.PlacedIn source

theorem Node.filled_iff {n : Node} :
    (∀ c ∈ n.children, c.2.span.start.offset < c.2.span.stop.offset) ↔
      ∀ s ∈ n.childSpans, s.start.offset < s.stop.offset := by
  rw [childSpans, List.forall_mem_map]

/-- A pass that leaves spans as they are leaves nodes where they lie, if the trivia lie there. -/
theorem Node.LiesIn.mapOrigins {source : Text} {n : Node} (h : n.LiesIn source) {σ : Type}
    {p : OriginMap σ} (hp : p.SpansBy id) (s : σ)
    (trivia : ∀ item ∈ (n.mapOrigins p s).trivia, item.span.PlacedIn source) :
    (n.mapOrigins p s).LiesIn source := by
  have hspan : (n.mapOrigins p s).span = n.span := span_mapOrigins p hp s n
  have hchildren : (n.mapOrigins p s).childSpans = n.childSpans := by
    rw [childSpans_mapOrigins p hp, List.map_id]
  refine ⟨?_, ?_, hspan ▸ h.placed, trivia⟩
  · rw [orderly_iff, hspan, hchildren, ← orderly_iff]
    exact h.orderly
  · rw [filled_iff, hchildren, ← filled_iff]
    exact h.filled

section
variable (source : Text) (limit : Int)

theorem standApart_startOf : StandApart (startOf source limit).cursor.ahead where
  filled t ht := by
    have hkind := (reads_startOf source limit).endsOnce.ahead t ht
    exact scanFrom_proper {} .start source t ((ahead_sublist_scan source limit).subset ht) hkind
  apart := (inSequence_startOf source limit).apart

/-- Statements, mistakes among them, stand over the tokens they account for. -/
theorem Session.Account.over {levels : Nat} {stop : Token} {ts : List Token} {xs : List Statement}
    {faults : List SyntaxFault} (h : Account source levels stop ts xs faults)
    (apart : StandApart ts) : InParts (fun x us => Node.Over x.toNode us) xs ts := by
  induction h with
  | nil => exact .nil _ _
  | @statement ts us x xs faults spelled further ih =>
    have first := apart.sublist (List.sublist_append_left ts us)
    have rest := apart.sublist (List.sublist_append_right ts us)
    exact .cons (spelled.over first) (ih rest) (List.Sublist.refl _)
  | @mistake ts us fault xs faults nonempty found further ih =>
    have rest := apart.sublist (List.sublist_append_right ts us)
    exact .cons (Node.over_leaf rfl nonempty rfl) (ih rest) (List.Sublist.refl _)

/-- The document read, before trivia is attached. -/
def readDocument : Document := (parseTokens source (structural (scan source)) limit).1

theorem readDocument_eq : readDocument source limit =
    ⟨⟨⟨.start, Position.start.after source⟩, []⟩, (startOf source limit).statements.1⟩ := by
  have reads := reads_startOf source limit
  obtain ⟨faults, -, -, hahead, hstop⟩ := Session.account_statements reads.endsOnce rfl
  have hcurrent : (startOf source limit).statements.2.cursor.current =
      .endOfInput (Position.start.after source) := by
    rw [Cursor.current, hahead, hstop, (upcoming_split reads.upcoming).1]
    rfl
  have hwhole : Session.wholeSpan source (.endOfInput (Position.start.after source)) =
      ⟨.start, Position.start.after source⟩ := by
    rw [Session.wholeSpan, ← offset_start_after source]
    rfl
  rw [← hwhole, ← hcurrent]
  rfl

theorem liesIn_of_standsOver {source : Text} {ts : List Token} {n : Node} (h : n.StandsOver ts)
    (hts : ts.Sublist (scan source)) : n.LiesIn source := by
  obtain ⟨us, hus, hsub, origin⟩ := h.origin
  have placed : ∀ t ∈ us, t.span.PlacedIn source := fun t ht =>
    placed_scan source t (hts.subset (hsub.subset ht))
  obtain ⟨⟨t, ht, hstart⟩, u, hu, hstop⟩ := originOver_ends hus
  refine ⟨h.orderly, h.filled, ?_, ?_⟩
  · rw [Node.span, origin]
    exact ⟨hstart ▸ (placed t ht).1, hstop ▸ (placed u hu).2⟩
  · rw [Node.trivia, origin]
    exact fun item hitem => absurd hitem (List.not_mem_nil)

theorem readDocument_row : InParts Node.Over
    ((Node.document (readDocument source limit)).children.map (·.2))
    (startOf source limit).cursor.ahead := by
  have ends := (reads_startOf source limit).endsOnce
  obtain ⟨faults, account, -⟩ := Session.account_statements ends rfl
  rw [readDocument_eq, Node.children, List.map_map]
  exact (account.over source (standApart_startOf source limit)).map fun _ _ h => h

/-- Every node read lies in the text. -/
theorem readDocument_liesIn :
    ∀ n ∈ (Node.document (readDocument source limit)).walk, n.LiesIn source := by
  have apart := standApart_startOf source limit
  obtain ⟨parts, hparts, hwithin⟩ := readDocument_row source limit
  obtain ⟨count, hover⟩ := List.forall₂_iff_zip.1 hparts
  have child {c : String × Node} (hc : c ∈ (Node.document (readDocument source limit)).children) :
      ∃ us, c.2.Over us ∧ us.Sublist (startOf source limit).cursor.ahead := by
    obtain ⟨us, hus, hsub⟩ := Node.exists_part count hwithin hc
    exact ⟨us, hover hus, hsub⟩
  have below {c : String × Node} (hc : c ∈ (Node.document (readDocument source limit)).children) :
      ∀ m ∈ c.2.walk, m.LiesIn source := by
    obtain ⟨us, hus, hsub⟩ := child hc
    intro m hm
    have stands := (hus.standsOver (apart.sublist hsub) m hm).mono hsub
    exact liesIn_of_standsOver stands (ahead_sublist_scan source limit)
  have hspan : (Node.document (readDocument source limit)).span =
      ⟨.start, Position.start.after source⟩ := by
    rw [readDocument_eq]
    rfl
  have hstop := offset_start_after source
  intro n hn
  rcases Node.mem_walk_cases hn with rfl | ⟨c, hc, hm⟩
  · refine ⟨⟨?_, fun c hc => ?_, ?_⟩, fun c hc => ?_, ?_, ?_⟩
    · rw [hspan, hstop]
      exact Int.natCast_nonneg _
    · obtain ⟨first, last⟩ := (below hc c.2 c.2.mem_walk_self).placed
      rw [hspan, Span.contains_iff, hstop]
      exact ⟨first.within.1, last.within.2⟩
    · exact List.pairwise_map.1 (Node.pairwise_of_parts hparts (apart.sublist hwithin))
    · obtain ⟨us, hus, hsub⟩ := child hc
      rw [hus.span_eq]
      exact (apart.sublist hsub).start_lt_stop hus.ne_nil
    · rw [hspan]
      have last := Position.placed_after source []
      rw [List.append_nil] at last
      exact ⟨Position.placed_after [] source, last⟩
    · rw [readDocument_eq]
      exact fun item hitem => absurd hitem List.not_mem_nil
  · exact below hc n hm

/-- Attaching trivia of the text leaves nodes where they lie. -/
theorem attach_liesIn {source : Text} {d : Document} (h : ∀ n ∈ (Node.document d).walk, n.LiesIn source) :
    ∀ n ∈ (Node.document (d.attach ((trivia (scan source)).map toTrivia))).walk,
      n.LiesIn source := by
  have proper : ∀ item ∈ (trivia (scan source)).map toTrivia,
      item.span.start.offset < item.span.stop.offset :=
    List.forall_mem_map.2 fun t ht => (proper_trivia ht).2
  have placed : ∀ item ∈ (trivia (scan source)).map toTrivia, item.span.PlacedIn source :=
    List.forall_mem_map.2 fun t ht => placed_scan source t (proper_trivia ht).1
  intro n' hn'
  obtain ⟨path, hpath⟩ := Node.mem_walk_iff.1 hn'
  rw [Document.attach_eq] at hpath
  obtain ⟨s, hs⟩ := Node.at?_mapOrigins Trivia.attaching ((trivia (scan source)).map toTrivia)
    (.document d) path
  obtain ⟨n, hn, rfl⟩ := Option.map_eq_some_iff.1 (hs.symm.trans hpath)
  have lies := h n (Node.mem_walk_iff.2 ⟨path, hn⟩)
  obtain ⟨n'', hn'', trivia⟩ := Node.trivia_attaching (fun m hm => (h m hm).orderly) proper hn
  obtain rfl := Option.some.inj (hpath.symm.trans hn'')
  refine lies.mapOrigins (fun _ _ _ => rfl) s fun item hitem => ?_
  rw [trivia] at hitem
  rcases List.mem_append.1 hitem with hold | hnew
  · exact lies.trivia item hold
  · exact placed item (List.mem_of_mem_filter hnew)

theorem parseDocument_document (options : ParserOptions) :
    (parseDocument source options).document =
      if options.attachTrivia then
        (readDocument source options.maxDepth).attach ((trivia (scan source)).map toTrivia)
      else readDocument source options.maxDepth := rfl

/-- Diagnostics are about places in the text. -/
theorem placed_diagnostics (options : ParserOptions) :
    ∀ d ∈ (parseDocument source options).diagnostics, d.span.PlacedIn source := by
  intro d hd
  rw [diagnostics_eq_inOrder, Diagnostic.mem_inOrder, List.mem_append] at hd
  rcases hd with hd | hd
  · obtain ⟨-, t, ht, -, hspan⟩ := mem_lexicalDiagnostics source hd
    exact hspan ▸ placed_scan source t ht
  · obtain ⟨-, t, ht, hspan⟩ := mem_grammaticalDiagnostics source options.maxDepth hd
    exact hspan ▸ placed_scan source t ((structuralIn_sublist _ _).subset ht)

end

/-- The tree of a text is laid out as the text is. Every node lies around its children, which are
not empty and stand in order; the root lies around the whole text; and every position, those of
trivia and diagnostics too, is that of a place in the text. -/
theorem spans_parseDocument (source : Text) (options : ParserOptions) :
    let parsed := parseDocument source options
    let root := Node.document parsed.document
    root.span.start.offset = 0 ∧ root.span.stop.offset = source.length ∧
      (∀ n ∈ root.walk, n.LiesIn source) ∧
      ∀ d ∈ parsed.diagnostics, d.span.PlacedIn source := by
  intro parsed root
  have whole : root.span = ⟨.start, Position.start.after source⟩ := by
    rw [Node.span, Node.origin, parseDocument_document]
    split
    · rw [Document.attach_eq]
      exact congrArg (·.origin.span) (readDocument_eq source options.maxDepth)
    · rw [readDocument_eq]
  refine ⟨by rw [whole]; rfl, by rw [whole]; exact offset_start_after source, ?_,
    placed_diagnostics source options⟩
  have lies := readDocument_liesIn source options.maxDepth
  change ∀ n ∈ (Node.document (parseDocument source options).document).walk, _
  rw [parseDocument_document]
  split
  · exact attach_liesIn lies
  · exact lies

end RelationNotation
