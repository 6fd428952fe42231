import RelationNotation.Proofs.Diagnostic.Order
import RelationNotation.Proofs.Locality.Attach
import RelationNotation.Proofs.Locality.Seam
import RelationNotation.Proofs.Parse.Document

/-!
Documents joined by a newline. A text that ends between statements keeps its statements and its
diagnostics whatever text follows on the next line, and so does the text that follows: mistakes in
the one never change how the other is read.
-/

namespace RelationNotation

open Token Cursor

/-! ### Where a text ends between statements -/

theorem scanFrom_semicolon (m : ScanMode) (p : Position) : scanFrom m p [';'] =
    [(⟨.semicolon, [';'], none⟩ : Lexeme).toToken p, .endOfInput (p.after [';'])] := by
  have hl : lexeme m.awaited (p.offset == 0) ';' [] = ⟨.semicolon, [';'], none⟩ := by
    generalize m.awaited = awaited, (p.offset == 0) = first
    cases awaited <;> cases first <;> decide
  rw [scanFrom]
  simp only [hl]
  exact congrArg (_ :: ·) (by rw [List.length_singleton, List.drop_one, List.tail_cons, scanFrom])

/-- A text that ends within a string or a comment takes in a semicolon on the next line. -/
theorem length_le_of_staysOpen {a : Text} (h : StaysOpen {} .start a) (limit : Int) :
    (startOf (a ++ ['\n', ';']) limit).statements.1.length ≤
      (startOf a limit).statements.1.length := by
  obtain ⟨ts, e, e', alone, joined, he, he'⟩ := h
  have out {v : Text} {t : Token} {p : Position} (hv : scan v = ts ++ [t, .endOfInput p])
      (ht : t.kind = .error) : structural (scan v) = structuralIn {} ts ++ [.endOfInput p] := by
    rw [structural_eq, hv, structuralIn_append, structuralIn, ht]
    rfl
  have longer := out joined he'
  rw [← List.append_nil (structuralIn {} ts)] at longer
  have follows := follows_startOf (out alone he) longer limit
  have ends (source : Text) := (reads_startOf source limit).endsOnce
  rcases follows.closes_or_length_le (Nat.zero_le 1) (ends _) (ends _) with closes | hle
  · obtain ⟨r, hr, hnil, -, -, -, hrun⟩ := follows.statements (ends _) (ends _) (.inl closes)
    have hend : r.cursor.ahead = [] := by
      rw [hr.ahead, hnil]
      rfl
    rw [hrun, Session.statements_of_nil hend, List.append_nil, List.length_map]
  · exact hle

/-- A text behind which a semicolon makes a statement of its own ends between statements. -/
theorem seam_of_length {a b : Text} {options : ParserOptions}
    (more : (parseDocument (a ++ ['\n', ';']) options).document.statements.length =
      (parseDocument a options).document.statements.length + 1)
    (hb : b.head? ≠ some byteOrderMark) :
    (startOf a options.maxDepth).Closes ∧
      ∃ ts blanks w before us, Seam a b ts blanks w before us := by
  rw [length_statements, length_statements] at more
  rcases joins_or_staysOpen {} .start a with ⟨ts, blanks, joins⟩ | staysOpen
  · have hfirst := structural_of_blanks joins.alone joins.blank
    obtain ⟨w, hw, -, -, joined⟩ := joins.joined [';']
    obtain ⟨t, u, hlonger⟩ : ∃ t u, structural (scan (a ++ ['\n', ';'])) =
        structuralIn {} ts ++ [t] ++ [u] := by
      rw [List.takeWhile_cons_of_neg (by decide), List.dropWhile_cons_of_neg (by decide),
        scanFrom_semicolon] at joined
      rw [structural_eq, scan, joined, structuralIn_append, structuralIn, hw.1]
      exact ⟨_, _, (List.append_assoc _ [_] [_]).symm⟩
    have follows := follows_startOf hfirst hlonger options.maxDepth
    have ends (source : Text) := (reads_startOf source options.maxDepth).endsOnce
    have closes := (follows.closes_or_length_le (Nat.le_refl 1) (ends _) (ends _)).resolve_right
      (by omega)
    refine ⟨closes, ts, blanks, seam_of_joins joins ?_ hb⟩
    have fit := (upcoming_split (reads_startOf a options.maxDepth).upcoming).2
    have clean := closes.clean (ends a) fit
    rwa [(startOf_split hfirst options.maxDepth).1, afterAll_structuralIn] at clean
  · have := length_le_of_staysOpen staysOpen options.maxDepth
    omega

/-! ### Trivia at a seam -/

theorem itemsWithin_append (ts us : List Token) (s : Span) :
    itemsWithin (ts ++ us) s = itemsWithin ts s ++ itemsWithin us s := by
  rw [itemsWithin, List.map_append, List.filter_append]
  rfl

theorem itemsWithin_outside {ts : List Token} {s : Span}
    (h : ∀ t ∈ ts, t.span.start.offset < s.start.offset ∨ s.stop.offset < t.span.stop.offset) :
    itemsWithin ts s = [] := by
  rw [itemsWithin, List.filter_eq_nil_iff, List.forall_mem_map]
  intro t ht hcontains
  obtain ⟨hstart, hstop⟩ := Span.contains_iff.1 hcontains
  have := h t ht
  simp only [toTrivia] at hstart hstop
  omega

theorem itemsWithin_displace (d : Displacement) (ts : List Token) (s : Span) :
    itemsWithin (ts.map (Token.displace d)) (s.displace d) =
      (itemsWithin ts s).map (Trivia.displace d) := by
  have moved : toTrivia ∘ Token.displace d = Trivia.displace d ∘ toTrivia := rfl
  have within (x : Trivia) : (s.displace d).contains (x.displace d).span = s.contains x.span :=
    Span.contains_displace d s x.span
  rw [itemsWithin, itemsWithin, List.map_map, moved, ← List.map_map, List.filter_map]
  simp only [Function.comp_def, within]

theorem Statement.origin_displace (d : Displacement) (x : Statement) :
    (x.displace d).origin.span = x.origin.span.displace d := by
  cases x <;> rfl

namespace Seam
variable {a b : Text} {ts blanks before us : List Token} {w : Token}

theorem within_first (h : Seam a b ts blanks w before us) {t : Token} (ht : t ∈ ts) :
    t.span.start.offset ≤ t.span.stop.offset ∧ t.span.stop.offset ≤ a.length := by
  have hscan : t ∈ scan a := by
    rw [h.first, List.append_assoc]
    exact List.mem_append_left _ ht
  obtain ⟨-, hle, hstop⟩ := scanFrom_within _ _ _ t hscan
  rw [offset_start_after] at hstop
  exact ⟨hle, hstop⟩

theorem within_second (h : Seam a b ts blanks w before us) {t : Token} (ht : t ∈ us) :
    0 ≤ t.span.start.offset ∧ t.span.start.offset ≤ t.span.stop.offset := by
  have hscan : t ∈ scan b := by
    rw [h.second]
    exact List.mem_append_right _ ht
  obtain ⟨hstart, hle, -⟩ := scanFrom_within _ _ _ t hscan
  exact ⟨hstart, hle⟩

/-- To a statement of the first text goes the trivia that went to it before. -/
theorem itemsWithin_first (h : Seam a b ts blanks w before us) {s : Span}
    (hs : ∃ t ∈ structuralIn {} ts, s.stop = t.span.stop) :
    itemsWithin (trivia (scan (a ++ '\n' :: b))) s = itemsWithin (trivia (scan a)) s := by
  obtain ⟨t, ht, hstop⟩ := hs
  have htext := (h.within_first ((structuralIn_sublist _ _).subset ht)).2
  have behind : itemsWithin (w :: (triviaIn {} us).map (Token.displace (.behind a))) s = [] := by
    refine itemsWithin_outside fun u hu => .inr ?_
    rw [hstop]
    rcases List.mem_cons.1 hu with rfl | hu
    · have := h.stop
      omega
    · obtain ⟨v, hv, rfl⟩ := List.mem_map.1 hu
      obtain ⟨hpos, hle⟩ := h.within_second (mem_triviaIn hv).1
      simp only [Token.displace, Span.displace, Position.displace, Displacement.behind]
      omega
  have blank : itemsWithin blanks s = [] := by
    refine itemsWithin_outside fun u hu => .inr ?_
    have hu' : u ∈ trivia (scan a) := by
      rw [h.trivia_first]
      exact List.mem_append_right _ hu
    have sorted := scanFrom_sorted {} .start a
    rw [show scanFrom {} .start a = _ from h.first, List.append_assoc] at sorted
    have := (List.pairwise_append.1 sorted).2.2 t ((structuralIn_sublist _ _).subset ht) u
      (List.mem_append_left _ hu)
    have := (proper_trivia hu').2
    rw [hstop]
    omega
  rw [h.trivia_whole, h.trivia_first, itemsWithin_append, itemsWithin_append, behind, blank]

/-- To a statement of the second text goes the trivia that went to it before, moved. -/
theorem itemsWithin_second (h : Seam a b ts blanks w before us) {s : Span}
    (hs : ∃ t ∈ structuralIn {} us, s.start = t.span.start) :
    itemsWithin (trivia (scan (a ++ '\n' :: b))) (s.displace (.behind a)) =
      (itemsWithin (trivia (scan b)) s).map (Trivia.displace (.behind a)) := by
  obtain ⟨t, ht, hstart⟩ := hs
  have hpos := (h.within_second ((structuralIn_sublist _ _).subset ht)).1
  have ahead : itemsWithin (triviaIn {} ts ++ [w]) (s.displace (.behind a)) = [] := by
    refine itemsWithin_outside fun u hu => .inl ?_
    simp only [Span.displace, Position.displace, Displacement.behind, hstart]
    rcases List.mem_append.1 hu with hu | hu
    · obtain ⟨hle, hstop⟩ := h.within_first (mem_triviaIn hu).1
      omega
    · rw [List.mem_singleton.1 hu]
      have := h.start
      omega
  have blank : itemsWithin before s = [] := by
    refine itemsWithin_outside fun u hu => .inl ?_
    have hu' : u ∈ trivia (scan b) := by
      rw [h.trivia_second]
      exact List.mem_append_left _ hu
    have sorted := scanFrom_sorted {} .start b
    rw [show scanFrom {} .start b = _ from h.second] at sorted
    have := (List.pairwise_append.1 sorted).2.2 u hu t ((structuralIn_sublist _ _).subset ht)
    have := (proper_trivia hu').2
    rw [hstart]
    omega
  rw [h.trivia_whole, h.trivia_second, List.append_cons, itemsWithin_append, ahead,
    itemsWithin_append, blank, itemsWithin_displace]
  rfl

end Seam

/-! ### Diagnostics at a seam -/

theorem inOrder_displace (d : Displacement) (xs : List Diagnostic) :
    Diagnostic.inOrder (xs.map (Diagnostic.displace d)) =
      (Diagnostic.inOrder xs).map (Diagnostic.displace d) := by
  refine (List.map_mergeSort fun x _ y _ => ?_).symm
  rw [Bool.eq_iff_iff, Diagnostic.isBefore_iff, Diagnostic.isBefore_iff]
  simp only [Diagnostic.displace, Span.displace, Position.displace]
  omega

theorem lexicalDiagnostics_within {source : Text} {x : Diagnostic}
    (hx : x ∈ lexicalDiagnostics source) :
    0 ≤ x.span.start.offset ∧ x.span.start.offset ≤ source.length := by
  obtain ⟨t, ht, hfault⟩ := List.mem_filterMap.1 hx
  obtain ⟨f, -, rfl⟩ := Option.map_eq_some_iff.1 hfault
  obtain ⟨hstart, hle, hstop⟩ := scanFrom_within _ _ _ t (proper_trivia ht).1
  rw [offset_start_after] at hstop
  exact ⟨hstart, Int.le_trans hle hstop⟩

theorem Seam.lexicalDiagnostics_whole {a b : Text} {ts blanks before us : List Token} {w : Token}
    (h : Seam a b ts blanks w before us) : lexicalDiagnostics (a ++ '\n' :: b) =
      lexicalDiagnostics a ++ (lexicalDiagnostics b).map (Diagnostic.displace (.behind a)) := by
  have none : ∀ t ∈ w :: (blanks ++ before), t.toDiagnostic? = none := by
    intro t ht
    rw [toDiagnostic?, (h.blank t ht).2]
    rfl
  have moved (d : Displacement) : toDiagnostic? ∘ Token.displace d =
      fun t => (toDiagnostic? t).map (Diagnostic.displace d) := by
    funext t
    rw [Function.comp_apply, toDiagnostic?, toDiagnostic?, Option.map_map]
    rfl
  have hw := none w List.mem_cons_self
  have hblanks := List.filterMap_eq_nil_iff.2 fun t ht =>
    none t (List.mem_cons_of_mem _ (List.mem_append_left before ht))
  have hbefore := List.filterMap_eq_nil_iff.2 fun t ht =>
    none t (List.mem_cons_of_mem _ (List.mem_append_right blanks ht))
  rw [lexicalDiagnostics, lexicalDiagnostics, lexicalDiagnostics, h.trivia_whole, h.trivia_first,
    h.trivia_second, List.filterMap_append, List.filterMap_append, List.filterMap_append, hblanks,
    hbefore, List.filterMap_cons_none hw, List.filterMap_map, moved, List.append_nil,
    List.nil_append, List.map_filterMap]

/-- A text that ends between statements, which is where a semicolon on the next line makes a
statement of its own, and a text on the lines behind it are each read as if by itself. -/
theorem parseDocument_joined {a b : Text} {options : ParserOptions}
    (more : (parseDocument (a ++ ['\n', ';']) options).document.statements.length =
      (parseDocument a options).document.statements.length + 1)
    (hb : b.head? ≠ some byteOrderMark) :
    (parseDocument (a ++ '\n' :: b) options).document.statements =
        (parseDocument a options).document.statements ++
          (parseDocument b options).document.statements.map (Statement.displace (.behind a)) ∧
      (parseDocument (a ++ '\n' :: b) options).diagnostics =
        (parseDocument a options).diagnostics ++
          (parseDocument b options).diagnostics.map (Diagnostic.displace (.behind a)) := by
  obtain ⟨closes, ts, blanks, w, before, us, seam⟩ := seam_of_length more hb
  obtain ⟨statements, diagnostics, early, late⟩ := seam.statements closes
  constructor
  · rw [statements_parseDocument, statements_parseDocument, statements_parseDocument, statements]
    split
    · rw [List.map_append, List.map_map, List.map_map]
      refine congrArg₂ (· ++ ·) (List.map_congr_left fun x hx => ?_)
        (List.map_congr_left fun x hx => ?_)
      · obtain ⟨-, t, ht, hstop⟩ := (covers_startOf a _).ends hx
        rw [(startOf_split seam.structural_first _).1] at ht
        rw [seam.itemsWithin_first ⟨t, ht, hstop⟩]
      · obtain ⟨⟨t, ht, hstart⟩, -⟩ := (covers_startOf b _).ends hx
        have ht' := List.mem_append_left [(startOf b options.maxDepth).cursor.stop] ht
        rw [show _ ++ _ = structural (scan b) from upcoming_startOf b _,
          seam.structural_second] at ht'
        rw [Function.comp_apply, Statement.origin_displace,
          seam.itemsWithin_second ⟨t, ht', hstart⟩, Statement.attaching_displace]
        rfl
    · rfl
  · rw [diagnostics_parseDocument, diagnostics_parseDocument, diagnostics_parseDocument,
      diagnostics, seam.lexicalDiagnostics_whole, ← inOrder_displace, List.map_append]
    refine Diagnostic.inOrder_append_append (List.forall_mem_append.2 ⟨?_, early⟩)
      (List.forall_mem_append.2 ⟨?_, ?_⟩)
    · exact fun x hx => (lexicalDiagnostics_within hx).2
    · refine List.forall_mem_map.2 fun x hx => ?_
      have := (lexicalDiagnostics_within hx).1
      simp only [Diagnostic.displace, Span.displace, Position.displace, Displacement.behind]
      omega
    · refine List.forall_mem_map.2 fun x hx => ?_
      have := late x hx
      simp only [Diagnostic.displace, Span.displace, Position.displace, Displacement.behind]
      omega

/-- A first line with a stray character and a broken statement leaves the next line alone. -/
theorem parseDocument_joined_mistakes :
    (parseDocument ("$@; // odd".toList ++ ['\n', ';'])).document.statements.length =
        (parseDocument "$@; // odd".toList).document.statements.length + 1 ∧
      "[x]::[y];".toList.head? ≠ some byteOrderMark ∧
      (parseDocument ("$@; // odd".toList ++ '\n' :: "[x]::[y];".toList)).document.statements =
        (parseDocument "$@; // odd".toList).document.statements ++
          (parseDocument "[x]::[y];".toList).document.statements.map
            (Statement.displace (.behind "$@; // odd".toList)) ∧
      (parseDocument ("$@; // odd".toList ++ '\n' :: "[x]::[y];".toList)).diagnostics =
        (parseDocument "$@; // odd".toList).diagnostics ++
          (parseDocument "[x]::[y];".toList).diagnostics.map
            (Diagnostic.displace (.behind "$@; // odd".toList)) := by
  have more : (parseDocument ("$@; // odd".toList ++ ['\n', ';'])).document.statements.length =
      (parseDocument "$@; // odd".toList).document.statements.length + 1 := by
    decide +kernel
  have hb : "[x]::[y];".toList.head? ≠ some byteOrderMark := by decide +kernel
  exact ⟨more, hb, parseDocument_joined more hb⟩

end RelationNotation
