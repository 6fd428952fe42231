import RelationNotation.Proofs.Canonical.RoundTrip
import RelationNotation.Proofs.Diagnostic.Completeness
import RelationNotation.Proofs.Parse.Level

/-!
Layout. The parser reads the structural tokens of a text, and of their places only whether a name or
a sign touches what it may be attached to. So two texts with the same structural tokens, laid out
alike in that one respect, are read as the same document with the same mistakes in it, positions,
trivia and skipped text aside: `parseDocument_relaid`.
-/

namespace RelationNotation

open Token

namespace Token

/-- Two tokens that stand at one index of two lists. -/
def At (ts us : List Token) (t u : Token) : Prop := ∃ i : Nat, ts[i]? = some t ∧ us[i]? = some u

/-- The same tokens in another layout: kinds and texts are the same, and each token touches the next
here and there alike, where it might be attached to it. -/
structure Relaid (ts us : List Token) : Prop where
  forms : us.map form = ts.map form
  touches : ∀ i (h : i < ts.length - 1) (h' : i < us.length - 1),
    ts[i].kind.Attaches ts[i + 1].kind → us[i].touches us[i + 1] = ts[i].touches ts[i + 1]

instance (ts us : List Token) : Decidable (Relaid ts us) :=
  decidable_of_iff (us.map form = ts.map form ∧
      ∀ i (h : i < ts.length - 1) (h' : i < us.length - 1),
        ts[i].kind.Attaches ts[i + 1].kind → us[i].touches us[i + 1] = ts[i].touches ts[i + 1])
    ⟨fun h => ⟨h.1, h.2⟩, fun h => ⟨h.forms, h.touches⟩⟩

variable {ts us : List Token}

theorem Relaid.length_eq (h : Relaid ts us) : us.length = ts.length := by
  simpa using congrArg List.length h.forms

theorem Relaid.form_eq (h : Relaid ts us) {t u : Token} (same : At ts us t u) :
    u.form = t.form := by
  obtain ⟨i, ht, hu⟩ := same
  have forms := congrArg (·[i]?) h.forms
  simpa [ht, hu] using forms

theorem Relaid.forall₂ (h : Relaid ts us) : List.Forall₂ (At ts us) ts us := by
  refine List.forall₂_iff_get.2 ⟨h.length_eq.symm, fun i hi hi' => ⟨i, ?_, ?_⟩⟩ <;> simp

end Token

/-! ### Tokens that touch -/

/-- Among tokens of a text none but the next can touch a token. -/
theorem eq_succ_of_touches {source : Text} {ts : List Token} (hts : ts.Sublist (scan source))
    {i j : Nat} {t u : Token} (ht : ts[i]? = some t) (hu : ts[j]? = some u)
    (hk : t.kind ≠ .endOfInput) (h : t.touches u) : j = i + 1 := by
  obtain ⟨hi, rfl⟩ := List.getElem?_eq_some_iff.1 ht
  obtain ⟨hj, rfl⟩ := List.getElem?_eq_some_iff.1 hu
  have starts := List.pairwise_iff_getElem.1 ((scanFrom_starts {} .start source).sublist hts)
  have sorted := List.pairwise_iff_getElem.1 ((scanFrom_sorted {} .start source).sublist hts)
  have proper := scanFrom_proper {} .start source _ (hts.subset (List.getElem_mem hi)) hk
  rw [touches, beq_iff_eq] at h
  -- A token before the next starts too early, one behind it starts where the next has started.
  rcases Nat.lt_trichotomy j (i + 1) with hlt | heq | hgt
  · rcases Nat.lt_succ_iff_lt_or_eq.1 hlt with hlt | rfl
    · have := starts j i hj hi hlt
      omega
    · omega
  · exact heq
  · have hnext := sorted i (i + 1) hi (by omega) (Nat.lt_succ_self i)
    have := starts (i + 1) j (by omega) hj hgt
    omega

/-- The parser cannot tell the same tokens of two texts apart. -/
theorem unseen_at {a b : Text} {ts us : List Token} (hts : ts.Sublist (scan a))
    (hus : us.Sublist (scan b)) (h : Relaid ts us) : Unseen (At ts us) where
  kind ht := congrArg Prod.fst (h.form_eq ht)
  text ht := congrArg Prod.snd (h.form_eq ht)
  touches := by
    rintro t t' u u' ⟨i, ht, ht'⟩ ⟨j, hu, hu'⟩ attaches
    have kind : t'.kind = t.kind := congrArg Prod.fst (h.form_eq ⟨i, ht, ht'⟩)
    have hne := attaches.ne_endOfInput.1
    by_cases hj : j = i + 1
    · subst hj
      obtain ⟨hi, rfl⟩ := List.getElem?_eq_some_iff.1 ht
      obtain ⟨hj, rfl⟩ := List.getElem?_eq_some_iff.1 hu
      obtain ⟨hi', rfl⟩ := List.getElem?_eq_some_iff.1 ht'
      obtain ⟨hj', rfl⟩ := List.getElem?_eq_some_iff.1 hu'
      exact h.touches i (by omega) (by omega) attaches
    · have apart : ¬ t.touches u := fun htouch => hj (eq_succ_of_touches hts ht hu hne htouch)
      have apart' : ¬ t'.touches u' := fun htouch =>
        hj (eq_succ_of_touches hus ht' hu' (kind ▸ hne) htouch)
      rw [Bool.not_eq_true] at apart apart'
      rw [apart, apart']

/-! ### Documents -/

/-- Sessions on two texts with alike tokens start level. -/
theorem level_startOf {a b : Text} {T : Token → Token → Prop}
    (h : List.Forall₂ T (structural (scan a)) (structural (scan b))) (limit : Int) :
    Session.Level T (startOf a limit) (startOf b limit) := by
  rw [← upcoming_startOf a limit, ← upcoming_startOf b limit] at h
  obtain ⟨us, vs, hsplit, ahead, last⟩ := forall₂_append_cases h
  cases last with
  | cons stop none =>
    cases none
    obtain ⟨rfl, hstop⟩ := List.append_inj' hsplit rfl
    obtain rfl := List.singleton_injective hstop
    exact ⟨⟨ahead, stop, (reads_startOf a limit).endsOnce.ended⟩, rfl, .nil⟩

/-- Layout makes no difference to a document and to what is wrong with it. -/
theorem parseDocument_relaid {a b : Text}
    (h : Relaid (structural (scan a)) (structural (scan b))) (limit : Int) (keep keep' : Bool) :
    let parsed := parseDocument a ⟨limit, keep⟩
    let parsed' := parseDocument b ⟨limit, keep'⟩
    parsed'.document.bare.withoutSkipped = parsed.document.bare.withoutSkipped ∧
      List.Forall₂ (Diagnostic.SameOf (At (structural (scan a)) (structural (scan b))))
        (parsed.diagnostics.filter (·.kind == .grammatical))
        (parsed'.diagnostics.filter (·.kind == .grammatical)) := by
  intro parsed parsed'
  have unseen := unseen_at (structural_sublist _) (structural_sublist _) h
  obtain ⟨same, final⟩ := (level_startOf h.forall₂ limit).statements unseen
  constructor
  · have read (xs : List Statement) :
        (Document.mk default (xs.map (·.mapOrigins .bare ()))).withoutSkipped =
          ⟨default, (xs.map Statement.withoutSkipped).map (Statement.mapOrigins .bare ())⟩ := by
      simp [Document.withoutSkipped, Statement.withoutSkipped_mapOrigins]
    rw [document_bare, document_bare, read, read,
      map_bare (List.forall₂_map_left_iff.2 (List.forall₂_map_right_iff.2 same))]
  · rw [(filter_diagnostics a _).2, (filter_diagnostics b _).2]
    exact final.diagnostics

/-- A name that touches its equals sign and a name that does not, in front of a mistake. -/
theorem parseDocument_relaid_prefix :
    let a := "[x=y = z]::;".toList
    let b := " [ x=\ty =z ]\n:: // A mistake.\n;".toList
    Relaid (structural (scan a)) (structural (scan b)) ∧
      (parseDocument b).document.bare.withoutSkipped =
        (parseDocument a).document.bare.withoutSkipped ∧
      List.Forall₂ (Diagnostic.SameOf (At (structural (scan a)) (structural (scan b))))
        ((parseDocument a).diagnostics.filter (·.kind == .grammatical))
        ((parseDocument b).diagnostics.filter (·.kind == .grammatical)) := by
  intro a b
  have relaid : Relaid (structural (scan a)) (structural (scan b)) := by decide +kernel
  exact ⟨relaid, parseDocument_relaid relaid 64 true true⟩

end RelationNotation
