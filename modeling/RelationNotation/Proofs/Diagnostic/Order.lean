import Mathlib.Data.List.TakeWhile
import RelationNotation.Diagnostic.Basic

/-!
The order of diagnostics. Sorting puts each diagnostic behind those that must stand before it, so a
list of which one part starts before the other is sorted part by part: `inOrder_of_parts`. Where all
start in different places, the order is strict and what is sorted already is kept: `filter_inOrder`.
-/

namespace RelationNotation.Diagnostic

theorem isBefore_iff {d e : Diagnostic} : d.isBefore e ↔
    d.span.start.offset < e.span.start.offset ∨
      d.span.start.offset = e.span.start.offset ∧ d.span.stop.offset ≤ e.span.stop.offset := by
  simp [isBefore]

theorem isBefore_trans (d e f : Diagnostic) (h₁ : d.isBefore e) (h₂ : e.isBefore f) :
    d.isBefore f := by
  rw [isBefore_iff] at *
  omega

theorem isBefore_total (d e : Diagnostic) : d.isBefore e || e.isBefore d := by
  rw [Bool.or_eq_true, isBefore_iff, isBefore_iff]
  omega

theorem takeWhile_before {q : Diagnostic → Bool} (l : List Diagnostic) {r : List Diagnostic}
    (hr : ∀ e ∈ r, ¬ q e) :
    (l ++ r).takeWhile q = l.takeWhile q ∧ (l ++ r).dropWhile q = l.dropWhile q ++ r := by
  induction l with
  | nil =>
    cases r with
    | nil => exact ⟨rfl, rfl⟩
    | cons e r =>
      have he := hr e List.mem_cons_self
      exact ⟨List.takeWhile_cons_of_neg he, List.dropWhile_cons_of_neg he⟩
  | cons d l ih =>
    rw [List.cons_append]
    by_cases hd : q d
    · rw [List.takeWhile_cons_of_pos hd, List.takeWhile_cons_of_pos hd, ih.1,
        List.dropWhile_cons_of_pos hd, List.dropWhile_cons_of_pos hd, ih.2]
      exact ⟨rfl, rfl⟩
    · rw [List.takeWhile_cons_of_neg hd, List.takeWhile_cons_of_neg hd,
        List.dropWhile_cons_of_neg hd, List.dropWhile_cons_of_neg hd]
      exact ⟨rfl, rfl⟩

/-- A diagnostic goes in front of the first one that it may stand before. -/
theorem inOrder_cons (d : Diagnostic) (ds : List Diagnostic) :
    inOrder (d :: ds) = (inOrder ds).takeWhile (!d.isBefore ·) ++
      d :: (inOrder ds).dropWhile (!d.isBefore ·) := by
  obtain ⟨l, r, hcons, hsplit, hl⟩ := List.mergeSort_cons isBefore_trans isBefore_total d ds
  have sorted := List.pairwise_mergeSort isBefore_trans isBefore_total (d :: ds)
  rw [hcons] at sorted
  have hr : ∀ e ∈ r, ¬ !d.isBefore e := fun e he => by
    rw [(List.pairwise_cons.1 (List.pairwise_append.1 sorted).2.1).1 e he]
    simp
  obtain ⟨htake, hdrop⟩ := takeWhile_before l hr
  rw [inOrder, inOrder, hcons, hsplit, htake, hdrop, List.takeWhile_eq_self_iff.2 hl,
    List.dropWhile_eq_nil_iff.2 hl]
  rfl

theorem mem_inOrder {d : Diagnostic} {ds : List Diagnostic} : d ∈ inOrder ds ↔ d ∈ ds :=
  List.mem_mergeSort

/-- Where one part of some diagnostics starts before the other, each part is put in order. -/
theorem inOrder_of_parts (p : Diagnostic → Bool) {ds : List Diagnostic}
    (h : ∀ d ∈ ds, ∀ e ∈ ds, p d → ¬ p e → d.span.start.offset < e.span.start.offset) :
    inOrder ds = inOrder (ds.filter p) ++ inOrder (ds.filter (!p ·)) := by
  induction ds with
  | nil => simp [inOrder]
  | cons d ds ih =>
    have hrest := ih fun e he f hf => h e (List.mem_cons_of_mem _ he) f (List.mem_cons_of_mem _ hf)
    rw [inOrder_cons, hrest]
    by_cases hd : p d
    · have later : ∀ e ∈ inOrder (ds.filter (!p ·)), ¬ !d.isBefore e := by
        intro e he
        obtain ⟨he, hp⟩ := List.mem_filter.1 (mem_inOrder.1 he)
        have := h d List.mem_cons_self e (List.mem_cons_of_mem _ he) hd (by simpa using hp)
        rw [isBefore_iff.2 (.inl this)]
        simp
      obtain ⟨htake, hdrop⟩ := takeWhile_before (inOrder (ds.filter p)) later
      rw [List.filter_cons_of_pos hd, List.filter_cons_of_neg (by simp [hd]), inOrder_cons,
        htake, hdrop, List.append_assoc, List.cons_append]
    · have earlier : ∀ e ∈ inOrder (ds.filter p), (!d.isBefore e) = true := by
        intro e he
        obtain ⟨he, hp⟩ := List.mem_filter.1 (mem_inOrder.1 he)
        have := h e (List.mem_cons_of_mem _ he) d List.mem_cons_self hp hd
        rw [Bool.not_eq_true', Bool.eq_false_iff, Ne, isBefore_iff]
        omega
      rw [List.filter_cons_of_neg hd, List.filter_cons_of_pos (by simp [hd]), inOrder_cons,
        List.takeWhile_append_of_pos earlier, List.dropWhile_append_of_pos earlier,
        List.append_assoc]

/-- Diagnostics of two kinds, each in an early and a late part. -/
theorem inOrder_append_append {n : Int} {ds ds' es es' : List Diagnostic}
    (early : ∀ x ∈ ds ++ es, x.span.start.offset ≤ n)
    (late : ∀ x ∈ ds' ++ es', n < x.span.start.offset) :
    inOrder (ds ++ ds' ++ (es ++ es')) = inOrder (ds ++ es) ++ inOrder (ds' ++ es') := by
  have first : ∀ x ∈ ds ++ es, decide (x.span.start.offset ≤ n) = true :=
    fun x hx => decide_eq_true (early x hx)
  have second : ∀ x ∈ ds' ++ es', ¬ decide (x.span.start.offset ≤ n) = true := by
    intro x hx
    have := late x hx
    rw [decide_eq_true_eq]
    omega
  obtain ⟨hds, hes⟩ := List.forall_mem_append.1 first
  obtain ⟨hds', hes'⟩ := List.forall_mem_append.1 second
  have negated {xs : List Diagnostic} (h : ∀ x ∈ xs, ¬ decide (x.span.start.offset ≤ n) = true) :
      xs.filter (fun x => !decide (x.span.start.offset ≤ n)) = xs :=
    List.filter_eq_self.2 fun x hx => by simpa using h x hx
  have dropped {xs : List Diagnostic} (h : ∀ x ∈ xs, decide (x.span.start.offset ≤ n) = true) :
      xs.filter (fun x => !decide (x.span.start.offset ≤ n)) = [] :=
    List.filter_eq_nil_iff.2 fun x hx => by simpa using h x hx
  rw [inOrder_of_parts fun x => decide (x.span.start.offset ≤ n)]
  · simp only [List.filter_append, List.filter_eq_self.2 hds, List.filter_eq_self.2 hes,
      List.filter_eq_nil_iff.2 hds', List.filter_eq_nil_iff.2 hes', negated hds', negated hes',
      dropped hds, dropped hes, List.append_nil, List.nil_append]
  · intro x _ y _ hx hy
    rw [decide_eq_true_eq] at hx hy
    omega

/-! ### Diagnostics that start in different places -/

/-- Diagnostics that all start in different places are put in strict order. -/
theorem inOrder_strict {ds : List Diagnostic} (h : (ds.map (·.span.start.offset)).Nodup) :
    (inOrder ds).Pairwise fun d e => d.span.start.offset < e.span.start.offset := by
  have nodup : ((inOrder ds).map (·.span.start.offset)).Nodup :=
    ((List.mergeSort_perm ds isBefore).map _).nodup_iff.2 h
  have sorted := List.pairwise_mergeSort isBefore_trans isBefore_total ds
  refine (sorted.and (List.pairwise_map.1 nodup)).imp fun ⟨hbefore, hne⟩ => ?_
  rw [isBefore_iff] at hbefore
  omega

/-- A part of diagnostics that stands in strict order by itself is kept as it is. -/
theorem filter_inOrder (p : Diagnostic → Bool) {ds es : List Diagnostic} (hes : ds.filter p = es)
    (h : (ds.map (·.span.start.offset)).Nodup)
    (part : es.Pairwise fun d e => d.span.start.offset < e.span.start.offset) :
    (inOrder ds).filter p = es := by
  refine List.Perm.eq_of_pairwise (fun d e _ _ hlt hgt => ?_) ((inOrder_strict h).filter p) part
    (hes ▸ (List.mergeSort_perm ds isBefore).filter p)
  exact absurd (Int.lt_trans hlt hgt) (Int.lt_irrefl _)

/-- Diagnostics that all start in different places are put in one order, however they come. -/
theorem inOrder_congr {ds es : List Diagnostic} (h : ds.Perm es)
    (nodup : (ds.map (·.span.start.offset)).Nodup) : inOrder ds = inOrder es := by
  have strict := inOrder_strict ((h.map (·.span.start.offset)).nodup_iff.1 nodup)
  have perm : (inOrder ds).Perm (inOrder es) :=
    (List.mergeSort_perm ds isBefore).trans (h.trans (List.mergeSort_perm es isBefore).symm)
  refine List.Perm.eq_of_pairwise (fun d e _ _ hlt hgt => ?_) (inOrder_strict nodup) strict perm
  exact absurd (Int.lt_trans hlt hgt) (Int.lt_irrefl _)

/-- One diagnostic more goes between the others, which stay in their order. -/
theorem inOrder_insert {d : Diagnostic} {ds es : List Diagnostic}
    (nodup : ((ds ++ d :: es).map (·.span.start.offset)).Nodup) :
    ∃ before behind, inOrder (ds ++ d :: es) = before ++ d :: behind ∧
      inOrder (ds ++ es) = before ++ behind := by
  rw [inOrder_congr List.perm_middle nodup, inOrder_cons]
  exact ⟨_, _, rfl, List.takeWhile_append_dropWhile.symm⟩

theorem inOrder_eq_nil_iff {ds : List Diagnostic} : inOrder ds = [] ↔ ds = [] := by
  rw [← List.length_eq_zero_iff, inOrder, List.length_mergeSort, List.length_eq_zero_iff]

end RelationNotation.Diagnostic
