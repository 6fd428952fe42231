import Mathlib.Data.List.Basic
import RelationNotation.Tree.Attach

/-!
Where trivia goes. The search by halving finds, among spans in source order, the only one that may
hold an item: `Trivia.childIndex_eq_some_iff`. Said by recursion, items go down a tree together, and
part where their children part: `Trivia.attaching`.
-/

namespace RelationNotation

/-- Parts of a text in source order, none of which reaches into another. -/
structure InSequence {α : Type} (spanOf : α → Span) (xs : List α) : Prop where
  proper : ∀ x ∈ xs, (spanOf x).start.offset ≤ (spanOf x).stop.offset
  apart : xs.Pairwise fun x y => (spanOf x).stop.offset ≤ (spanOf y).start.offset

theorem InSequence.sublist {α : Type} {spanOf : α → Span} {xs ys : List α}
    (h : InSequence spanOf ys) (hs : xs.Sublist ys) : InSequence spanOf xs :=
  ⟨fun x hx => h.proper x (hs.subset hx), h.apart.sublist hs⟩

theorem InSequence.spans {α : Type} {spanOf : α → Span} {xs : List α} (h : InSequence spanOf xs) :
    InSequence id (xs.map spanOf) :=
  ⟨List.forall_mem_map.2 h.proper, List.pairwise_map.2 h.apart⟩

theorem InSequence.le {spans : List Span} (h : InSequence id spans) {i j : Nat} {s t : Span}
    (hs : spans[i]? = some s) (ht : spans[j]? = some t) (hij : i < j) :
    s.stop.offset ≤ t.start.offset := by
  obtain ⟨hi, rfl⟩ := List.getElem?_eq_some_iff.1 hs
  obtain ⟨hj, rfl⟩ := List.getElem?_eq_some_iff.1 ht
  exact List.pairwise_iff_getElem.1 h.apart i j hi hj hij

namespace Trivia
variable {spans : Array Span} {offset : Int}

theorem insertionPoint_le {low high : Nat} (hle : low ≤ high) :
    insertionPoint spans offset low high ≤ high := by
  fun_induction insertionPoint spans offset low high with
  | case1 low high hlt middle hbelow ih =>
    have hmiddle : middle < high := by omega
    exact Nat.le_trans (ih (by omega)) (Nat.le_of_lt hmiddle)
  | case2 low high hlt middle hbelow ih => exact ih (by omega)
  | case3 low high hlt => exact hle

/-- The search finds the place between the spans that start at or before an offset and those that
start behind it. -/
theorem insertionPoint_splits {low high : Nat} (hle : low ≤ high) (hsize : high ≤ spans.size)
    (sorted : ∀ i j, i ≤ j → j < spans.size →
      (spans.getD i default).start.offset ≤ (spans.getD j default).start.offset) :
    (∀ i, low ≤ i → i < insertionPoint spans offset low high →
      (spans.getD i default).start.offset ≤ offset) ∧
    (∀ i, insertionPoint spans offset low high ≤ i → i < high →
      offset < (spans.getD i default).start.offset) := by
  fun_induction insertionPoint spans offset low high with
  | case1 low high hlt middle hbelow ih =>
    have hmiddle : middle < high := by omega
    obtain ⟨before, behind⟩ := ih (by omega) (by omega)
    refine ⟨before, ?_⟩
    intro i hi hhigh
    by_cases h : i < middle
    · exact behind i hi h
    · have := sorted middle i (by omega) (by omega)
      omega
  | case2 low high hlt middle hbelow ih =>
    have hmiddle : middle < high := by omega
    obtain ⟨before, behind⟩ := ih (by omega) hsize
    refine ⟨fun i hi hlow => ?_, behind⟩
    by_cases h : middle < i
    · exact before i h hlow
    · have := sorted i middle (by omega) (by omega)
      omega
  | case3 low high hlt => exact ⟨fun i _ _ => by omega, fun i _ _ => by omega⟩

/-- An item goes on to a child exactly if the child is around it. -/
theorem childIndex_eq_some_iff {spans : List Span} (h : InSequence id spans) {item : Trivia}
    (hitem : item.span.start.offset < item.span.stop.offset) {i : Nat} {s : Span}
    (hs : spans[i]? = some s) : childIndex spans.toArray item = some i ↔ s.contains item.span := by
  have getD {j : Nat} {t : Span} (ht : spans[j]? = some t) : spans.toArray.getD j default = t := by
    obtain ⟨hj, rfl⟩ := List.getElem?_eq_some_iff.1 ht
    simp [Array.getD, hj]
  have sorted : ∀ i j, i ≤ j → j < spans.toArray.size →
      (spans.toArray.getD i default).start.offset ≤
        (spans.toArray.getD j default).start.offset := by
    intro i j hij hj
    rw [List.size_toArray] at hj
    have hi : spans[i]? = some spans[i] := List.getElem?_eq_getElem (by omega)
    have hj' : spans[j]? = some spans[j] := List.getElem?_eq_getElem hj
    rw [getD hi, getD hj']
    rcases Nat.eq_or_lt_of_le hij with rfl | hlt
    · exact Int.le_refl _
    · exact Int.le_trans (h.proper _ (List.getElem_mem _)) (h.le hi hj' hlt)
  have hpoint := @insertionPoint_le spans.toArray item.span.start.offset 0 spans.toArray.size
    (Nat.zero_le _)
  obtain ⟨before, behind⟩ := @insertionPoint_splits _ item.span.start.offset 0
    spans.toArray.size (Nat.zero_le _) (Nat.le_refl _) sorted
  have hi := (List.getElem?_eq_some_iff.1 hs).1
  unfold childIndex
  rw [List.size_toArray] at before behind hpoint ⊢
  generalize insertionPoint spans.toArray item.span.start.offset 0 spans.length = point at *
  constructor
  · intro hchild
    split at hchild
    · cases hchild
    · split at hchild
      next hcontains =>
        obtain rfl := Option.some.inj hchild
        rwa [getD hs] at hcontains
      · cases hchild
  · intro hcontains
    obtain ⟨hstart, hstop⟩ := Span.contains_iff.1 hcontains
    have hplace : point = i + 1 := by
      rcases Nat.lt_trichotomy point (i + 1) with hlt | heq | hgt
      · have := behind i (by omega) hi
        rw [getD hs] at this
        omega
      · exact heq
      · have hnext : spans[i + 1]? = some spans[i + 1] := List.getElem?_eq_getElem (by omega)
        have := before (i + 1) (Nat.zero_le _) hgt
        have := h.le hs hnext (Nat.lt_succ_self i)
        rw [getD hnext] at *
        omega
    rw [hplace]
    simp only [getD hs, hcontains, if_true]

/-- An item goes on to children only. -/
theorem lt_of_childIndex {spans : Array Span} {item : Trivia} {i : Nat}
    (h : childIndex spans item = some i) : i < spans.size := by
  have hpoint := @insertionPoint_le spans item.span.start.offset 0 spans.size (Nat.zero_le _)
  unfold childIndex at h
  split at h
  next => cases h
  next j hj =>
    split at h
    · obtain rfl := Option.some.inj h
      omega
    · cases h

/-- The pass that carries items down a tree and leaves each at the deepest node around it. -/
def attaching : OriginMap (List Trivia) where
  here items spans origin :=
    let children := spans.toArray
    { origin with
      trivia := origin.trivia ++ items.filter fun item => (childIndex children item).isNone }
  below items spans i :=
    let children := spans.toArray
    items.filter fun item => childIndex children item == some i

end Trivia

end RelationNotation
