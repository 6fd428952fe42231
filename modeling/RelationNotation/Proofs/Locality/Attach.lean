import RelationNotation.Proofs.Locality.Session
import RelationNotation.Proofs.Tree.Attach

/-!
Trivia of moved statements. Where statements and items are moved together, each item goes to the
same node as before.
-/

namespace RelationNotation

open Token Cursor

namespace Trivia
variable (d : Displacement)

theorem getD_displace {spans : List Span} {i : Nat} (h : i < spans.length) :
    (spans.map (Span.displace d)).toArray.getD i default =
      (spans.toArray.getD i default).displace d := by
  simp [Array.getD, h]

theorem insertionPoint_displace (spans : List Span) (offset : Int) {low high : Nat}
    (hsize : high ≤ spans.length) :
    insertionPoint (spans.map (Span.displace d)).toArray (offset + d.offset) low high =
      insertionPoint spans.toArray offset low high := by
  have moves {i : Nat} (hi : i < spans.length) :
      offset + d.offset < ((spans.map (Span.displace d)).toArray.getD i default).start.offset ↔
        offset < (spans.toArray.getD i default).start.offset := by
    rw [getD_displace d hi]
    simp only [Span.displace, Position.displace]
    omega
  fun_induction insertionPoint spans.toArray offset low high with
  | case1 low high hlt middle hbelow ih =>
    have hmiddle : middle < high := by omega
    have hbelow' := (moves (Nat.lt_of_lt_of_le hmiddle hsize)).2 hbelow
    rw [insertionPoint, if_pos hlt]
    exact (if_pos hbelow').trans (ih (by omega))
  | case2 low high hlt middle hbelow ih =>
    have hmiddle : middle < high := by omega
    have hbelow' := mt (moves (Nat.lt_of_lt_of_le hmiddle hsize)).1 hbelow
    rw [insertionPoint, if_pos hlt]
    exact (if_neg hbelow').trans (ih hsize)
  | case3 low high hlt => rw [insertionPoint, if_neg hlt]

theorem childIndex_displace (spans : List Span) (item : Trivia) :
    childIndex (spans.map (Span.displace d)).toArray (item.displace d) =
      childIndex spans.toArray item := by
  have hpoint : insertionPoint (spans.map (Span.displace d)).toArray
      (item.displace d).span.start.offset 0 (spans.map (Span.displace d)).toArray.size =
      insertionPoint spans.toArray item.span.start.offset 0 spans.toArray.size := by
    rw [List.size_toArray, List.size_toArray, List.length_map]
    exact insertionPoint_displace d spans item.span.start.offset (Nat.le_refl _)
  have hle := @insertionPoint_le spans.toArray item.span.start.offset 0 spans.toArray.size
    (Nat.zero_le _)
  unfold childIndex
  rw [hpoint]
  split
  next => rfl
  next i hnext =>
    rw [hnext, List.size_toArray] at hle
    have hcontains : ((spans.map (Span.displace d)).toArray.getD i default).contains
        (item.displace d).span = (spans.toArray.getD i default).contains item.span := by
      rw [getD_displace d hle]
      exact Span.contains_displace d _ _
    simp only [hcontains]

end Trivia

/-- A pass that leaves items at moved nodes and moves them. -/
def Displacement.attaching (d : Displacement) : OriginMap (List Trivia) where
  here items spans origin := (Trivia.attaching.here items spans origin).displace d
  below := Trivia.attaching.below

theorem attaching_fuses_pass (d : Displacement) :
    Trivia.attaching.Fuses id d.pass d.attaching fun items _ items' => items' = items where
  span _ _ _ := rfl
  here h spans o := by
    rw [h]
    rfl
  below h spans i := by rw [h]; rfl

theorem pass_fuses_attaching (d : Displacement) :
    d.pass.Fuses (Span.displace d) Trivia.attaching d.attaching fun _ items' items =>
      items' = items.map (Trivia.displace d) where
  span := spansBy_pass d
  here h spans o := by
    rw [h]
    have here (items : List Trivia) : (items.map (Trivia.displace d)).filter
        (fun item => (Trivia.childIndex (spans.map (Span.displace d)).toArray item).isNone) =
        (items.filter fun item => (Trivia.childIndex spans.toArray item).isNone).map
          (Trivia.displace d) := by
      rw [List.filter_map]
      simp only [Function.comp_def, Trivia.childIndex_displace]
    simp only [Trivia.attaching, Displacement.attaching, Origin.displace, OriginMap.each, here,
      List.map_append]
  below h spans i := by
    rw [h]
    simp only [Trivia.attaching, Displacement.attaching, List.filter_map, Function.comp_def,
      Trivia.childIndex_displace]

theorem Statement.attaching_displace (d : Displacement) (x : Statement) (items : List Trivia) :
    (x.displace d).mapOrigins Trivia.attaching (items.map (Trivia.displace d)) =
      (x.mapOrigins Trivia.attaching items).displace d := by
  have moved := x.mapOrigins_fuse (pass_fuses_attaching d) (s := ()) (u := items) rfl
  have attached := x.mapOrigins_fuse (attaching_fuses_pass d) (s := items) (t := ()) rfl
  exact moved.trans attached.symm

end RelationNotation
