import RelationNotation.Proofs.Tree.Owner

/-!
Trivia attached in batches. The search at a node looks at spans only, and attaching leaves spans as
they are; so what comes in a second batch, to a tree of which the first has replaced a part, goes
where it would have gone with the first: `Document.attach_batches`. This needs a tree in which no
node stands at two places, for a copy is made of a node, and not of a place:
`Document.attach_twoPlaces`.
-/

namespace RelationNotation

/-- At every node two batches leave and pass on what one batch of all items does: the spans that the
second batch meets are those that the first one met. -/
theorem Trivia.attaching_fuses :
    Trivia.attaching.Fuses id Trivia.attaching Trivia.attaching
      fun first second whole => whole = first ++ second where
  span _ _ _ := rfl
  here := by
    rintro first second _ rfl spans o
    simp only [attaching, List.map_id, List.filter_append, List.append_assoc]
  below := by
    rintro first second _ rfl spans i
    simp only [attaching, List.map_id, List.filter_append]

theorem Document.mapOrigins_attaching_append (d : Document) (xs ys : List Trivia) :
    (d.mapOrigins Trivia.attaching xs).mapOrigins Trivia.attaching ys =
      d.mapOrigins Trivia.attaching (xs ++ ys) :=
  d.mapOrigins_fuse Trivia.attaching_fuses rfl

/-- Whatever the spans of a document and whatever trivia it has: items attached in two batches are
where they would be if attached at once, and a batch without items changes nothing. It is so whichever
objects the nodes of the document are, if none of them stands at two places: the second batch then
meets objects of which the first has replaced some, and one without items replaces none. -/
theorem Document.attach_batches (d : Document) (xs ys : List Trivia) :
    (d.attach xs).attach ys = d.attach (xs ++ ys) ∧ d.attach [] = d ∧
      ∀ {ι : Type} [DecidableEq ι] (identity : List Nat → ι),
        let root := (Node.document d).objects identity
        root.Distinct →
          d.withOrigins (root.attach xs) = d.attach xs ∧
            d.withOrigins ((root.attach xs).attach ys) = d.withOrigins (root.attach (xs ++ ys)) ∧
            root.attach [] = root.map .kept := by
  refine ⟨?_, ?_, ?_⟩
  · rw [attach_eq, attach_eq, attach_eq, mapOrigins_attaching_append]
  · rw [attach_eq]
    exact Node.document.inj (Node.mapOrigins_idle (n := .document d) Trivia.attaching_idles rfl)
  · intro ι _ identity root distinct
    have shown : root.Shows (.document d) := Node.shows_objects identity (.document d)
    have first := shows_attach shown distinct xs
    have twice := shows_attach first (distinct.attach xs) ys
    rw [mapOrigins_attaching_append] at twice
    have read {κ : Type} {o : NodeObject κ} {items : List Trivia}
        (h : o.Shows (.document (d.mapOrigins Trivia.attaching items))) :
        d.withOrigins o = d.mapOrigins Trivia.attaching items :=
      withOrigins_of_shows_mapOrigins Trivia.attaching_spansBy h
    refine ⟨?_, ?_, rfl⟩
    · rw [read first, attach_eq]
    · rw [read twice, read (shows_attach shown distinct (xs ++ ys))]

theorem Document.attach_batches_emptyShape :
    let root := (Node.document emptyShape).objects id
    let xs := emptyShapeTrivia.take 1
    let ys := emptyShapeTrivia.drop 1
    (emptyShape.attach xs).attach ys = emptyShape.attach (xs ++ ys) ∧
      emptyShape.attach [] = emptyShape ∧ root.Distinct ∧
      emptyShape.withOrigins (root.attach xs) = emptyShape.attach xs ∧
      emptyShape.withOrigins ((root.attach xs).attach ys) =
        emptyShape.withOrigins (root.attach (xs ++ ys)) ∧
      root.attach [] = root.map .kept :=
  have distinct := Node.distinct_objects Function.injective_id (.document emptyShape)
  have law := attach_batches emptyShape (emptyShapeTrivia.take 1) (emptyShapeTrivia.drop 1)
  ⟨law.1, law.2.1, distinct, law.2.2 id distinct⟩

/-- Two statements that hold one and the same inclusion, which is around all that they are around. -/
def Document.twoPlaces : Document :=
  let span (i j : Int) : Span := ⟨⟨i, 1, i + 1⟩, ⟨j, 1, j + 1⟩⟩
  let shared : Include := ⟨⟨span 0 8, []⟩, .identifier ⟨⟨span 2 3, []⟩, ['a']⟩⟩
  ⟨⟨span 0 8, []⟩,
    [.block ⟨⟨span 0 4, []⟩, .inclusion shared⟩, .block ⟨⟨span 4 8, []⟩, .inclusion shared⟩]⟩

/-- If a node stands at two places, the law fails: what is attached at once is attached to one object
and seen at both places, but the first of two batches makes two objects of it. -/
theorem Document.attach_twoPlaces :
    let root := (Node.document twoPlaces).objects fun path =>
      if 2 ≤ path.length then path.set 0 0 else path
    let x : Trivia := ⟨.whitespace, [' '], ⟨⟨0, 1, 1⟩, ⟨1, 1, 2⟩⟩⟩
    let y : Trivia := ⟨.whitespace, [' '], ⟨⟨6, 1, 7⟩, ⟨7, 1, 8⟩⟩⟩
    ¬ root.Distinct ∧ twoPlaces.withOrigins ((root.attach [x]).attach [y]) ≠
      twoPlaces.withOrigins (root.attach [x, y]) := by
  intro root x y
  refine ⟨by decide +kernel, fun h => ?_⟩
  have same := congrArg (fun d => ((Node.document d).at? [0, 0]).map (·.trivia)) h
  revert same
  decide +kernel

end RelationNotation
