import RelationNotation.Proofs.Tree.Rebuilding

/-!
Owners of trivia. An item belongs to the only deepest node around it, and to the root where no node
is around it. In an orderly tree every item settles in one place on its way down: nodes around an
item lie on one path, so the place where it settles is its owner, and attaching items gives each
node those it owns: `Document.attach_owners`.
-/

namespace RelationNotation

namespace Node

/-- The node of a path is around an item. -/
def Around (root : Node) (item : Trivia) (path : List Nat) : Prop :=
  ∃ n, root.at? path = some n ∧ n.span.contains item.span

/-- The node of a path owns an item: it is deeper than every other node around the item, or it is
the root and no node is around the item. -/
def Owns (root : Node) (item : Trivia) (path : List Nat) : Prop :=
  (root.Around item path ∧
      ∀ other, root.Around item other → other ≠ path → other.length < path.length) ∨
    (path = [] ∧ ∀ other, ¬ root.Around item other)

theorem Owns.unique {root : Node} {item : Trivia} {path path' : List Nat}
    (h : root.Owns item path) (h' : root.Owns item path') : path = path' := by
  rcases h with ⟨around, deepest⟩ | ⟨rfl, nowhere⟩
  · rcases h' with ⟨around', deepest'⟩ | ⟨-, nowhere⟩
    · by_contra hne
      have := deepest path' around' (Ne.symm hne)
      have := deepest' path around hne
      omega
    · exact absurd around (nowhere path)
  · rcases h' with ⟨around', -⟩ | ⟨rfl, -⟩
    · exact absurd around' (nowhere path')
    · rfl

/-! ### The way down -/

/-- An item goes down a path, from a node to a child around it, until no child is around it. -/
inductive Settles (item : Trivia) : Node → List Nat → Prop
  | stays {n : Node} : (∀ c ∈ n.children, ¬ c.2.span.contains item.span) → Settles item n []
  | enters {n : Node} {i : Nat} {c : String × Node} {path : List Nat} :
    n.children[i]? = some c → c.2.span.contains item.span → Settles item c.2 path →
      Settles item n (i :: path)

theorem exists_settles (item : Trivia) (n : Node) : ∃ path, Settles item n path := by
  by_cases h : ∃ c ∈ n.children, c.2.span.contains item.span
  · obtain ⟨c, hc, hcontains⟩ := h
    obtain ⟨i, hi⟩ := List.mem_iff_getElem?.1 hc
    obtain ⟨path, hpath⟩ := exists_settles item c.2
    exact ⟨i :: path, .enters hi hcontains hpath⟩
  · exact ⟨[], .stays fun c hc hcontains => h ⟨c, hc, hcontains⟩⟩
termination_by sizeOf n
decreasing_by exact sizeOf_lt_of_mem_children hc

theorem Settles.around {item : Trivia} {n : Node} {path : List Nat} (h : Settles item n path)
    (hn : path ≠ []) : n.Around item path := by
  induction h with
  | stays => exact absurd rfl hn
  | @enters n i c path hc hcontains further ih =>
    cases path with
    | nil => exact ⟨c.2, at?_cons_eq_some_iff.2 ⟨c, hc, rfl⟩, hcontains⟩
    | cons j path =>
      obtain ⟨m, hm, around⟩ := ih (List.cons_ne_nil j path)
      exact ⟨m, at?_cons_eq_some_iff.2 ⟨c, hc, hm⟩, around⟩

/-! ### Orderly trees -/

theorem contains_of_at? {n m : Node} {path : List Nat} (orderly : ∀ m ∈ n.walk, m.Orderly)
    (h : n.at? path = some m) : n.span.contains m.span := by
  induction path generalizing n with
  | nil =>
    obtain rfl := Option.some.inj h
    exact Span.contains_iff.2 ⟨Int.le_refl _, Int.le_refl _⟩
  | cons i path ih =>
    obtain ⟨c, hc, hm⟩ := at?_cons_eq_some_iff.1 h
    have hmem := List.mem_of_getElem? hc
    have inner := ih (fun m hm => orderly m (mem_walk_of_mem_children hmem hm)) hm
    exact Span.contains_trans ((orderly n n.mem_walk_self).within c hmem) inner

theorem inSequence_children {n : Node} (orderly : ∀ m ∈ n.walk, m.Orderly) :
    InSequence (·.2.span) n.children where
  proper c hc := (orderly c.2 (mem_walk_of_mem_children hc c.2.mem_walk_self)).proper
  apart := (orderly n n.mem_walk_self).apart

/-- Two children around one item are one child. -/
theorem index_unique {item : Trivia} {n : Node} (orderly : ∀ m ∈ n.walk, m.Orderly)
    (proper : item.span.start.offset < item.span.stop.offset) {i j : Nat} {c e : String × Node}
    (hc : n.children[i]? = some c) (he : n.children[j]? = some e)
    (hci : c.2.span.contains item.span) (hei : e.2.span.contains item.span) : i = j := by
  have hi : n.childSpans[i]? = some c.2.span := by rw [childSpans, List.getElem?_map, hc]; rfl
  have hj : n.childSpans[j]? = some e.2.span := by rw [childSpans, List.getElem?_map, he]; rfl
  have spans : InSequence id n.childSpans := (inSequence_children orderly).spans
  rw [Span.contains_iff] at hci hei
  rcases Nat.lt_trichotomy i j with hlt | heq | hgt
  · have := spans.le hi hj hlt
    omega
  · exact heq
  · have := spans.le hj hi hgt
    omega

/-- All nodes around an item lie on the path on which it goes down. -/
theorem Settles.on_path {item : Trivia} {n : Node} {path other : List Nat}
    (h : Settles item n path) (orderly : ∀ m ∈ n.walk, m.Orderly)
    (proper : item.span.start.offset < item.span.stop.offset) (around : n.Around item other) :
    other <+: path := by
  induction h generalizing other with
  | @stays n outside =>
    cases other with
    | nil => exact List.prefix_rfl
    | cons j other =>
      obtain ⟨m, hm, hcontains⟩ := around
      obtain ⟨e, he, hm⟩ := at?_cons_eq_some_iff.1 hm
      have hmem := List.mem_of_getElem? he
      have hspan := contains_of_at? (fun m hm => orderly m (mem_walk_of_mem_children hmem hm)) hm
      exact absurd (Span.contains_trans hspan hcontains) (outside e hmem)
  | @enters n i c path hc hcontains further ih =>
    cases other with
    | nil => exact List.nil_prefix
    | cons j other =>
      obtain ⟨m, hm, hm'⟩ := around
      obtain ⟨e, he, hm⟩ := at?_cons_eq_some_iff.1 hm
      have hmem := List.mem_of_getElem? he
      have below : ∀ m ∈ e.2.walk, m.Orderly := fun m hm =>
        orderly m (mem_walk_of_mem_children hmem hm)
      have hspan := Span.contains_trans (contains_of_at? below hm) hm'
      obtain rfl := index_unique orderly proper he hc hspan hcontains
      obtain rfl := Option.some.inj (he.symm.trans hc)
      exact List.cons_prefix_cons.2 ⟨rfl, ih below ⟨m, hm, hm'⟩⟩

/-- In an orderly tree the owner of an item is the node where the item settles. -/
theorem owns_iff_settles {item : Trivia} {n : Node} {path : List Nat}
    (orderly : ∀ m ∈ n.walk, m.Orderly)
    (proper : item.span.start.offset < item.span.stop.offset) :
    n.Owns item path ↔ Settles item n path := by
  -- Every item settles and has one owner at most, so one direction is enough.
  have owns {path : List Nat} (h : Settles item n path) : n.Owns item path := by
    by_cases hpath : path = [] ∧ ¬ n.Around item []
    · obtain ⟨rfl, outside⟩ := hpath
      refine .inr ⟨rfl, fun other around => outside ?_⟩
      exact List.prefix_nil.1 (h.on_path orderly proper around) ▸ around
    · have around : n.Around item path := by
        by_cases hnil : path = []
        · subst hnil
          exact by_contra fun outside => hpath ⟨rfl, outside⟩
        · exact h.around hnil
      refine .inl ⟨around, fun other hother hne => ?_⟩
      have hpre := h.on_path orderly proper hother
      exact Nat.lt_of_le_of_ne hpre.length_le fun hlen => hne (hpre.eq_of_length hlen)
  constructor
  · intro h
    obtain ⟨path', h'⟩ := exists_settles item n
    rwa [h.unique (owns h')]
  · exact owns

end Node

/-! ### The pass that leaves items -/

namespace Trivia

/-- An item stays at a node exactly if no child is around it. -/
theorem childIndex_eq_none_iff {spans : List Span} (h : InSequence id spans) {item : Trivia}
    (hitem : item.span.start.offset < item.span.stop.offset) :
    childIndex spans.toArray item = none ↔ ∀ s ∈ spans, ¬ s.contains item.span := by
  constructor
  · intro hnone s hs hcontains
    obtain ⟨i, hi⟩ := List.mem_iff_getElem?.1 hs
    rw [(childIndex_eq_some_iff h hitem hi).2 hcontains] at hnone
    cases hnone
  · intro outside
    have hpoint := @insertionPoint_le spans.toArray item.span.start.offset 0 spans.toArray.size
      (Nat.zero_le _)
    rw [List.size_toArray] at hpoint
    unfold childIndex
    rw [List.size_toArray]
    split
    next => rfl
    next i hi =>
      have hlt : i < spans.length := by omega
      have : spans.toArray.getD i default = spans[i] := by simp [Array.getD, hlt]
      rw [this, if_neg (outside _ (List.getElem_mem hlt))]

end Trivia

open Classical in
/-- Attached to an orderly tree, each item is left where it settles. -/
theorem Node.trivia_attaching {n m : Node} {path : List Nat} {items : List Trivia}
    (orderly : ∀ m ∈ n.walk, m.Orderly)
    (proper : ∀ item ∈ items, item.span.start.offset < item.span.stop.offset)
    (h : n.at? path = some m) :
    ∃ m', (n.mapOrigins Trivia.attaching items).at? path = some m' ∧
      m'.trivia = m.trivia ++ items.filter fun item => Settles item n path := by
  have spans : InSequence id n.childSpans := (inSequence_children orderly).spans
  -- Along the path the items thin out: what the pass takes on to a child is what the child contains.
  induction path generalizing n items with
  | nil =>
    obtain rfl := Option.some.inj h
    refine ⟨_, rfl, ?_⟩
    rw [trivia, origin_mapOrigins]
    refine congrArg (n.trivia ++ ·) (List.filter_congr fun item hitem => ?_)
    rw [Bool.eq_iff_iff, Option.isNone_iff_eq_none,
      Trivia.childIndex_eq_none_iff spans (proper item hitem), decide_eq_true_iff]
    constructor
    · intro outside
      exact .stays fun c hc => outside _ (List.mem_map_of_mem hc)
    · rintro (outside : Settles item n [])
      cases outside with
      | stays outside =>
        intro s hs
        obtain ⟨c, hc, rfl⟩ := List.mem_map.1 hs
        exact outside c hc
  | cons i path ih =>
    obtain ⟨c, hc, hm⟩ := at?_cons_eq_some_iff.1 h
    have hmem := List.mem_of_getElem? hc
    have hspan : n.childSpans[i]? = some c.2.span := by
      rw [childSpans, List.getElem?_map, hc]
      rfl
    have below : ∀ m ∈ c.2.walk, m.Orderly := fun m hm =>
      orderly m (mem_walk_of_mem_children hmem hm)
    have properBelow : ∀ item ∈ Trivia.attaching.below items n.childSpans i,
        item.span.start.offset < item.span.stop.offset := fun item hitem =>
      proper item (List.mem_of_mem_filter hitem)
    obtain ⟨m', hm', trivia⟩ := ih below properBelow hm (inSequence_children below).spans
    refine ⟨m', ?_, ?_⟩
    · rw [at?, children_mapOrigins, List.getElem?_mapIdx, hc]
      exact hm'
    · rw [trivia]
      refine congrArg (m.trivia ++ ·) ?_
      rw [Trivia.attaching, List.filter_filter]
      refine List.filter_congr fun item hitem => ?_
      rw [Bool.eq_iff_iff, Bool.and_eq_true, decide_eq_true_iff, decide_eq_true_iff, beq_iff_eq,
        Trivia.childIndex_eq_some_iff spans (proper item hitem) hspan]
      constructor
      · rintro ⟨settles, hcontains⟩
        exact .enters hc hcontains settles
      · rintro (settles : Settles item n (i :: path))
        cases settles with
        | enters he hcontains settles =>
          obtain rfl := Option.some.inj (he.symm.trans hc)
          exact ⟨settles, hcontains⟩

/-! ### Documents -/

def Document.withoutTrivia (d : Document) : Document :=
  d.mapOrigins (.each fun o => { o with trivia := [] }) ()

theorem Document.withoutTrivia_attach (d : Document) (items : List Trivia) :
    (d.attach items).withoutTrivia = d.withoutTrivia := by
  rw [attach_eq]
  refine d.mapOrigins_fuse (φ := id) (R := fun _ _ _ => True) ⟨?_, ?_, ?_⟩ trivial
  · exact fun _ _ _ => rfl
  · exact fun _ _ _ => rfl
  · exact fun _ _ _ => trivial

open Classical in
/-- Attaching items to an orderly tree changes nothing but trivia. Each item has one owner, and
each node has behind its own trivia the items it owns, in the order in which they are given. -/
theorem Document.attach_owners (d : Document) (items : List Trivia)
    (orderly : ∀ n ∈ (Node.document d).walk, n.Orderly)
    (proper : ∀ item ∈ items, item.span.start.offset < item.span.stop.offset) :
    (d.attach items).withoutTrivia = d.withoutTrivia ∧
      (∀ item ∈ items, ∃! path, (Node.document d).Owns item path) ∧
      ∀ path n, (Node.document d).at? path = some n →
        ∃ n', (Node.document (d.attach items)).at? path = some n' ∧
          n'.trivia = n.trivia ++ items.filter fun item => (Node.document d).Owns item path := by
  refine ⟨d.withoutTrivia_attach items, fun item hitem => ?_, fun path n hn => ?_⟩
  · obtain ⟨path, hpath⟩ := Node.exists_settles item (.document d)
    have owns := (Node.owns_iff_settles orderly (proper item hitem)).2 hpath
    exact ⟨path, owns, fun other hother => hother.unique owns⟩
  · obtain ⟨n', hn', trivia⟩ := Node.trivia_attaching orderly proper hn
    refine ⟨n', by rwa [attach_eq], trivia.trans ?_⟩
    refine congrArg (n.trivia ++ ·) (List.filter_congr fun item hitem => ?_)
    rw [Bool.eq_iff_iff, decide_eq_true_iff, decide_eq_true_iff]
    exact (Node.owns_iff_settles orderly (proper item hitem)).symm

/-- `#( a)::{ };` and a line break behind it, with a comment kept beside the relation. -/
def Document.emptyShape : Document :=
  let span (i j : Int) : Span := ⟨⟨i, 1, i + 1⟩, ⟨j, 1, j + 1⟩⟩
  let name : Identifier := ⟨⟨span 3 4, []⟩, ['a']⟩
  let kept : Trivia := ⟨.lineComment, "// kept".toList, span 20 27⟩
  let relation : Relation :=
    ⟨.shape, ⟨span 0 10, [kept]⟩, .fycoide ⟨⟨span 0 5, []⟩, .identifier name⟩, .emptyBlock⟩
  ⟨⟨⟨⟨0, 1, 1⟩, ⟨12, 2, 1⟩⟩, []⟩, [.block ⟨⟨span 0 11, []⟩, .relation relation⟩]⟩

/-- The blank in the braces, the one in front of the name, the line break and a comment outside. -/
def Document.emptyShapeTrivia : List Trivia :=
  let span (i j : Int) : Span := ⟨⟨i, 1, i + 1⟩, ⟨j, 1, j + 1⟩⟩
  [⟨.whitespace, [' '], span 8 9⟩, ⟨.whitespace, [' '], span 2 3⟩,
    ⟨.whitespace, ['\n'], ⟨⟨11, 1, 12⟩, ⟨12, 2, 1⟩⟩⟩, ⟨.lineComment, "//".toList, span 30 32⟩]

theorem Document.orderly_emptyShape : ∀ n ∈ (Node.document emptyShape).walk, n.Orderly := by
  simp only [Node.walk, Node.visit, Node.children, emptyShape, Statement.toNode,
    FunctionBlock.toNode, Expression.toNode, RightSide.children, StringValue.toNode, List.map_cons,
    List.map_nil, List.append_nil]
  decide

open Classical in
/-- The blank in the braces goes to the relation, behind the comment that is there already. -/
theorem Document.attach_owners_emptyShape :
    (∀ n ∈ (Node.document emptyShape).walk, n.Orderly) ∧
      (∀ item ∈ emptyShapeTrivia, item.span.start.offset < item.span.stop.offset) ∧
      (emptyShape.attach emptyShapeTrivia).withoutTrivia = emptyShape.withoutTrivia ∧
      (∀ item ∈ emptyShapeTrivia, ∃! path, (Node.document emptyShape).Owns item path) ∧
      ∀ path n, (Node.document emptyShape).at? path = some n →
        ∃ n', (Node.document (emptyShape.attach emptyShapeTrivia)).at? path = some n' ∧
          n'.trivia = n.trivia ++
            emptyShapeTrivia.filter fun item => (Node.document emptyShape).Owns item path :=
  have proper : ∀ item ∈ emptyShapeTrivia, item.span.start.offset < item.span.stop.offset := by
    decide
  ⟨orderly_emptyShape, proper, attach_owners emptyShape emptyShapeTrivia orderly_emptyShape proper⟩

example : ((Node.document (.attach .emptyShape Document.emptyShapeTrivia)).at? [0, 0]).map
    (·.trivia.map (·.span.start.offset)) = some [20, 8] := by
  decide +kernel

end RelationNotation
