import RelationNotation.Proofs.Tree.Notes

/-!
Rebuilding. The loop with a stack copies a node when its dirty children have been copied, so in a tree
without an object at two places it copies the nodes that items go to or through, and gives each the
copies of its children: `rebuild_node`. What comes out is what items make of a tree that go down it
together: `attach_eq_attached`. A document is read off it, and so is changed as by a pass over its
nodes: `Document.attach_eq`.
-/

namespace RelationNotation

/-- The object that is kept or copied. -/
def Rebuilt.source {ι : Type} : Rebuilt ι → ι
  | kept i => i
  | copied i _ => i

namespace NodeObject
variable {ι : Type} {n : NodeObject ι}

/-! ### Where items part -/

/-- An item stays at a node or goes on to a child. -/
theorem childAround_eq_none {item : Trivia} :
    n.childAround n.spans item = none ↔ Trivia.childIndex n.spans item = none := by
  rw [childAround]
  cases h : Trivia.childIndex n.spans item with
  | none => simp
  | some i =>
    have hi := Trivia.lt_of_childIndex h
    rw [spans, List.size_toArray, List.length_map] at hi
    simp [List.getElem?_eq_getElem hi]

section
variable (distinct : n.Distinct) {i : Nat} {c : NodeObject ι} (hc : n.children[i]? = some c) {k : ι}
  (hk : k ∈ c.identities) {item : Trivia}
include distinct hc hk

/-- An item that belongs to a node below a child goes on to the child. -/
theorem owner_identity_iff : (n.owner item).identity = k ↔
    (c.owner item).identity = k ∧ Trivia.childIndex n.spans item = some i := by
  constructor
  · intro howner
    cases h : n.childAround n.spans item with
    | none =>
      rw [owner_of_stays h] at howner
      exact absurd (howner ▸ hk) (distinct.identity_notMem (List.mem_of_getElem? hc))
    | some e =>
      obtain ⟨j, hj, he⟩ := Option.bind_eq_some_iff.1 h
      rw [owner_of_enters h] at howner
      have hke : k ∈ e.identities :=
        howner ▸ List.mem_map_of_mem (way_subset item e _ (e.owner_mem_way item))
      obtain rfl := distinct.children.index_unique hc he hk hke
      obtain rfl := Option.some.inj (hc.symm.trans he)
      exact ⟨howner, hj⟩
  · rintro ⟨howner, hindex⟩
    have h : n.childAround n.spans item = some c := by rw [childAround, hindex]; exact hc
    rwa [owner_of_enters h]

theorem mem_way_iff : k ∈ (n.way item).map identity ↔
    k ∈ (c.way item).map identity ∧ Trivia.childIndex n.spans item = some i := by
  have outside : k ≠ n.identity := fun heq =>
    distinct.identity_notMem (List.mem_of_getElem? hc) (heq ▸ hk)
  constructor
  · intro hway
    cases h : n.childAround n.spans item with
    | none =>
      rw [way_of_stays h] at hway
      exact absurd (List.mem_singleton.1 hway) outside
    | some e =>
      obtain ⟨j, hj, he⟩ := Option.bind_eq_some_iff.1 h
      rw [way_of_enters h] at hway
      have hway := (List.mem_cons.1 hway).resolve_left outside
      obtain ⟨m, hm, hmk⟩ := List.mem_map.1 hway
      have hke : k ∈ e.identities := hmk ▸ List.mem_map_of_mem (way_subset item e m hm)
      obtain rfl := distinct.children.index_unique hc he hk hke
      obtain rfl := Option.some.inj (hc.symm.trans he)
      exact ⟨hway, hj⟩
  · rintro ⟨hway, hindex⟩
    have h : n.childAround n.spans item = some c := by rw [childAround, hindex]; exact hc
    rw [way_of_enters h]
    exact List.mem_cons_of_mem _ hway

end

/-! ### Items together -/

/-- What items make of a tree that go down it together: those for which no child of a node is meant
stay there, and the others part. -/
def attached (items : List Trivia) (n : NodeObject ι) : NodeObject ι :=
  if items = [] then n
  else
    .mk n.identity
      { n.origin with
        trivia := n.origin.trivia ++
          items.filter fun item => (Trivia.childIndex n.spans item).isNone }
      (n.children.attach.mapIdx fun i c =>
        attached (items.filter fun item => Trivia.childIndex n.spans item == some i) c.1)
termination_by sizeOf n
decreasing_by exact sizeOf_lt_of_mem_children c.2

theorem identities_attached (items : List Trivia) (n : NodeObject ι) :
    (n.attached items).identities = n.identities := by
  rw [attached]
  split
  · rfl
  · rw [identities_eq, identities_eq, List.flatMap_def, List.flatMap_def]
    refine congrArg (fun rows => n.identity :: List.flatten rows) ?_
    refine List.ext_getElem (by simp [children]) fun i h₁ h₂ => ?_
    rw [List.length_map] at h₂
    have hc := List.getElem_mem h₂
    simpa [children] using identities_attached _ n.children[i]
termination_by sizeOf n
decreasing_by exact sizeOf_lt_of_mem_children hc

/-! ### The loop -/

/-- A node that is kept is the node it was. -/
theorem source_map_kept (n : NodeObject ι) : (n.map .kept).map Rebuilt.source = n := by
  rw [map_map]
  exact n.map_id

variable [DecidableEq ι] {notes : Notes ι}

/-- The copy of a node whose dirty children are copied. -/
def fresh (notes : Notes ι) (n : NodeObject ι) : NodeObject ι :=
  .mk n.identity
    { n.origin with trivia := n.origin.trivia ++ notes.itemsOf n.identity }
    (n.children.attach.map fun c =>
      if notes.dirty.contains c.1.identity then fresh notes c.1 else c.1)
termination_by sizeOf n
decreasing_by exact sizeOf_lt_of_mem_children c.2

/-- From a table to another the nodes of a list have been rebuilt, and nothing else has changed. -/
structure Rebuilds (notes : Notes ι) (ns : List (NodeObject ι))
    (before after : List (ι × NodeObject (Rebuilt ι))) : Prop where
  here : ∀ n ∈ ns, ∃ m, after.lookup n.identity = some m ∧ m.map Rebuilt.source = n.fresh notes
  apart : ∀ i, (∀ n ∈ ns, i ∉ n.identities) → after.lookup i = before.lookup i

/-- The loop rebuilds nodes one by one, if it rebuilds each. -/
theorem rebuild_nodes {ns : List (NodeObject ι)} (apart : Apart ns)
    (each : ∀ n ∈ ns, ∀ stack table, (∀ i ∈ n.identities, table.lookup i = none) →
      ∃ after, rebuild notes ((n, false) :: stack) table = rebuild notes stack after ∧
        Rebuilds notes [n] table after)
    (stack : List (NodeObject ι × Bool)) (table : List (ι × NodeObject (Rebuilt ι)))
    (absent : ∀ n ∈ ns, ∀ i ∈ n.identities, table.lookup i = none) :
    ∃ after, rebuild notes (ns.map (·, false) ++ stack) table = rebuild notes stack after ∧
      Rebuilds notes ns table after := by
  induction ns generalizing table with
  | nil => exact ⟨table, rfl, fun n hn => (nomatch hn), fun _ _ => rfl⟩
  | cons n ns ih =>
    obtain ⟨middle, hfirst, first⟩ :=
      each n List.mem_cons_self (ns.map (·, false) ++ stack) table (absent n List.mem_cons_self)
    have outside {m : NodeObject ι} (hm : m ∈ ns) {i : ι} (hi : i ∈ m.identities) :
        i ∉ n.identities := fun hi' => (List.pairwise_cons.1 apart.disjoint).1 m hm hi' hi
    obtain ⟨after, hrest, rest⟩ := ih (apart.sublist (List.sublist_cons_self n ns))
      (fun m hm => each m (List.mem_cons_of_mem n hm)) middle fun m hm i hi => by
        rw [first.apart i (List.forall_mem_singleton.2 (outside hm hi))]
        exact absent m (List.mem_cons_of_mem n hm) i hi
    refine ⟨after, hfirst.trans hrest, List.forall_mem_cons.2 ⟨?_, rest.here⟩, fun i hi => ?_⟩
    · rw [rest.apart _ fun m hm hi => outside hm hi n.identity_mem]
      exact first.here n (List.mem_singleton_self n)
    · obtain ⟨hn, hns⟩ := List.forall_mem_cons.1 hi
      rw [rest.apart i hns, first.apart i (List.forall_mem_singleton.2 hn)]

/-- A copy made when the dirty children are rebuilt is the copy that the node should have. -/
theorem copy_eq_fresh (apart : Apart n.children) {before table : List (ι × NodeObject (Rebuilt ι))}
    (absent : ∀ i ∈ n.identities, before.lookup i = none)
    (rebuilds : Rebuilds notes (n.dirtyChildren notes).reverse before table) :
    (n.copy notes table).map Rebuilt.source = n.fresh notes := by
  rw [copy, fresh]
  apply ext
  · exact identity_map _ _
  · exact origin_map _ _
  rw [children_map, children, children]
  conv_lhs => rw [← n.children.attach_map_subtype_val, List.map_map, List.map_map]
  refine List.map_congr_left fun c _ => ?_
  obtain ⟨c, hc⟩ := c
  rw [Function.comp_apply, Function.comp_apply]
  by_cases dirty : notes.dirty.contains c.identity
  · obtain ⟨m, hlookup, hm⟩ :=
      rebuilds.here c (List.mem_reverse.2 (List.mem_filter.2 ⟨hc, dirty⟩))
    rw [if_pos dirty, hlookup]
    exact hm
  · rw [if_neg dirty, rebuilds.apart, absent]
    · exact c.source_map_kept
    · exact identities_subset_of_mem_children hc _ c.identity_mem
    · intro e he hi
      obtain ⟨he, dirty'⟩ := List.mem_filter.1 (List.mem_reverse.1 he)
      obtain rfl := apart.eq_of_mem hc he c.identity_mem hi
      exact dirty dirty'

/-- The loop rebuilds a node when it finds it on the stack. -/
theorem rebuild_node (notes : Notes ι) {n : NodeObject ι} (distinct : n.Distinct)
    (stack : List (NodeObject ι × Bool)) (table : List (ι × NodeObject (Rebuilt ι)))
    (absent : ∀ i ∈ n.identities, table.lookup i = none) :
    ∃ after, rebuild notes ((n, false) :: stack) table = rebuild notes stack after ∧
      Rebuilds notes [n] table after := by
  have mem {c : NodeObject ι} (hc : c ∈ (n.dirtyChildren notes).reverse) : c ∈ n.children :=
    List.mem_of_mem_filter (List.mem_reverse.1 hc)
  have apart : Apart (n.dirtyChildren notes) := distinct.children.sublist List.filter_sublist
  obtain ⟨middle, hbelow, below⟩ := rebuild_nodes apart.reverse
    (fun c hc => rebuild_node notes (distinct.children.distinct c (mem hc))) ((n, true) :: stack) table
    fun c hc i hi => absent i (identities_subset_of_mem_children (mem hc) i hi)
  refine ⟨(n.identity, n.copy notes middle) :: middle, ?_, List.forall_mem_singleton.2 ?_, ?_⟩
  · rw [rebuild, hbelow, rebuild]
  · exact ⟨_, List.lookup_cons_self, copy_eq_fresh distinct.children absent below⟩
  · intro i hi
    have outside := List.forall_mem_singleton.1 hi
    have hne : (i == n.identity) = false :=
      beq_eq_false_iff_ne.2 fun heq => outside (heq ▸ n.identity_mem)
    rw [List.lookup_cons, hne]
    exact below.apart i fun c hc hic =>
      outside (identities_subset_of_mem_children (mem hc) i hic)
termination_by sizeOf n
decreasing_by exact sizeOf_lt_of_mem_children (mem hc)

/-! ### Notes of a part of a tree -/

/-- What the notes say of a part of a tree, given the items that come to it. -/
structure Follows (notes : Notes ι) (items : List Trivia) (n : NodeObject ι) : Prop where
  itemsOf : ∀ k ∈ n.identities,
    notes.itemsOf k = items.filter fun item => (n.owner item).identity = k
  dirty : ∀ k ∈ n.identities, k ∈ notes.dirty ↔ ∃ item ∈ items, k ∈ (n.way item).map identity

theorem Follows.below {items : List Trivia} (h : Follows notes items n) (distinct : n.Distinct)
    {i : Nat} {c : NodeObject ι} (hc : n.children[i]? = some c) :
    Follows notes (items.filter fun item => Trivia.childIndex n.spans item == some i) c := by
  have inside := identities_subset_of_mem_children (List.mem_of_getElem? hc)
  refine ⟨fun k hk => ?_, fun k hk => ?_⟩
  · rw [h.itemsOf k (inside k hk), List.filter_filter]
    refine List.filter_congr fun item _ => ?_
    rw [Bool.eq_iff_iff, Bool.and_eq_true, decide_eq_true_iff, decide_eq_true_iff, beq_iff_eq]
    exact owner_identity_iff distinct hc hk
  · rw [h.dirty k (inside k hk)]
    simp only [List.mem_filter, beq_iff_eq, mem_way_iff distinct hc hk]
    exact ⟨fun ⟨item, hitem, hway, hindex⟩ => ⟨item, ⟨hitem, hindex⟩, hway⟩,
      fun ⟨item, ⟨hitem, hindex⟩, hway⟩ => ⟨item, hitem, hway, hindex⟩⟩

/-- A node is dirty if an item comes to it. -/
theorem Follows.dirty_iff {items : List Trivia} (h : Follows notes items n) :
    n.identity ∈ notes.dirty ↔ items ≠ [] := by
  have start (item : Trivia) : n.identity ∈ (n.way item).map identity := by
    cases hnext : n.childAround n.spans item with
    | none => rw [way_of_stays hnext]; exact List.mem_cons_self
    | some c => rw [way_of_enters hnext]; exact List.mem_cons_self
  rw [h.dirty _ n.identity_mem]
  constructor
  · rintro ⟨item, hitem, -⟩
    exact List.ne_nil_of_mem hitem
  · intro hne
    obtain ⟨item, hitem⟩ := List.exists_mem_of_ne_nil items hne
    exact ⟨item, hitem, start item⟩

theorem Follows.itemsOf_self {items : List Trivia} (h : Follows notes items n)
    (distinct : n.Distinct) : notes.itemsOf n.identity =
      items.filter fun item => (Trivia.childIndex n.spans item).isNone := by
  rw [h.itemsOf _ n.identity_mem]
  refine List.filter_congr fun item _ => ?_
  rw [Bool.eq_iff_iff, decide_eq_true_iff, Option.isNone_iff_eq_none, ← childAround_eq_none]
  constructor
  · intro howner
    cases hnext : n.childAround n.spans item with
    | none => rfl
    | some c =>
      rw [owner_of_enters hnext] at howner
      refine absurd ?_ (distinct.identity_notMem (mem_children_of_childAround hnext))
      exact howner ▸ List.mem_map_of_mem (way_subset item c _ (c.owner_mem_way item))
  · intro hstays
    rw [owner_of_stays hstays]

theorem fresh_eq_attached {n : NodeObject ι} {items : List Trivia} (h : Follows notes items n)
    (distinct : n.Distinct) (hitems : items ≠ []) : n.fresh notes = n.attached items := by
  rw [fresh, attached, if_neg hitems, h.itemsOf_self distinct]
  congr 1
  refine List.ext_getElem (by simp) fun i h₁ h₂ => ?_
  have hi : i < n.children.length := by simpa using h₁
  have hc : n.children[i]? = some n.children[i] := List.getElem?_eq_getElem hi
  have hmem := List.mem_of_getElem? hc
  have below := h.below distinct hc
  simp only [List.getElem_map, List.getElem_mapIdx, List.getElem_attach, List.contains_iff_mem,
    below.dirty_iff]
  split
  next some => exact fresh_eq_attached below (distinct.children.distinct _ hmem) some
  next none =>
    rw [not_ne_iff] at none
    rw [none, attached, if_pos rfl]
termination_by sizeOf n
decreasing_by exact sizeOf_lt_of_mem_children hmem

/-- The loops make of a tree what the items make of it that go down it together. -/
theorem attach_eq_attached {root : NodeObject ι} (distinct : root.Distinct) (items : List Trivia) :
    (root.attach items).map Rebuilt.source = root.attached items := by
  have notes := notes_foldl distinct items
  rw [attach, notes.assigned]
  simp only [List.isEmpty_iff]
  split
  next none =>
    rw [none, attached, if_pos rfl]
    exact root.source_map_kept
  next some =>
    have follows : Follows (items.foldl root.note {}) items root :=
      ⟨fun k _ => notes.itemsOf k, fun k _ => notes.dirty k⟩
    obtain ⟨after, hafter, rebuilds⟩ :=
      rebuild_node (items.foldl root.note {}) distinct [] [] fun _ _ => rfl
    obtain ⟨m, hlookup, hm⟩ := rebuilds.here root List.mem_cons_self
    rw [hafter, rebuild, hlookup, ← fresh_eq_attached follows distinct some]
    exact hm

/-- No object stands at two places afterwards. -/
theorem Distinct.attach (distinct : n.Distinct) (items : List Trivia) :
    (n.attach items).Distinct := by
  have nodup : n.identities.Nodup := distinct
  rw [← identities_attached items, ← attach_eq_attached distinct, identities_map] at nodup
  exact nodup.of_map _

end NodeObject

/-! ### Documents -/

/-- Without items nothing is attached, at a node or below it. -/
theorem Trivia.attaching_idles : Trivia.attaching.Idles fun _ items => items = [] where
  here := by
    rintro n _ rfl
    exact congrArg (Origin.mk n.origin.span) (List.append_nil n.origin.trivia)
  below := by
    rintro n _ i c rfl -
    rfl

theorem Trivia.attaching_spansBy : Trivia.attaching.SpansBy id := fun _ _ _ => rfl

/-- Objects that show a tree show afterwards what the pass makes of it. -/
theorem NodeObject.Shows.attached {ι : Type} {o : NodeObject ι} {n : Node} (h : o.Shows n)
    (items : List Trivia) : (o.attached items).Shows (n.mapOrigins Trivia.attaching items) := by
  rw [NodeObject.attached]
  split
  next none =>
    rwa [none, Node.mapOrigins_idle Trivia.attaching_idles rfl]
  next some =>
    have spans : o.spans = n.childSpans.toArray := congrArg List.toArray h.spans
    apply NodeObject.ext
    · rfl
    · rw [NodeObject.origin_map, Node.objects, NodeObject.origin, NodeObject.origin,
        Node.origin_mapOrigins, spans, h.origin]
      rfl
    · rw [NodeObject.children_map, Node.children_objects, Node.children_mapOrigins,
        NodeObject.children, spans]
      have length : o.children.length = n.children.length := by
        simpa using congrArg List.length h.children
      refine List.ext_getElem (by simp [length]) fun i h₁ h₂ => ?_
      have hi : i < n.children.length := by simpa using h₂
      have hc := List.getElem_mem hi
      obtain ⟨e, he, shown⟩ := h.below (List.getElem?_eq_getElem hi)
      simp only [List.getElem_map, List.getElem_mapIdx, List.getElem_attach]
      obtain ⟨hi', rfl⟩ := List.getElem?_eq_some_iff.1 he
      exact shown.attached (Trivia.attaching.below items n.childSpans i)
termination_by sizeOf n
decreasing_by exact RelationNotation.sizeOf_lt_of_mem_children hc

/-- Whichever objects the nodes of a document are, if none stands at two places the loops make of the
document what the pass makes of it. -/
theorem Document.shows_attach {ι : Type} [DecidableEq ι] {d : Document} {o : NodeObject ι}
    (h : o.Shows (.document d)) (distinct : o.Distinct) (items : List Trivia) :
    (o.attach items).Shows (.document (d.mapOrigins Trivia.attaching items)) := by
  rw [NodeObject.Shows, ← NodeObject.map_map Rebuilt.source fun _ => (),
    NodeObject.attach_eq_attached distinct]
  exact h.attached items

theorem Document.attach_eq (d : Document) (items : List Trivia) :
    d.attach items = d.mapOrigins Trivia.attaching items := by
  refine withOrigins_of_shows_mapOrigins Trivia.attaching_spansBy (shows_attach ?_ ?_ items)
  · exact Node.shows_objects id (.document d)
  · exact Node.distinct_objects Function.injective_id (.document d)

/-- Each item goes to the statement around it, if there is one. -/
theorem Document.statements_attach (d : Document) {items : List Trivia}
    (h : InSequence (·.origin.span) d.statements)
    (hitems : ∀ item ∈ items, item.span.start.offset < item.span.stop.offset) :
    (d.attach items).statements = d.statements.map fun x =>
      x.mapOrigins Trivia.attaching (items.filter (x.origin.span.contains ·.span)) := by
  apply List.ext_getElem?
  intro i
  rw [Document.attach_eq, Document.mapOrigins]
  simp only [List.getElem?_mapIdx, List.getElem?_map]
  cases hx : d.statements[i]? with
  | none => rfl
  | some x =>
    have hs : (d.statements.map (·.origin.span))[i]? = some x.origin.span := by
      rw [List.getElem?_map, hx]
      rfl
    refine congrArg (fun items => some (x.mapOrigins Trivia.attaching items)) ?_
    apply List.filter_congr
    intro item hitem
    rw [Bool.eq_iff_iff, beq_iff_eq]
    exact Trivia.childIndex_eq_some_iff h.spans (hitems item hitem) hs


end RelationNotation
