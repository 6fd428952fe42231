import Mathlib.Data.List.Nodup
import Mathlib.Data.List.Pairwise
import RelationNotation.Proofs.Tree.Idle
import RelationNotation.Tree.Object

/-!
Trees of objects. In a tree without an object at two places a node is known by its identity. What
objects show of a tree is its origins, and these are enough to read a document off them:
`Document.withOrigins_of_shows`.
-/

namespace RelationNotation

namespace NodeObject
variable {ι κ : Type} {n m c : NodeObject ι}

theorem ext (hidentity : n.identity = m.identity) (horigin : n.origin = m.origin)
    (hchildren : n.children = m.children) : n = m := by
  cases n
  cases m
  exact congr (congrArg₂ mk hidentity horigin) hchildren

/-! ### Nodes -/

theorem nodes_eq (n : NodeObject ι) : n.nodes = n :: n.children.flatMap nodes := by
  rw [nodes]
  conv_rhs => rw [← n.children.attach_map_subtype_val, List.flatMap_map]

theorem mem_nodes_self (n : NodeObject ι) : n ∈ n.nodes := by
  rw [nodes_eq]
  exact List.mem_cons_self

theorem mem_nodes_iff : m ∈ n.nodes ↔ m = n ∨ ∃ c ∈ n.children, m ∈ c.nodes := by
  rw [nodes_eq, List.mem_cons, List.mem_flatMap]

theorem mem_nodes_of_mem_children {root : NodeObject ι} (hm : m ∈ root.nodes)
    (hc : c ∈ m.children) : c ∈ root.nodes := by
  rcases mem_nodes_iff.1 hm with rfl | ⟨e, he, hm⟩
  · exact mem_nodes_iff.2 (.inr ⟨c, hc, c.mem_nodes_self⟩)
  · exact mem_nodes_iff.2 (.inr ⟨e, he, mem_nodes_of_mem_children hm hc⟩)
termination_by sizeOf root
decreasing_by exact sizeOf_lt_of_mem_children he

/-! ### Identities -/

def identities (n : NodeObject ι) : List ι := n.nodes.map identity

theorem identities_eq (n : NodeObject ι) :
    n.identities = n.identity :: n.children.flatMap identities := by
  rw [identities, nodes_eq, List.map_cons, List.map_flatMap]
  rfl

theorem identity_mem (n : NodeObject ι) : n.identity ∈ n.identities :=
  List.mem_map_of_mem n.mem_nodes_self

theorem identities_subset_of_mem_children (hc : c ∈ n.children) :
    ∀ i ∈ c.identities, i ∈ n.identities := by
  intro i hi
  rw [identities_eq]
  exact List.mem_cons_of_mem _ (List.mem_flatMap.2 ⟨c, hc, hi⟩)

/-- Parts of a tree in which no object stands twice. -/
structure Apart (cs : List (NodeObject ι)) : Prop where
  distinct : ∀ c ∈ cs, c.Distinct
  disjoint : cs.Pairwise fun c e => c.identities.Disjoint e.identities

theorem Distinct.children (h : n.Distinct) : Apart n.children := by
  have nodup : n.identities.Nodup := h
  rw [identities_eq, List.nodup_cons, List.nodup_flatMap] at nodup
  exact ⟨nodup.2.1, nodup.2.2⟩

theorem Distinct.identity_notMem (h : n.Distinct) (hc : c ∈ n.children) :
    n.identity ∉ c.identities := by
  have nodup : n.identities.Nodup := h
  rw [identities_eq, List.nodup_cons] at nodup
  exact fun hi => nodup.1 (List.mem_flatMap.2 ⟨c, hc, hi⟩)

/-- In a tree without an object at two places, two nodes with one identity are one node. -/
theorem Distinct.eq_of_identity (h : n.Distinct) {m m' : NodeObject ι} (hm : m ∈ n.nodes)
    (hm' : m' ∈ n.nodes) (hidentity : m.identity = m'.identity) : m = m' :=
  List.inj_on_of_nodup_map h hm hm' hidentity

/-- An identity belongs to one part. -/
theorem Apart.index_unique {cs : List (NodeObject ι)} (h : Apart cs) {i j : Nat}
    {c e : NodeObject ι} (hc : cs[i]? = some c) (he : cs[j]? = some e) {k : ι}
    (hkc : k ∈ c.identities) (hke : k ∈ e.identities) : i = j := by
  obtain ⟨hi, rfl⟩ := List.getElem?_eq_some_iff.1 hc
  obtain ⟨hj, rfl⟩ := List.getElem?_eq_some_iff.1 he
  rcases Nat.lt_trichotomy i j with hlt | heq | hgt
  · exact absurd hke (List.pairwise_iff_getElem.1 h.disjoint i j hi hj hlt hkc)
  · exact heq
  · exact absurd hkc (List.pairwise_iff_getElem.1 h.disjoint j i hj hi hgt hke)

theorem Apart.eq_of_mem {cs : List (NodeObject ι)} (h : Apart cs) {c e : NodeObject ι}
    (hc : c ∈ cs) (he : e ∈ cs) {k : ι} (hkc : k ∈ c.identities) (hke : k ∈ e.identities) :
    c = e := by
  obtain ⟨i, hi⟩ := List.mem_iff_getElem?.1 hc
  obtain ⟨j, hj⟩ := List.mem_iff_getElem?.1 he
  obtain rfl := h.index_unique hi hj hkc hke
  exact Option.some.inj (hi.symm.trans hj)

theorem Apart.sublist {cs es : List (NodeObject ι)} (h : Apart es) (hs : cs.Sublist es) :
    Apart cs :=
  ⟨fun c hc => h.distinct c (hs.subset hc), h.disjoint.sublist hs⟩

theorem Apart.reverse {cs : List (NodeObject ι)} (h : Apart cs) : Apart cs.reverse :=
  ⟨fun c hc => h.distinct c (List.mem_reverse.1 hc),
    List.pairwise_reverse.2 (h.disjoint.imp List.disjoint_symm)⟩

/-! ### Other identities -/

section
variable (f : ι → κ)

@[simp] theorem identity_map (n : NodeObject ι) : (n.map f).identity = f n.identity := by
  rw [map, identity]

@[simp] theorem origin_map (n : NodeObject ι) : (n.map f).origin = n.origin := by
  rw [map, origin]

@[simp] theorem children_map (n : NodeObject ι) : (n.map f).children = n.children.map (map f) := by
  rw [map, children]
  conv_rhs => rw [← n.children.attach_map_subtype_val, List.map_map]
  rfl

theorem identities_map (n : NodeObject ι) : (n.map f).identities = n.identities.map f := by
  rw [identities_eq, identities_eq, identity_map, children_map, List.map_cons, List.flatMap_map,
    List.map_flatMap]
  exact congrArg _ (List.flatMap_congr fun c hc => identities_map c)
termination_by sizeOf n
decreasing_by exact sizeOf_lt_of_mem_children hc

end

theorem map_id (n : NodeObject ι) : n.map id = n := by
  apply ext
  · simp
  · simp
  · rw [children_map, List.map_congr_left fun c hc => map_id c, List.map_id']
termination_by sizeOf n
decreasing_by exact sizeOf_lt_of_mem_children hc

theorem map_map {μ : Type} (f : ι → κ) (g : κ → μ) (n : NodeObject ι) :
    (n.map f).map g = n.map (g ∘ f) := by
  apply ext
  · simp
  · simp
  · simp only [children_map, List.map_map]
    exact List.map_congr_left fun c hc => map_map f g c
termination_by sizeOf n
decreasing_by exact sizeOf_lt_of_mem_children hc

end NodeObject

/-! ### What objects show -/

theorem Node.children_objects {ι : Type} (identity : List Nat → ι) (n : Node) :
    (n.objects identity).children =
      n.children.mapIdx fun i c => c.2.objects fun path => identity (i :: path) := by
  rw [objects, NodeObject.children]
  apply List.ext_getElem (by simp)
  intro i h₁ h₂
  simp

/-- Objects show a tree if they stand as its nodes do and have their origins. -/
def NodeObject.Shows {ι : Type} (o : NodeObject ι) (n : Node) : Prop :=
  o.map (fun _ => ()) = n.objects fun _ => ()

theorem Node.shows_objects {ι : Type} (identity : List Nat → ι) (n : Node) :
    (n.objects identity).Shows n := by
  apply NodeObject.ext
  · rfl
  · rw [NodeObject.origin_map, objects, objects]
    rfl
  · rw [NodeObject.children_map, children_objects, children_objects]
    apply List.ext_getElem (by simp)
    intro i h₁ h₂
    rw [List.length_mapIdx] at h₂
    have hc := List.getElem_mem h₂
    have below : NodeObject.map (fun _ => ()) _ = _ :=
      shows_objects (fun path => identity (i :: path)) n.children[i].2
    simpa using below
termination_by sizeOf n
decreasing_by exact sizeOf_lt_of_mem_children hc

theorem Node.exists_path_of_mem_identities {ι : Type} {identity : List Nat → ι} {n : Node} {k : ι}
    (h : k ∈ (n.objects identity).identities) : ∃ path, identity path = k := by
  rw [NodeObject.identities_eq, List.mem_cons, List.mem_flatMap] at h
  rcases h with rfl | ⟨c, hc, hk⟩
  · exact ⟨[], by rw [objects]; rfl⟩
  · rw [children_objects] at hc
    obtain ⟨i, hi, rfl⟩ := List.mem_mapIdx.1 hc
    have hmem := List.getElem_mem hi
    obtain ⟨path, rfl⟩ := exists_path_of_mem_identities hk
    exact ⟨i :: path, rfl⟩
termination_by sizeOf n
decreasing_by exact sizeOf_lt_of_mem_children hmem

/-- Paths that lead to different objects lead to no object twice. -/
theorem Node.distinct_objects {ι : Type} {identity : List Nat → ι}
    (h : Function.Injective identity) (n : Node) : (n.objects identity).Distinct := by
  have start : (n.objects identity).identity = identity [] := by rw [objects]; rfl
  have below {i : Nat} {c : Node} {k : ι}
      (hk : k ∈ (c.objects fun path => identity (i :: path)).identities) :
      ∃ path, identity (i :: path) = k := exists_path_of_mem_identities hk
  have nodup : (n.objects identity).identities.Nodup := by
    rw [NodeObject.identities_eq, start, children_objects, List.nodup_cons, List.nodup_flatMap]
    refine ⟨fun hk => ?_, fun c hc => ?_, List.pairwise_iff_getElem.2 fun i j hi hj hij => ?_⟩
    · obtain ⟨c, hc, hk⟩ := List.mem_flatMap.1 hk
      obtain ⟨i, hi, rfl⟩ := List.mem_mapIdx.1 hc
      obtain ⟨path, hpath⟩ := below hk
      cases h hpath
    · obtain ⟨i, hi, rfl⟩ := List.mem_mapIdx.1 hc
      have hmem := List.getElem_mem hi
      exact distinct_objects (fun p q heq => (List.cons.inj (h heq)).2) n.children[i].2
    · show List.Disjoint _ _
      rw [List.getElem_mapIdx, List.getElem_mapIdx]
      intro k hk hk'
      obtain ⟨path, rfl⟩ := below hk
      obtain ⟨path', hpath'⟩ := below hk'
      exact Nat.ne_of_gt hij (List.cons.inj (h hpath')).1
  exact nodup
termination_by sizeOf n
decreasing_by exact sizeOf_lt_of_mem_children hmem

section
variable {ι : Type} {o : NodeObject ι} {n : Node}

theorem NodeObject.Shows.origin (h : o.Shows n) : o.origin = n.origin := by
  have := congrArg NodeObject.origin h
  rwa [NodeObject.origin_map, Node.objects] at this

theorem NodeObject.Shows.children (h : o.Shows n) :
    o.children.map (NodeObject.map fun _ => ()) = n.children.map (·.2.objects fun _ => ()) := by
  have := congrArg NodeObject.children h
  rw [NodeObject.children_map, Node.children_objects] at this
  rw [this]
  apply List.ext_getElem <;> simp

theorem NodeObject.Shows.spans (h : o.Shows n) :
    o.children.map (·.origin.span) = n.childSpans := by
  have shown := congrArg (List.map (·.origin.span)) h.children
  rw [List.map_map, List.map_map] at shown
  rw [Node.childSpans]
  refine Eq.trans (List.map_congr_left fun c _ => ?_) (shown.trans (List.map_congr_left fun c _ => ?_))
  · rw [Function.comp_apply, NodeObject.origin_map]
  · rw [Function.comp_apply, Node.objects]
    rfl

theorem NodeObject.Shows.below (h : o.Shows n) {i : Nat} {c : String × Node}
    (hc : n.children[i]? = some c) : ∃ e, o.children[i]? = some e ∧ e.Shows c.2 := by
  have shown := congrArg (·[i]?) h.children
  simp only [List.getElem?_map, hc] at shown
  exact Option.map_eq_some_iff.1 shown

/-- A document is read off the objects that show it. -/
theorem Document.withOrigins_of_shows {d : Document} (h : o.Shows (.document d)) :
    d.withOrigins o = d := by
  have idles : (OriginMap.ofObjects (ι := ι)).Idles fun n s => ∃ o, s = some o ∧ o.Shows n :=
    { here := by
        rintro n _ ⟨o, rfl, h⟩
        exact h.origin
      below := by
        rintro n _ i c ⟨o, rfl, h⟩ hc
        exact h.below hc }
  exact Node.document.inj (Node.mapOrigins_idle idles ⟨o, rfl, h⟩)

/-- Objects that show what a pass makes of a document turn the document into that. -/
theorem Document.withOrigins_of_shows_mapOrigins {σ : Type} {p : OriginMap σ} {φ : Span → Span}
    (hp : p.SpansBy φ) {s : σ} {d : Document} (h : o.Shows (.document (d.mapOrigins p s))) :
    d.withOrigins o = d.mapOrigins p s := by
  have fuses : p.Fuses φ (OriginMap.ofObjects (ι := ι)) .ofObjects fun _ t u => t = u :=
    { span := hp
      here := by
        rintro s t _ rfl spans origin
        rfl
      below := by
        rintro s t _ rfl spans i
        rfl }
  rw [← withOrigins_of_shows h]
  exact (d.mapOrigins_fuse fuses rfl).symm

end

end RelationNotation
