import RelationNotation.Proofs.Tree.Node

/-!
The order of a walk. The trees on the stack of a walk are walked one behind another, so the walk over
a tree is its root and behind it the walks over the children. Told by paths, a walk goes through the
nodes in the order of their paths, a path before those it begins and those of one child before those
of the next, and leaves out none: `walk_in_order`.
-/

namespace RelationNotation.Node

theorem walk_eq_preorder (n : Node) : n.walk = n.preorder := by
  rw [walk, visit_eq_flatMap, List.flatMap_singleton]

/-- The walk over a tree is its root and behind it the walks over the children. -/
theorem walk_eq (n : Node) : n.walk = n :: n.children.flatMap fun c => c.2.walk := by
  rw [walk_eq_preorder, preorder_eq]
  simp only [walk_eq_preorder]

/-- The paths that lead to the nodes of a tree. -/
def paths (n : Node) : List (List Nat) :=
  [] :: n.children.attach.zipIdx.flatMap fun c => (paths c.1.1.2).map (c.2 :: ·)
termination_by sizeOf n
decreasing_by exact sizeOf_lt_of_mem_children c.1.2

theorem paths_eq (n : Node) :
    n.paths = [] :: n.children.zipIdx.flatMap fun c => c.1.2.paths.map (c.2 :: ·) := by
  rw [paths]
  conv_rhs => rw [← n.children.attach_map_subtype_val, List.zipIdx_map, List.flatMap_map]
  rfl

/-- A path leads to a node exactly if it is one of the paths of the tree. -/
theorem mem_paths_iff {n : Node} {path : List Nat} : path ∈ n.paths ↔ ∃ m, n.at? path = some m := by
  rw [paths_eq]
  induction path generalizing n with
  | nil => simp
  | cons i path ih =>
    simp only [List.mem_cons, reduceCtorEq, false_or, List.mem_flatMap, List.mem_map,
      at?_cons_eq_some_iff]
    constructor
    · rintro ⟨⟨c, j⟩, hc, below, hbelow, heq⟩
      obtain ⟨rfl, rfl⟩ := List.cons.inj heq
      rw [paths_eq] at hbelow
      obtain ⟨m, hm⟩ := ih.1 hbelow
      exact ⟨m, c, List.mk_mem_zipIdx_iff_getElem?.1 hc, hm⟩
    · rintro ⟨m, c, hc, hm⟩
      refine ⟨(c, i), List.mk_mem_zipIdx_iff_getElem?.2 hc, path, ?_, rfl⟩
      rw [paths_eq]
      exact ih.2 ⟨m, hm⟩

/-- The paths stand in their order, so none stands there twice. -/
theorem paths_sorted (n : Node) : n.paths.Pairwise (· < ·) := by
  fun_induction preorder n with
  | case1 n ih =>
    rw [paths_eq, List.pairwise_cons]
    constructor
    · intro path hpath
      obtain ⟨c, -, hpath⟩ := List.mem_flatMap.1 hpath
      obtain ⟨below, -, rfl⟩ := List.mem_map.1 hpath
      exact List.nil_lt_cons _ _
    -- The paths through one child are in order among themselves, those of two by their first steps.
    rw [List.pairwise_flatMap]
    constructor
    · rintro ⟨c, i⟩ hc
      have hmem : c ∈ n.children :=
        List.mem_of_getElem? (List.mk_mem_zipIdx_iff_getElem?.1 hc)
      refine List.pairwise_map.2 ((ih ⟨c, hmem⟩).imp fun h => ?_)
      exact List.cons_lt_cons_iff.2 (.inr ⟨rfl, h⟩)
    · have indexes : (n.children.zipIdx.map Prod.snd).Pairwise (· < ·) := by
        rw [List.zipIdx_map_snd]
        exact List.pairwise_lt_range'
      refine (List.pairwise_map.1 indexes).imp fun hlt path hpath other hother => ?_
      obtain ⟨p, -, rfl⟩ := List.mem_map.1 hpath
      obtain ⟨q, -, rfl⟩ := List.mem_map.1 hother
      exact List.cons_lt_cons_iff.2 (.inl hlt)

/-- The nodes visited are those that the paths lead to, in the order of the paths. -/
theorem walk_along_paths (n : Node) : n.walk.map some = n.paths.map n.at? := by
  fun_induction preorder n with
  | case1 n ih =>
    have below : ∀ c ∈ n.children.zipIdx,
        c.1.2.walk.map some = (c.1.2.paths.map (c.2 :: ·)).map n.at? := by
      rintro ⟨c, i⟩ hc
      have hi := List.mk_mem_zipIdx_iff_getElem?.1 hc
      rw [ih ⟨c, List.mem_of_getElem? hi⟩, List.map_map]
      refine List.map_congr_left fun path _ => ?_
      rw [Function.comp, at?, hi]
      rfl
    rw [walk_eq, paths_eq, List.map_cons, List.map_cons, at?_nil, List.map_flatMap, List.map_flatMap]
    conv_lhs => rw [← List.zipIdx_map_fst 0 n.children, List.flatMap_map]
    rw [List.flatMap_congr below]

/-- A walk visits the root and then walks each child in turn; it comes to the node at each path once,
in the order of the paths. -/
theorem walk_in_order (n : Node) :
    n.walk = n :: (n.children.flatMap fun c => c.2.walk) ∧
      n.walk.map some = n.paths.map n.at? ∧ n.paths.Pairwise (· < ·) ∧
      ∀ path, path ∈ n.paths ↔ ∃ m, n.at? path = some m :=
  ⟨n.walk_eq, n.walk_along_paths, n.paths_sorted, fun _ => mem_paths_iff⟩

end RelationNotation.Node
