import RelationNotation.Proofs.Tree.Attach
import RelationNotation.Proofs.Tree.Object

/-!
What the search for owners notes. The spans that are looked up are those of the node at hand, since
in a tree without an object at two places an identity belongs to one node; so every item takes the
way that it would take without a cache, and the notes say where: `notes_foldl`.
-/

namespace RelationNotation

namespace NodeObject
variable {ι : Type} {root n : NodeObject ι}

/-! ### Ways -/

/-- The nodes from one down to the deepest that an item goes to. -/
def way (item : Trivia) (n : NodeObject ι) : List (NodeObject ι) :=
  match _h : n.childAround n.spans item with
  | some c => n :: way item c
  | none => [n]
termination_by sizeOf n
decreasing_by exact sizeOf_lt_of_mem_children (mem_children_of_childAround _h)

/-- The deepest node that an item goes to. -/
def owner (item : Trivia) (n : NodeObject ι) : NodeObject ι := (n.way item).getLastD n

section
variable {item : Trivia} {c : NodeObject ι}

theorem way_of_enters (h : n.childAround n.spans item = some c) :
    n.way item = n :: c.way item := by
  rw [way]
  split <;> simp_all

theorem way_of_stays (h : n.childAround n.spans item = none) : n.way item = [n] := by
  rw [way]
  split <;> simp_all

theorem way_ne_nil (item : Trivia) (n : NodeObject ι) : n.way item ≠ [] := by
  rw [way]
  split <;> simp

theorem owner_of_enters (h : n.childAround n.spans item = some c) :
    n.owner item = c.owner item := by
  rw [owner, way_of_enters h, List.getLastD_cons, owner, List.getLastD_eq_getLast?,
    List.getLastD_eq_getLast?, List.getLast?_eq_some_getLast (c.way_ne_nil item)]
  rfl

theorem owner_of_stays (h : n.childAround n.spans item = none) : n.owner item = n := by
  rw [owner, way_of_stays h]
  rfl

end

/-- Ways and owners by recursion: an item stays at a node or enters a child of it. -/
theorem way_induction (item : Trivia) {motive : NodeObject ι → Prop}
    (stays : ∀ n, n.childAround n.spans item = none → motive n)
    (enters : ∀ n c, n.childAround n.spans item = some c → motive c → motive n)
    (n : NodeObject ι) : motive n :=
  match h : n.childAround n.spans item with
  | none => stays n h
  | some c => enters n c h (way_induction item stays enters c)
termination_by sizeOf n
decreasing_by exact sizeOf_lt_of_mem_children (mem_children_of_childAround h)

theorem owner_mem_way (item : Trivia) (n : NodeObject ι) : n.owner item ∈ n.way item := by
  induction n using way_induction item with
  | stays n h => rw [owner_of_stays h, way_of_stays h]; exact List.mem_singleton_self n
  | enters n c h ih => rw [owner_of_enters h, way_of_enters h]; exact List.mem_cons_of_mem n ih

theorem way_subset (item : Trivia) (n : NodeObject ι) : ∀ m ∈ n.way item, m ∈ n.nodes := by
  induction n using way_induction item with
  | stays n h =>
    rw [way_of_stays h]
    exact fun m hm => List.mem_singleton.1 hm ▸ n.mem_nodes_self
  | enters n c h ih =>
    rw [way_of_enters h]
    refine List.forall_mem_cons.2 ⟨n.mem_nodes_self, fun m hm => ?_⟩
    exact mem_nodes_iff.2 (.inr ⟨c, mem_children_of_childAround h, ih m hm⟩)

/-! ### The cache -/

variable [DecidableEq ι]

/-- What is looked up of a node of a tree is right. -/
def CacheOf (root : NodeObject ι) (cache : List (ι × Array Span)) : Prop :=
  ∀ m ∈ root.nodes, ∀ spans, cache.lookup m.identity = some spans → spans = m.spans

section
variable (distinct : root.Distinct)
include distinct

theorem spansIn_eq {cache : List (ι × Array Span)} (hcache : root.CacheOf cache)
    (hn : n ∈ root.nodes) :
    ∃ cache', n.spansIn cache = (n.spans, cache') ∧ root.CacheOf cache' := by
  unfold spansIn
  split
  next spans hspans => exact ⟨cache, by rw [hcache n hn spans hspans], hcache⟩
  next hspans =>
    refine ⟨_, rfl, fun m hm spans h => ?_⟩
    rw [List.lookup_cons] at h
    split at h
    next hidentity =>
      obtain rfl := Option.some.inj h
      rw [distinct.eq_of_identity hm hn (eq_of_beq hidentity)]
    next => exact hcache m hm spans h

theorem ownerPath_eq (item : Trivia) {n : NodeObject ι} {cache : List (ι × Array Span)}
    (hcache : root.CacheOf cache) (hn : n ∈ root.nodes) :
    ∃ cache', n.ownerPath item cache = (n.way item, cache') ∧ root.CacheOf cache' := by
  induction n using way_induction item generalizing cache with
  | stays n h =>
    obtain ⟨cache', hspans, hcache'⟩ := spansIn_eq distinct hcache hn
    refine ⟨cache', ?_, hcache'⟩
    rw [ownerPath, hspans, way_of_stays h]
    dsimp only
    split
    next c hc => cases h.symm.trans hc
    next => rfl
  | enters n c h ih =>
    obtain ⟨cache', hspans, hcache'⟩ := spansIn_eq distinct hcache hn
    have hc := mem_nodes_of_mem_children hn (mem_children_of_childAround h)
    obtain ⟨cache'', hpath, hcache''⟩ := ih hcache' hc
    refine ⟨cache'', ?_, hcache''⟩
    rw [ownerPath, hspans, way_of_enters h]
    dsimp only
    split
    next e he =>
      obtain rfl := Option.some.inj (he.symm.trans h)
      rw [hpath]
    next hnone => cases h.symm.trans hnone

/-! ### Notes -/

/-- What the notes say when some items have been noted. -/
structure NotesOf (root : NodeObject ι) (items : List Trivia) (notes : Notes ι) : Prop where
  cache : root.CacheOf notes.cache
  assigned : notes.assigned.isEmpty = items.isEmpty
  itemsOf : ∀ i, notes.itemsOf i = items.filter fun item => (root.owner item).identity = i
  dirty : ∀ i, i ∈ notes.dirty ↔ ∃ item ∈ items, i ∈ (root.way item).map identity

omit distinct in
theorem NotesOf.none : NotesOf root [] {} :=
  ⟨fun _ _ _ h => (nomatch h), rfl, fun _ => rfl, fun _ => by simp⟩

/-- One more item is noted at its owner and on its way. -/
theorem NotesOf.note {items : List Trivia} {notes : Notes ι} (h : NotesOf root items notes)
    (item : Trivia) : NotesOf root (items ++ [item]) (root.note notes item) := by
  obtain ⟨cache, hpath, hcache⟩ := ownerPath_eq distinct item h.cache root.mem_nodes_self
  unfold NodeObject.note
  rw [hpath]
  refine ⟨hcache, by simp, fun i => ?_, fun i => ?_⟩
  · have itemsOf := h.itemsOf i
    rw [List.filter_append, ← itemsOf, Notes.itemsOf, List.lookup_cons]
    by_cases hi : i = (root.owner item).identity
    · subst hi
      simp [owner, Notes.itemsOf]
    · have hne : (i == (root.owner item).identity) = false := beq_eq_false_iff_ne.2 hi
      rw [← owner, hne]
      simp [Notes.itemsOf, Ne.symm hi]
  · rw [List.mem_append, h.dirty]
    simp only [List.mem_append, List.mem_singleton]
    constructor
    · rintro (hi | ⟨old, hold, hi⟩)
      · exact ⟨item, .inr rfl, hi⟩
      · exact ⟨old, .inl hold, hi⟩
    · rintro ⟨old, hold | rfl, hi⟩
      · exact .inr ⟨old, hold, hi⟩
      · exact .inl hi

/-- The notes say of every item what way it takes and where it ends. -/
theorem notes_foldl (items : List Trivia) : NotesOf root items (items.foldl root.note {}) := by
  have further {first : List Trivia} {notes : Notes ι} (h : NotesOf root first notes) :
      NotesOf root (first ++ items) (items.foldl root.note notes) := by
    induction items generalizing first notes with
    | nil => rwa [List.append_nil]
    | cons item items ih => simpa using ih (h.note distinct item)
  exact further .none

end

end NodeObject

end RelationNotation
