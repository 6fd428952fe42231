import RelationNotation.Path.Folder

/-!
What a search for paths finds. No name in a tree of folders leads up again, so the names that a
search puts together lead to what it read them from, and a search at any depth for the names that a
pattern matches finds each entry below its folder by these names: `FileNode.mem_search_wild`.
-/

namespace RelationNotation

/-! ### Paths without a step up -/

namespace Path

theorem resolveParts_of_notMem {parts : List Text} (level : ['.', '.'] ∉ parts)
    (before : List Text) : resolveParts before parts = before.reverse ++ parts := by
  induction parts generalizing before with
  | nil => rw [resolveParts, List.append_nil]
  | cons x xs ih =>
    obtain ⟨hx, hxs⟩ := List.ne_and_not_mem_of_not_mem_cons level
    rw [resolveParts, if_neg hx.symm, ih hxs, List.reverse_cons, List.append_assoc,
      List.singleton_append]

theorem notMem_resolveParts {before : List Text} (level : ['.', '.'] ∉ before)
    (parts : List Text) : ['.', '.'] ∉ resolveParts before parts := by
  induction parts generalizing before with
  | nil =>
    rw [resolveParts, List.mem_reverse]
    exact level
  | cons x xs ih =>
    rw [resolveParts]
    split
    case isTrue => exact ih fun h => level (List.mem_of_mem_tail h)
    case isFalse hx => exact ih (List.not_mem_cons_of_ne_of_not_mem (Ne.symm hx) level)

theorem splitSlashes_of_notMem {t : Text} (h : '/' ∉ t) : splitSlashes t = [t] := by
  induction t with
  | nil => rfl
  | cons c cs ih =>
    obtain ⟨hc, hcs⟩ := List.ne_and_not_mem_of_not_mem_cons h
    rw [splitSlashes, if_neg hc.symm, ih hcs]
    rfl

end Path

/-! ### Trees -/

namespace FileNode

/-- No entry of a tree has the name that leads up. -/
inductive Downward : FileNode → Prop
  | file (content : ByteArray) : Downward (.file content)
  | folder {es : List (Text × FileNode)} (names : ∀ e ∈ es, e.1 ≠ ['.', '.'])
      (nodes : ∀ e ∈ es, Downward e.2) : Downward (.folder es)

theorem downward_folder {es : List (Text × FileNode)} :
    (folder es).Downward ↔ ∀ e ∈ es, e.1 ≠ ['.', '.'] ∧ e.2.Downward := by
  constructor
  · rintro (_ | ⟨names, nodes⟩)
    exact fun e he => ⟨names e he, nodes e he⟩
  · intro h
    exact .folder (fun e he => (h e he).1) fun e he => (h e he).2

theorem downward_empty : (folder []).Downward :=
  downward_folder.2 fun _ he => nomatch he

theorem downward_single {name : Text} (level : name ≠ ['.', '.']) {n : FileNode}
    (down : n.Downward) : (folder [(name, n)]).Downward :=
  downward_folder.2 (List.forall_mem_singleton.2 ⟨level, down⟩)

theorem downward_entries {n : FileNode} (down : n.Downward) : (folder n.entries).Downward := by
  cases n with
  | file => exact downward_empty
  | folder es => exact down

theorem downward_setEntry {name : Text} (level : name ≠ ['.', '.'])
    {f : Option FileNode → FileNode}
    (keeps : ∀ old : Option FileNode, (∀ m ∈ old, m.Downward) → (f old).Downward)
    {es : List (Text × FileNode)} (down : (folder es).Downward) :
    (folder (setEntry name f es)).Downward := by
  rw [downward_folder] at down ⊢
  induction es with
  | nil => exact List.forall_mem_singleton.2 ⟨level, keeps none fun _ hm => nomatch hm⟩
  | cons e es ih =>
    obtain ⟨he, hes⟩ := List.forall_mem_cons.1 down
    unfold setEntry
    split
    case isTrue =>
      have replaced := keeps (some e.2) fun m hm => Option.some.inj hm ▸ he.2
      exact List.forall_mem_cons.2 ⟨⟨level, replaced⟩, hes⟩
    case isFalse => exact List.forall_mem_cons.2 ⟨he, ih hes⟩

/-- A tree put together from paths without a step up has none. -/
theorem downward_insert {x : FileNode} (hx : x.Downward) {names : List Text}
    (level : ['.', '.'] ∉ names) {old : Option FileNode} (down : ∀ m ∈ old, m.Downward) :
    (insert x names old).Downward := by
  induction names generalizing old with
  | nil =>
    unfold insert
    split
    · exact down _ rfl
    · exact hx
  | cons name names ih =>
    obtain ⟨hname, hnames⟩ := List.ne_and_not_mem_of_not_mem_cons level
    apply downward_setEntry hname.symm fun _ => ih hnames
    cases old with
    | none => exact downward_empty
    | some m => exact downward_entries (down m rfl)

theorem get?_append (n : FileNode) (xs ys : List Text) :
    n.get? (xs ++ ys) = (n.get? xs).bind fun m => m.get? ys := by
  induction xs generalizing n with
  | nil => rfl
  | cons x xs ih =>
    rw [List.cons_append, get?, get?]
    cases n.entry? x with
    | none => rfl
    | some m => exact ih m

theorem get?_singleton (n : FileNode) (name : Text) : n.get? [name] = n.entry? name := by
  rw [get?]
  cases n.entry? name <;> rfl

theorem isSome_entry? {n : FileNode} {name : Text} :
    (n.entry? name).isSome ↔ ∃ m, (name, m) ∈ n.entries := by
  unfold entry?
  rw [Option.isSome_map, List.find?_isSome]
  constructor
  · rintro ⟨⟨x, m⟩, he, hx⟩
    exact ⟨m, by rwa [← beq_iff_eq.1 hx]⟩
  · rintro ⟨m, he⟩
    exact ⟨_, he, beq_iff_eq.2 rfl⟩

theorem mem_of_entry? {n m : FileNode} {name : Text} (h : n.entry? name = some m) :
    (name, m) ∈ n.entries := by
  obtain ⟨⟨x, m⟩, he, rfl⟩ := Option.map_eq_some_iff.1 h
  have hx := List.find?_some he
  rw [← beq_iff_eq.1 hx]
  exact List.mem_of_find?_eq_some he

/-- A path without a step up leads where its names do. -/
theorem resolve?_of_notMem (root : FileNode) {parts : List Text} (level : ['.', '.'] ∉ parts) :
    root.resolve? parts = root.get? parts := by
  rw [resolve?, Path.resolveParts_of_notMem level, List.reverse_nil, List.nil_append]

/-! ### The folders of a tree -/

theorem mem_foldersOfEntries {above q : List Text} {es : List (Text × FileNode)} :
    q ∈ foldersOfEntries above es ↔ ∃ e ∈ es, q ∈ foldersFrom (above ++ [e.1]) e.2 := by
  induction es with
  | nil =>
    constructor
    · exact fun h => nomatch h
    · exact fun ⟨_, he, _⟩ => nomatch he
  | cons e es ih =>
    rw [foldersOfEntries, List.mem_append, ih]
    constructor
    · rintro (h | ⟨d, hd, h⟩)
      · exact ⟨e, List.mem_cons_self, h⟩
      · exact ⟨d, List.mem_cons_of_mem _ hd, h⟩
    · rintro ⟨d, hd, h⟩
      rcases List.mem_cons.1 hd with rfl | hd
      · exact .inl h
      · exact .inr ⟨d, hd, h⟩

/-- The names that lead to the folders of a tree lead on from those above, and never up. -/
theorem eq_append_of_mem_foldersFrom {n : FileNode} (down : n.Downward) {above q : List Text}
    (h : q ∈ foldersFrom above n) : ∃ names, ['.', '.'] ∉ names ∧ q = above ++ names := by
  induction down generalizing above with
  | file => cases h
  | @folder es names _ ih =>
    rcases List.mem_cons.1 h with rfl | h
    · exact ⟨[], List.not_mem_nil, (List.append_nil _).symm⟩
    · obtain ⟨e, he, h⟩ := mem_foldersOfEntries.1 h
      obtain ⟨rest, level, rfl⟩ := ih e he h
      refine ⟨e.1 :: rest, List.not_mem_cons_of_ne_of_not_mem (names e he).symm level, ?_⟩
      rw [List.append_assoc, List.singleton_append]

/-- The folders of a tree are all there. -/
theorem mem_foldersFrom_of_get? {n : FileNode} {names : List Text}
    {es : List (Text × FileNode)} (h : n.get? names = some (.folder es)) (above : List Text) :
    above ++ names ∈ foldersFrom above n := by
  induction names generalizing n above with
  | nil =>
    obtain rfl := Option.some.inj h
    rw [List.append_nil]
    exact List.mem_cons_self
  | cons x xs ih =>
    obtain ⟨m, hm, h⟩ := Option.bind_eq_some_iff.1 h
    have he := mem_of_entry? hm
    have found := ih h (above ++ [x])
    cases n with
    | file => cases he
    | folder es =>
      rw [List.append_assoc, List.singleton_append] at found
      exact List.mem_cons_of_mem _ (mem_foldersOfEntries.2 ⟨_, he, found⟩)

/-! ### Searches -/

/-- The last part of a search finds the entries that it matches in the folder it begins at. -/
theorem mem_search_wild {root : FileNode} {p : Pattern} {above q : List Text}
    (level : ['.', '.'] ∉ above) :
    q ∈ root.search [.wild p] above ↔
      ∃ name, q = above ++ [name] ∧ (root.get? q).isSome ∧ p.isMatch name = true := by
  have entries : ∀ n, root.get? above = some n → ∀ name,
      (root.get? (above ++ [name])).isSome ↔ ∃ m, (name, m) ∈ n.entries := by
    intro n hn name
    rw [get?_append, hn, Option.bind_some, get?_singleton, isSome_entry?]
  rw [search, resolve?_of_notMem root level]
  cases here : root.get? above with
  | none =>
    constructor
    · exact fun h => nomatch h
    · rintro ⟨name, rfl, there, -⟩
      rw [get?_append, here] at there
      cases there
  | some n =>
    simp only [List.mem_flatMap, List.mem_filter, List.isEmpty_nil, Bool.true_or, Bool.true_and,
      search, List.mem_singleton]
    constructor
    · rintro ⟨e, ⟨he, hp⟩, rfl⟩
      exact ⟨e.1, rfl, (entries n here e.1).2 ⟨e.2, he⟩, hp⟩
    · rintro ⟨name, rfl, there, hp⟩
      obtain ⟨m, he⟩ := (entries n here name).1 there
      exact ⟨_, ⟨he, hp⟩, rfl⟩

/-- No name on the way to a node of the tree leads up, nor does one below the node. -/
theorem Downward.along {n m : FileNode} (down : n.Downward) {names : List Text}
    (h : n.get? names = some m) : ['.', '.'] ∉ names ∧ m.Downward := by
  induction names generalizing n with
  | nil =>
    obtain rfl := Option.some.inj h
    exact ⟨List.not_mem_nil, down⟩
  | cons x xs ih =>
    obtain ⟨c, hc, rest⟩ := Option.bind_eq_some_iff.1 h
    have he := mem_of_entry? hc
    cases down with
    | file => cases he
    | folder names nodes =>
      obtain ⟨level, below⟩ := ih (nodes _ he) rest
      exact ⟨List.not_mem_cons_of_ne_of_not_mem (names _ he).symm level, below⟩

/-- At any depth below a folder, a search finds the entries that its last part matches. -/
theorem mem_search_anyDepth {root : FileNode} (down : root.Downward) {p : Pattern}
    {above q : List Text} (level : ['.', '.'] ∉ above) :
    q ∈ root.search [.anyDepth, .wild p] above ↔
      ∃ names name, q = above ++ names ++ [name] ∧ (root.get? q).isSome ∧
        p.isMatch name = true := by
  have onward {names : List Text} (h : ['.', '.'] ∉ names) : ['.', '.'] ∉ above ++ names :=
    fun mem => (List.mem_append.1 mem).elim level h
  rw [search, resolve?_of_notMem root level]
  cases here : root.get? above with
  | none =>
    constructor
    · exact fun h => nomatch h
    · rintro ⟨names, name, rfl, there, -⟩
      rw [List.append_assoc, get?_append, here] at there
      cases there
  | some n =>
    have below := (down.along here).2
    rw [List.mem_flatMap]
    constructor
    · rintro ⟨a, ha, h⟩
      obtain ⟨names, hnames, rfl⟩ := eq_append_of_mem_foldersFrom below ha
      obtain ⟨name, rfl, there, hp⟩ := (mem_search_wild (onward hnames)).1 h
      exact ⟨names, name, rfl, there, hp⟩
    · rintro ⟨names, name, rfl, there, hp⟩
      -- the entry stands in a node that has entries
      have above_there := there
      rw [List.append_assoc, get?_append, here, Option.bind_some, get?_append] at above_there
      cases hm : n.get? names with
      | none =>
        rw [hm] at above_there
        cases above_there
      | some m =>
        rw [hm, Option.bind_some, get?_singleton, isSome_entry?] at above_there
        obtain ⟨_, he⟩ := above_there
        cases m with
        | file => cases he
        | folder es =>
          have listed := mem_foldersFrom_of_get? hm above
          have hnames := onward (below.along hm).1
          exact ⟨_, listed, (mem_search_wild hnames).2 ⟨name, rfl, there, hp⟩⟩

end FileNode

/-! ### Searches for the ends of names -/

/-- Two stars next to each other need a star behind the first character. -/
theorem SearchPart.hasDoubleStar_cons {t : Text} (h : '*' ∉ t) (c : Char) :
    hasDoubleStar (c :: t) = false := by
  induction t generalizing c with
  | nil => simp [hasDoubleStar]
  | cons d ds ih =>
    obtain ⟨hd, hds⟩ := List.ne_and_not_mem_of_not_mem_cons h
    rw [hasDoubleStar, ih hds]
    intro _ _ same
    exact hd (List.cons.inj same).1.symm

/-- No character of a text means anything but itself in a search. -/
def Text.Literal (t : Text) : Prop := ∀ c ∈ t, c ∉ "/*?[".toList

instance : DecidablePred Text.Literal := fun t => List.decidableBAll (· ∉ "/*?[".toList) t

namespace Text.Literal
variable {t : Text}

theorem notMem (h : t.Literal) {c : Char} (hc : c ∈ "/*?[".toList) : c ∉ t := fun ht => h c ht hc

theorem of_cons {c : Char} (h : Literal (c :: t)) : t.Literal :=
  fun d hd => h d (List.mem_cons_of_mem c hd)

theorem ofTextWithin (h : t.Literal) {k : Nat} (enough : t.length ≤ k) :
    Pattern.ofTextWithin k t = t.map .char := by
  induction t generalizing k with
  | nil => cases k <;> rfl
  | cons c cs ih =>
    cases k with
    | zero => cases enough
    | succ k =>
      have own : ∀ d ∈ "/*?[".toList, c ≠ d := fun d hd hc => h c List.mem_cons_self (hc ▸ hd)
      rw [Pattern.ofTextWithin, if_neg (own '*' (by decide)), if_neg (own '?' (by decide)),
        if_neg (own '[' (by decide)), ih h.of_cons (Nat.le_of_succ_le_succ enough)]
      rfl

/-- A star before a literal text makes one part of a search. -/
theorem listOfText?_star (h : t.Literal) :
    SearchPart.listOfText? ('*' :: t) = some [.wild (.anyText :: t.map .char)] := by
  have noSlash : '/' ∉ '*' :: t :=
    List.not_mem_cons_of_ne_of_not_mem (by decide) (h.notMem (by decide))
  have parts : (Path.ofText ('*' :: t)).parts = ['*' :: t] := by
    rw [Path.ofText, Path.splitSlashes_of_notMem noSlash]
    rfl
  have noStar : '*' ∉ t := h.notMem (by decide)
  have lone : ('*' :: t : Text) ≠ ['*', '*'] := by
    intro same
    obtain rfl := (List.cons.inj same).2
    exact noStar List.mem_cons_self
  have single : ¬SearchPart.hasDoubleStar ('*' :: t) = true :=
    Bool.eq_false_iff.1 (SearchPart.hasDoubleStar_cons noStar _)
  have pattern : Pattern.ofText ('*' :: t) = .anyText :: t.map .char := by
    rw [Pattern.ofText, List.length_cons, Pattern.ofTextWithin, if_pos rfl,
      h.ofTextWithin (Nat.le_refl _)]
  have part : SearchPart.ofText? ('*' :: t) = some (.wild (.anyText :: t.map .char)) := by
    rw [SearchPart.ofText?, if_neg lone, if_neg single, pattern]
    rfl
  have last : ¬List.getLast? ('*' :: t) = some '/' := fun h => noSlash (List.mem_of_getLast? h)
  rw [SearchPart.listOfText?, parts, List.mapM_cons, part]
  exact congrArg some (if_neg last)

end Text.Literal

end RelationNotation
