import RelationNotation.Command.Inspect
import RelationNotation.Proofs.Path.Search

/-!
What discovery finds, for extensions that mean nothing but themselves: the files that a project
names, and every entry below a folder it names whose name ends in one of the extensions. Each is
found once, in the order of paths: `Project.discover_finds`. An entry may be a folder, so not all
that is found can be read: `Project.discover_finds_folder`. Nothing else stands in the way of
opening what is found: `Project.textAt_of_discover`.
-/

namespace RelationNotation

/-! ### Lists without repetitions -/

section Repetitions
variable {α : Type}

theorem eraseRepsBy_loop (r : α → α → Bool) (a : α) (l before : List α) :
    List.eraseRepsBy.loop r a l before = before.reverse ++ List.eraseRepsBy.loop r a l [] := by
  induction l generalizing a before with
  | nil =>
    rw [List.eraseRepsBy.loop, List.reverse_cons]
    rfl
  | cons b l ih =>
    rw [List.eraseRepsBy.loop, List.eraseRepsBy.loop]
    cases r a b with
    | true => exact ih a before
    | false =>
      show List.eraseRepsBy.loop r b l (a :: before)
        = before.reverse ++ List.eraseRepsBy.loop r b l [a]
      rw [ih b (a :: before), ih b [a], List.reverse_cons, List.append_assoc]
      rfl

variable [BEq α] [LawfulBEq α]

theorem eraseReps_cons_self (a : α) (l : List α) :
    (a :: a :: l).eraseReps = (a :: l).eraseReps := by
  show List.eraseRepsBy.loop _ a (a :: l) [] = _
  rw [List.eraseRepsBy.loop, BEq.rfl]
  rfl

theorem eraseReps_cons_of_ne {a b : α} (differ : a ≠ b) (l : List α) :
    (a :: b :: l).eraseReps = a :: (b :: l).eraseReps := by
  show List.eraseRepsBy.loop _ a (b :: l) [] = _
  rw [List.eraseRepsBy.loop, beq_false_of_ne differ]
  exact eraseRepsBy_loop _ b l [a]

theorem mem_eraseReps {a : α} {l : List α} : a ∈ l.eraseReps ↔ a ∈ l := by
  cases l with
  | nil => exact Iff.rfl
  | cons b l =>
    induction l generalizing b with
    | nil => exact Iff.rfl
    | cons c l ih =>
      by_cases same : b = c
      · obtain rfl := same
        rw [eraseReps_cons_self, ih b, List.mem_cons, List.mem_cons, List.mem_cons, ← or_assoc,
          or_self]
      · rw [eraseReps_cons_of_ne same, List.mem_cons, ih c, ← List.mem_cons]

/-- What is in order has, without its repetitions, each element strictly before those behind it. -/
theorem pairwise_eraseReps {le lt : α → α → Prop} {l : List α}
    (strict : ∀ a ∈ l, ∀ b ∈ l, le a b → a ≠ b → lt a b)
    (onward : ∀ a b c, lt a b → le b c → lt a c) (sorted : l.Pairwise le) :
    l.eraseReps.Pairwise lt := by
  cases l with
  | nil => exact .nil
  | cons b l =>
    induction l generalizing b with
    | nil => exact List.pairwise_singleton lt b
    | cons c l ih =>
      obtain ⟨hb, hl⟩ := List.pairwise_cons.1 sorted
      by_cases same : b = c
      · obtain rfl := same
        rw [eraseReps_cons_self]
        exact ih b (fun x hx y hy => strict x (.tail _ hx) y (.tail _ hy)) hl
      · rw [eraseReps_cons_of_ne same]
        have step : lt b c := strict b (.head _) c (.tail _ (.head _)) (hb c (.head _)) same
        refine .cons (fun d hd => ?_)
          (ih c (fun x hx y hy => strict x (.tail _ hx) y (.tail _ hy)) hl)
        rcases List.mem_cons.1 (mem_eraseReps.1 hd) with rfl | hd
        · exact step
        · exact onward b c d step ((List.pairwise_cons.1 hl).1 d hd)

end Repetitions

/-! ### The order of paths -/

namespace Path

/-- A path stands before another. -/
def Before (q r : Path) : Prop := compare q.parts r.parts = .lt

theorem notAfter_trans (p q r : Path) (h : p.notAfter q = true) (h' : q.notAfter r = true) :
    p.notAfter r = true := Std.TransOrd.isLE_trans h h'

theorem notAfter_total (p q : Path) : (p.notAfter q || q.notAfter p) = true := by
  have swap : compare q.parts p.parts = (compare p.parts q.parts).swap := Std.OrientedOrd.eq_swap
  rw [notAfter, notAfter, swap]
  cases compare p.parts q.parts <;> rfl

theorem before_of_notAfter {q r : Path} (root : q.root = r.root) (h : q.notAfter r = true)
    (differ : q ≠ r) : q.Before r := by
  unfold Before
  cases order : compare q.parts r.parts with
  | lt => rfl
  | eq =>
    have parts : q.parts = r.parts := Std.LawfulEqOrd.eq_of_compare order
    cases q
    cases r
    cases root
    cases parts
    exact absurd rfl differ
  | gt =>
    rw [notAfter, order] at h
    cases h

theorem Before.trans_notAfter (p q r : Path) (h : p.Before q) (h' : q.notAfter r = true) :
    p.Before r := Std.TransCmp.lt_of_lt_of_isLE h h'

end Path

/-! ### What there is to find -/

namespace FileNode

def HasFile (files : FileNode) (q : Path) : Prop :=
  ∃ content, files.get? q.parts = some (.file content)

def HasFolder (files : FileNode) (q : Path) : Prop := ∃ es, files.get? q.parts = some (.folder es)

def HasEntry (files : FileNode) (q : Path) : Prop := files.HasFile q ∨ files.HasFolder q

theorem hasEntry_iff {files : FileNode} {q : Path} :
    files.HasEntry q ↔ (files.get? q.parts).isSome := by
  unfold HasEntry HasFile HasFolder
  cases files.get? q.parts with
  | none => simp
  | some n => cases n <;> simp

end FileNode

/-- A path leads on from another, at any depth, to a name with a given end. -/
def Path.EndsBelow (q base : Path) (ending : Text) : Prop :=
  ∃ names name, q = ⟨base.root, base.parts ++ names ++ [name]⟩ ∧ ending <:+ name

namespace Project
variable (files : FileNode) (folder : Path) (p : Project)

/-- Where a source path leads. -/
def baseOf (t : Text) : Path := folder.resolve (p.root.join (.ofText t))

/-- A path leads on from a folder that the project names to a name that ends in an extension. -/
def Covers (q : Path) : Prop :=
  ∃ t ∈ p.sources.paths, files.HasFolder (p.baseOf folder t) ∧
    ∃ e ∈ p.sources.extensions, q.EndsBelow (p.baseOf folder t) e

/-- A document of the project: a file that it names, or one that it covers. -/
def IsDocument (q : Path) : Prop :=
  files.HasFile q ∧ ((∃ t ∈ p.sources.paths, q = p.baseOf folder t) ∨ p.Covers files folder q)

/-- A folder in the place of a document. -/
def IsNamesake (q : Path) : Prop := files.HasFolder q ∧ p.Covers files folder q

end Project

/-! ### Discovery -/

namespace Project

theorem searchFor_of_literal {e : Text} (h : e.Literal) :
    searchFor e = .ok [.anyDepth, .wild (.anyText :: e.map .char)] := by
  rw [searchFor, h.listOfText?_star]

/-- If a function fails on no element, the results are all those that it gives. -/
theorem mapM_ok {ε α β : Type} {f : α → Except ε β} {l : List α}
    (h : ∀ a ∈ l, ∃ b, f a = .ok b) :
    ∃ bs, l.mapM f = .ok bs ∧ ∀ b, b ∈ bs ↔ ∃ a ∈ l, f a = .ok b := by
  induction l with
  | nil => exact ⟨[], rfl, fun b => by simp⟩
  | cons a l ih =>
    obtain ⟨⟨b, hb⟩, hl⟩ := List.forall_mem_cons.1 h
    obtain ⟨bs, hbs, results⟩ := ih hl
    refine ⟨b :: bs, ?_, fun c => ?_⟩
    · rw [List.mapM_cons, hb, hbs]
      rfl
    · rw [List.mem_cons, results]
      constructor
      · rintro (rfl | ⟨d, hd, hc⟩)
        · exact ⟨a, .head _, hb⟩
        · exact ⟨d, .tail _ hd, hc⟩
      · rintro ⟨d, _ | ⟨_, hd⟩, hc⟩
        · exact .inl (Except.ok.inj (hc.symm.trans hb))
        · exact .inr ⟨d, hd, hc⟩

theorem mem_search_of_literal {files : FileNode} (down : files.Downward) (e : Text)
    {base q : Path} (level : ['.', '.'] ∉ base.parts) :
    q ∈ (files.search [.anyDepth, .wild (.anyText :: e.map .char)] base.parts).map
        (⟨base.root, ·⟩) ↔
      files.HasEntry q ∧ q.EndsBelow base e := by
  rw [List.mem_map]
  constructor
  · rintro ⟨parts, h, rfl⟩
    obtain ⟨names, name, rfl, there, ends⟩ := (FileNode.mem_search_anyDepth down level).1 h
    exact ⟨FileNode.hasEntry_iff.2 there, names, name, rfl,
      (Pattern.isMatch_star_chars e name).1 ends⟩
  · rintro ⟨there, names, name, rfl, ends⟩
    exact ⟨_, (FileNode.mem_search_anyDepth down level).2 ⟨names, name, rfl,
      FileNode.hasEntry_iff.1 there, (Pattern.isMatch_star_chars e name).2 ends⟩, rfl⟩

/-- A source path yields itself if a file lies there; from a folder, it yields the entries that end
in an extension. -/
def Yields (files : FileNode) (extensions : List Text) (base q : Path) : Prop :=
  files.HasFile base ∧ q = base ∨
    files.HasFolder base ∧ files.HasEntry q ∧ ∃ e ∈ extensions, q.EndsBelow base e

theorem Yields.hasEntry {files : FileNode} {extensions : List Text} {base q : Path}
    (h : Yields files extensions base q) : files.HasEntry q := by
  rcases h with ⟨file, rfl⟩ | ⟨-, entry, -⟩
  · exact .inl file
  · exact entry

theorem Yields.root_eq {files : FileNode} {extensions : List Text} {base q : Path}
    (h : Yields files extensions base q) : q.root = base.root := by
  rcases h with ⟨-, rfl⟩ | ⟨-, -, _, -, _, _, rfl, -⟩
  · rfl
  · rfl

theorem found_spec {files : FileNode} (down : files.Downward) {extensions : List Text}
    (literal : ∀ e ∈ extensions, e.Literal) {base : Path} (level : ['.', '.'] ∉ base.parts) :
    ∃ qs, found files extensions base = .ok qs ∧ ∀ q, q ∈ qs ↔ Yields files extensions base q := by
  rw [found]
  unfold Yields FileNode.HasFile FileNode.HasFolder
  cases here : files.get? base.parts with
  | none =>
    exact ⟨[], rfl, fun q => by simp⟩
  | some n =>
    cases n with
    | file content =>
      exact ⟨[base], rfl, fun q => by simp⟩
    | folder es =>
      obtain ⟨searches, read, searched⟩ :=
        mapM_ok fun e he => ⟨_, searchFor_of_literal (literal e he)⟩
      show ∃ qs, (extensions.mapM searchFor >>= _) = _ ∧ _
      rw [read]
      refine ⟨_, rfl, fun q => ?_⟩
      rw [List.mem_flatMap]
      constructor
      · rintro ⟨s, hs, hq⟩
        obtain ⟨e, he, made⟩ := (searched s).1 hs
        obtain rfl := Except.ok.inj ((searchFor_of_literal (literal e he)).symm.trans made)
        obtain ⟨there, ends⟩ := (mem_search_of_literal down e level).1 hq
        exact .inr ⟨⟨es, rfl⟩, there, e, he, ends⟩
      · rintro (⟨⟨_, h⟩, -⟩ | ⟨-, there, e, he, ends⟩)
        · cases h
        · exact ⟨_, (searched _).2 ⟨e, he, searchFor_of_literal (literal e he)⟩,
            (mem_search_of_literal down e level).2 ⟨there, ends⟩⟩

theorem notMem_parts_baseOf (p : Project) (folder : Path) (t : Text) :
    ['.', '.'] ∉ (p.baseOf folder t).parts := Path.notMem_resolveParts List.not_mem_nil _

theorem mapM_found {files : FileNode} (down : files.Downward) (folder : Path) {p : Project}
    (literal : ∀ e ∈ p.sources.extensions, e.Literal) :
    ∃ lists, (p.sources.paths.map (p.baseOf folder)).mapM (found files p.sources.extensions)
        = .ok lists ∧
      ∀ q, q ∈ lists.flatten ↔
        ∃ t ∈ p.sources.paths, Yields files p.sources.extensions (p.baseOf folder t) q := by
  have spec : ∀ base ∈ p.sources.paths.map (p.baseOf folder),
      ∃ qs, found files p.sources.extensions base = .ok qs ∧
        ∀ q, q ∈ qs ↔ Yields files p.sources.extensions base q := by
    intro base hbase
    obtain ⟨t, -, rfl⟩ := List.mem_map.1 hbase
    exact found_spec down literal (p.notMem_parts_baseOf folder t)
  obtain ⟨lists, read, results⟩ := mapM_ok fun base hbase =>
    (spec base hbase).imp fun _ h => h.1
  refine ⟨lists, read, fun q => ?_⟩
  rw [List.mem_flatten]
  constructor
  · rintro ⟨qs, hqs, hq⟩
    obtain ⟨base, hbase, found⟩ := (results qs).1 hqs
    obtain ⟨qs', found', yields⟩ := spec base hbase
    obtain rfl := Except.ok.inj (found.symm.trans found')
    obtain ⟨t, ht, rfl⟩ := List.mem_map.1 hbase
    exact ⟨t, ht, (yields q).1 hq⟩
  · rintro ⟨t, ht, hq⟩
    have hbase := List.mem_map_of_mem (f := p.baseOf folder) ht
    obtain ⟨qs, found, yields⟩ := spec _ hbase
    exact ⟨qs, (results qs).2 ⟨_, hbase, found⟩, (yields q).2 hq⟩

/-- What the source paths yield are documents and folders in the place of one. -/
theorem exists_yields_iff {files : FileNode} {folder : Path} {p : Project} {q : Path} :
    (∃ t ∈ p.sources.paths, Yields files p.sources.extensions (p.baseOf folder t) q) ↔
      p.IsDocument files folder q ∨ p.IsNamesake files folder q := by
  constructor
  · rintro ⟨t, ht, ⟨file, rfl⟩ | ⟨under, file | folder, ends⟩⟩
    · exact .inl ⟨file, .inl ⟨t, ht, rfl⟩⟩
    · exact .inl ⟨file, .inr ⟨t, ht, under, ends⟩⟩
    · exact .inr ⟨folder, t, ht, under, ends⟩
  · rintro (⟨file, ⟨t, ht, rfl⟩ | ⟨t, ht, under, ends⟩⟩ | ⟨folder, t, ht, under, ends⟩)
    · exact ⟨t, ht, .inl ⟨file, rfl⟩⟩
    · exact ⟨t, ht, .inr ⟨under, .inl file, ends⟩⟩
    · exact ⟨t, ht, .inr ⟨under, .inr folder, ends⟩⟩

theorem discover_spec {files : FileNode} (down : files.Downward) (folder : Path) {p : Project}
    (literal : ∀ e ∈ p.sources.extensions, e.Literal) :
    ∃ found, p.discover files folder = .ok found ∧ found.Pairwise Path.Before ∧
      ∀ q, q ∈ found ↔
        ∃ t ∈ p.sources.paths, Yields files p.sources.extensions (p.baseOf folder t) q := by
  obtain ⟨lists, read, members⟩ := mapM_found down folder literal
  have root {q : Path} (hq : q ∈ lists.flatten) : q.root = .single := by
    obtain ⟨t, -, yields⟩ := (members q).1 hq
    exact yields.root_eq
  refine ⟨(lists.flatten.mergeSort Path.notAfter).eraseReps, ?_, ?_, fun q => ?_⟩
  · show ((p.sources.paths.map (p.baseOf folder)).mapM (found files p.sources.extensions) >>= _) = _
    rw [read]
    rfl
  · have sorted := List.pairwise_mergeSort Path.notAfter_trans Path.notAfter_total lists.flatten
    apply pairwise_eraseReps _ Path.Before.trans_notAfter sorted
    intro q hq r hr h differ
    rw [List.mem_mergeSort] at hq hr
    exact Path.before_of_notAfter ((root hq).trans (root hr).symm) h differ
  · rw [mem_eraseReps, List.mem_mergeSort, members]

/-- Discovery finds the documents of a project and the folders in the place of one, each once and in
the order of paths. -/
theorem discover_finds {files : FileNode} (down : files.Downward) (folder : Path) {p : Project}
    (literal : ∀ e ∈ p.sources.extensions, e.Literal) :
    ∃ found, p.discover files folder = .ok found ∧ found.Pairwise Path.Before ∧
      ∀ q, q ∈ found ↔ p.IsDocument files folder q ∨ p.IsNamesake files folder q := by
  obtain ⟨found, read, sorted, members⟩ := discover_spec down folder literal
  exact ⟨found, read, sorted, fun q => (members q).trans exists_yields_iff⟩

/-- Source paths that overlap, repeat each other or lead nowhere. -/
theorem discover_finds_overlapping :
    let files := FileNode.insert (.file .empty) ["docs".toList, "a.fgfh".toList]
      (some (.folder [("docs".toList, .folder [("b.fgfh".toList, .file .empty)])]))
    let p : Project := ⟨⟨.single, []⟩, {},
      { paths := ["docs", ".", "docs", "docs/../docs/b.fgfh", "c"].map String.toList }⟩
    files.Downward ∧ (∀ e ∈ p.sources.extensions, e.Literal) ∧
      ∃ found, p.discover files ⟨.single, []⟩ = .ok found ∧ found.Pairwise Path.Before ∧
        ∀ q, q ∈ found ↔
          p.IsDocument files ⟨.single, []⟩ q ∨ p.IsNamesake files ⟨.single, []⟩ q := by
  intro files p
  have docs : (FileNode.folder [("b.fgfh".toList, .file .empty)]).Downward :=
    FileNode.downward_single (by decide) (.file _)
  have held : (FileNode.folder [("docs".toList, _)]).Downward :=
    FileNode.downward_single (by decide) docs
  have down : files.Downward :=
    FileNode.downward_insert (.file _) (by decide) fun m hm => Option.some.inj hm ▸ held
  have literal : ∀ e ∈ p.sources.extensions, e.Literal := by decide
  exact ⟨down, literal, discover_finds down _ literal⟩

/-- Not all that is found is a document: a folder with the name of one is found like a file. -/
theorem discover_finds_folder :
    ¬∀ (files : FileNode) (folder : Path) (p : Project), files.Downward →
      (∀ e ∈ p.sources.extensions, e ≠ [] ∧ e.Literal) →
      ∃ found, p.discover files folder = .ok found ∧ found.Pairwise Path.Before ∧
        ∀ q, q ∈ found ↔ p.IsDocument files folder q := by
  intro every
  let files : FileNode := .folder [("a.fgfh".toList, .folder [])]
  let p : Project := { root := ⟨.single, []⟩ }
  have down : files.Downward := FileNode.downward_single (by decide) FileNode.downward_empty
  obtain ⟨found, read, -, exactly⟩ := every files ⟨.single, []⟩ p down (by decide)
  have answer : (p.discover files ⟨.single, []⟩).toOption =
      some [⟨.single, ["a.fgfh".toList]⟩] := by decide +kernel
  rw [read] at answer
  obtain rfl := Option.some.inj answer
  obtain ⟨⟨content, file⟩, -⟩ := (exactly ⟨.single, ["a.fgfh".toList]⟩).1 (.head _)
  cases file

end Project

/-! ### Opening what is found -/

theorem Workplace.resolve?_join {w : Workplace} (down : w.files.Downward) {q : Path}
    (root : q.root = .single) {n : FileNode} (here : w.files.get? q.parts = some n) :
    w.files.resolve? (w.folder.join q).parts = some n := by
  have absolute : q.isAbsolute = true := by
    rw [Path.isAbsolute, root]
    rfl
  rw [Path.join, if_pos absolute, w.files.resolve?_of_notMem (down.along here).1, here]

/-- What is found is there, and is opened as a file unless it is a folder in the place of one. -/
theorem Project.textAt_of_discover {w : Workplace} (down : w.files.Downward) {p : Project}
    (literal : ∀ e ∈ p.sources.extensions, e.Literal) {found : List Path}
    (read : p.discover w.files w.folder = .ok found) {q : Path} (hq : q ∈ found) :
    w.textAt q ≠ .error .missing ∧
      (w.textAt q = .error .isFolder ↔ p.IsNamesake w.files w.folder q) := by
  obtain ⟨found', read', -, members⟩ := discover_spec down w.folder literal
  obtain rfl := Except.ok.inj (read.symm.trans read')
  obtain ⟨t, ht, yields⟩ := (members q).1 hq
  unfold Workplace.textAt
  rcases yields.hasEntry with ⟨content, here⟩ | ⟨es, here⟩
  · have noFolder : ¬w.files.HasFolder q := by
      rintro ⟨es, folder⟩
      cases here.symm.trans folder
    rw [Workplace.resolve?_join down yields.root_eq here]
    dsimp only
    cases Text.ofFile? content with
    | none => exact ⟨nofun, nofun, fun h => absurd h.1 noFolder⟩
    | some t => exact ⟨nofun, nofun, fun h => absurd h.1 noFolder⟩
  · have noFile : ¬w.files.HasFile q := by
      rintro ⟨content, file⟩
      cases here.symm.trans file
    have namesake := (exists_yields_iff.1 ⟨t, ht, yields⟩).resolve_left fun document =>
      noFile document.1
    rw [Workplace.resolve?_join down yields.root_eq here]
    exact ⟨nofun, fun _ => namesake, fun _ => rfl⟩

end RelationNotation
