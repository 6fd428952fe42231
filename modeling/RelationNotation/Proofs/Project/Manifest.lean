import RelationNotation.Project.Manifest

/-!
What a manifest's table means. A key of a manifest has a section, the values it may be given, and a
value for when it is given none. A table describes one project if its sections are tables and its
keys are given what they may be; if not, the fault names a key that is given something else, or is
about a section that is no table: `Project.ofTable_meaning`. The last of these is no matter of
configuration: `Project.ofTable_bare_section`.
-/

namespace RelationNotation

/-! ### Keys -/

namespace TomlTable

/-- If there is a section of a name, it is a table. -/
def HasSection (t : TomlTable) (title : String) : Prop :=
  ∀ x, t.get? title.toList = some x → ∃ s, x = .table s

/-- A section is there and is no table. -/
def HasBare (t : TomlTable) (title : String) (x : Toml) : Prop :=
  t.get? title.toList = some x ∧ ∀ s, x ≠ .table s

/-- What is given for a key of a section. -/
def Gives (t : TomlTable) (title key : String) (x : Toml) : Prop :=
  ∃ s, t.get? title.toList = some (.table s) ∧ get? s key.toList = some x

end TomlTable

/-- A key of a manifest: where it stands, how its values are written and which it may have, its
value if none is given, and what is wrong if it is given something else. -/
structure ManifestKey (α : Type) where
  title : String
  name : String
  write : α → Toml
  Valid : α → Prop
  default : α
  fault : ManifestFault

namespace ManifestKey

def maxDepth : ManifestKey Int :=
  ⟨"parser", "max_depth", .integer, fun n => 1 ≤ n, 64, .maxDepth⟩

def attachTrivia : ManifestKey Bool :=
  ⟨"parser", "attach_trivia", .boolean, fun _ => True, true, .attachTrivia⟩

def paths : ManifestKey (List Text) :=
  ⟨"sources", "paths", fun ts => .array (ts.map .string), fun _ => True, [".".toList], .paths⟩

def extensions : ManifestKey (List Text) :=
  ⟨"sources", "extensions", fun ts => .array (ts.map .string), fun _ => True, [".fgfh".toList],
    .extensions⟩

variable {α : Type} (k : ManifestKey α) (t : TomlTable)

/-- A table sets the key to a value it may have: the one given, or its own if none is. -/
def SetTo (a : α) : Prop :=
  k.Valid a ∧
    (t.Gives k.title k.name (k.write a) ∨ (∀ x, ¬t.Gives k.title k.name x) ∧ a = k.default)

/-- A table gives the key something that it may not have. -/
def Misused : Prop := ∃ x, t.Gives k.title k.name x ∧ ∀ a, k.Valid a → x ≠ k.write a

/-- A function reads what is given for the key. -/
structure ReadBy (read : Option Toml → Except ManifestFault α) : Prop where
  valid : k.Valid k.default
  missing : read none = .ok k.default
  given : ∀ {a}, k.Valid a → read (some (k.write a)) = .ok a
  misused : ∀ {x}, (∀ a, k.Valid a → x ≠ k.write a) → read (some x) = .error k.fault

/-- Reads the key from a table. -/
def lookUp (read : Option Toml → Except ManifestFault α) : Except ManifestFault α :=
  Project.entryOf (Project.sectionOf t k.title) k.name >>= read

end ManifestKey

/-! ### Reading a key -/

namespace Project
open ManifestKey

theorem readBy_depthOf : maxDepth.ReadBy depthOf where
  valid := (by decide : (1 : Int) ≤ 64)
  missing := rfl
  given {n} h := if_neg (Int.not_lt.2 h)
  misused {x} h := by
    cases x with
    | integer n =>
      have small : n < 1 := Int.not_le.1 fun valid => h n valid rfl
      exact if_pos small
    | _ => rfl

theorem readBy_attachOf : attachTrivia.ReadBy attachOf where
  valid := trivial
  missing := rfl
  given _ := rfl
  misused {x} h := by
    cases x with
    | boolean b => exact absurd rfl (h b trivial)
    | _ => rfl

theorem mapM_stringOf_map (ts : List Text) : (ts.map Toml.string).mapM stringOf? = some ts := by
  induction ts with
  | nil => rfl
  | cons t ts ih =>
    rw [List.map_cons, List.mapM_cons, ih]
    rfl

theorem eq_map_of_mapM_stringOf {items : List Toml} {ts : List Text}
    (h : items.mapM stringOf? = some ts) : items = ts.map .string := by
  induction items generalizing ts with
  | nil =>
    obtain rfl := Option.some.inj h
    rfl
  | cons x items ih =>
    rw [List.mapM_cons] at h
    obtain ⟨t, ht, h⟩ := Option.bind_eq_some_iff.1 h
    obtain ⟨us, hus, h⟩ := Option.bind_eq_some_iff.1 h
    obtain rfl := Option.some.inj h
    rw [List.map_cons, ← ih hus]
    cases x with
    | string u =>
      obtain rfl := Option.some.inj ht
      rfl
    | _ => cases ht

/-- Both lists of texts are read alike; they differ in their key alone. -/
theorem readBy_stringsOf (title name : String) (default : List Text) (fault : ManifestFault) :
    (ManifestKey.mk title name (fun ts => .array (ts.map .string)) (fun _ => True) default
      fault).ReadBy (stringsOf fault default) where
  valid := trivial
  missing := rfl
  given {ts} _ := by
    rw [stringsOf, mapM_stringOf_map]
  misused {x} h := by
    cases x with
    | array items =>
      rw [stringsOf]
      cases hread : items.mapM stringOf? with
      | none => rfl
      | some ts => exact absurd (congrArg Toml.array (eq_map_of_mapM_stringOf hread)) (h ts trivial)
    | _ => rfl

theorem entryOf_of_hasBare {t : TomlTable} {title : String} {x : Toml} (h : t.HasBare title x)
    (key : String) : entryOf (sectionOf t title) key = .error (.notTable x) := by
  obtain ⟨hget, bare⟩ := h
  rw [sectionOf, hget]
  cases x with
  | table s => exact absurd rfl (bare s)
  | _ => rfl

theorem entryOf_of_hasSection {t : TomlTable} {title : String} (h : t.HasSection title)
    (key : String) : ∃ e, entryOf (sectionOf t title) key = .ok e ∧
      ∀ x, e = some x ↔ t.Gives title key x := by
  unfold sectionOf TomlTable.Gives
  cases hget : t.get? title.toList with
  | none => exact ⟨none, rfl, by simp⟩
  | some x =>
    obtain ⟨s, rfl⟩ := h x hget
    exact ⟨TomlTable.get? s key.toList, rfl, by simp⟩

end Project

namespace TomlTable
variable {t : TomlTable} {title : String}

theorem HasBare.not_hasSection {x : Toml} (h : t.HasBare title x) : ¬t.HasSection title := by
  intro hsection
  obtain ⟨s, hs⟩ := hsection x h.1
  exact h.2 s hs

theorem exists_hasBare (h : ¬t.HasSection title) : ∃ x, t.HasBare title x := by
  simpa [HasSection, HasBare] using h

end TomlTable

namespace ManifestKey
variable {α : Type} {k : ManifestKey α} {read : Option Toml → Except ManifestFault α}
  {t : TomlTable}

theorem lookUp_of_hasBare {x : Toml} (h : t.HasBare k.title x) :
    k.lookUp t read = .error (.notTable x) := by
  rw [lookUp, Project.entryOf_of_hasBare h]
  rfl

variable (reads : k.ReadBy read)
include reads

theorem ReadBy.lookUp_of_setTo (hsection : t.HasSection k.title) {a : α} (h : k.SetTo t a) :
    k.lookUp t read = .ok a := by
  obtain ⟨e, hentry, hgiven⟩ := Project.entryOf_of_hasSection hsection k.name
  rw [lookUp, hentry]
  rcases h with ⟨valid, given | ⟨missing, rfl⟩⟩
  · obtain rfl := (hgiven _).2 given
    exact reads.given valid
  · have hnone : e = none :=
      Option.eq_none_iff_forall_ne_some.2 fun x hx => missing x ((hgiven x).1 hx)
    rw [hnone]
    exact reads.missing

theorem ReadBy.lookUp_of_misused (h : k.Misused t) : k.lookUp t read = .error k.fault := by
  obtain ⟨x, ⟨s, hget, hx⟩, wrong⟩ := h
  rw [lookUp, Project.sectionOf, hget]
  exact (congrArg read hx).trans (reads.misused wrong)

theorem ReadBy.setTo_or_misused (t : TomlTable) : (∃ a, k.SetTo t a) ∨ k.Misused t := by
  by_cases hgiven : ∃ x, t.Gives k.title k.name x
  · obtain ⟨x, hx⟩ := hgiven
    by_cases h : ∃ a, k.Valid a ∧ x = k.write a
    · obtain ⟨a, valid, rfl⟩ := h
      exact .inl ⟨a, valid, .inl hx⟩
    · exact .inr ⟨x, hx, fun a valid hwrite => h ⟨a, valid, hwrite⟩⟩
  · exact .inl ⟨k.default, reads.valid, .inr ⟨not_exists.1 hgiven, rfl⟩⟩

/-- What is read for a key is what it is set to. -/
theorem ReadBy.lookUp_eq_ok_iff {a : α} :
    k.lookUp t read = .ok a ↔ t.HasSection k.title ∧ k.SetTo t a := by
  refine ⟨fun h => ?_, fun h => reads.lookUp_of_setTo h.1 h.2⟩
  have hsection : t.HasSection k.title := Classical.byContradiction fun hbare => by
    obtain ⟨x, hx⟩ := TomlTable.exists_hasBare hbare
    cases h.symm.trans (lookUp_of_hasBare hx)
  rcases reads.setTo_or_misused t with ⟨b, hb⟩ | hwrong
  · obtain rfl := Except.ok.inj (h.symm.trans (reads.lookUp_of_setTo hsection hb))
    exact ⟨hsection, hb⟩
  · cases h.symm.trans (reads.lookUp_of_misused hwrong)

/-- A key is refused for what it is given, or because its section is no table. -/
theorem ReadBy.lookUp_eq_error {f : ManifestFault} (h : k.lookUp t read = .error f) :
    k.Misused t ∧ f = k.fault ∨ ∃ x, t.HasBare k.title x ∧ f = .notTable x := by
  by_cases hsection : t.HasSection k.title
  · rcases reads.setTo_or_misused t with ⟨a, ha⟩ | hwrong
    · cases h.symm.trans (reads.lookUp_of_setTo hsection ha)
    · exact .inl ⟨hwrong, Except.error.inj (h.symm.trans (reads.lookUp_of_misused hwrong))⟩
  · obtain ⟨x, hx⟩ := TomlTable.exists_hasBare hsection
    exact .inr ⟨x, hx, Except.error.inj (h.symm.trans (lookUp_of_hasBare hx))⟩

end ManifestKey

/-! ### Reading a manifest -/

namespace Project
open ManifestKey

theorem bind_eq_ok_iff {ε α β : Type} {x : Except ε α} {f : α → Except ε β} {b : β} :
    x >>= f = .ok b ↔ ∃ a, x = .ok a ∧ f a = .ok b := by
  cases x with
  | error e => simp [bind, Except.bind]
  | ok a => simp [bind, Except.bind]

theorem bind_eq_error_iff {ε α β : Type} {x : Except ε α} {f : α → Except ε β} {e : ε} :
    x >>= f = .error e ↔ x = .error e ∨ ∃ a, x = .ok a ∧ f a = .error e := by
  cases x with
  | error e => simp [bind, Except.bind]
  | ok a => simp [bind, Except.bind]

theorem ofTable_eq (root : Path) (t : TomlTable) : ofTable root t = (do
    let depth ← maxDepth.lookUp t depthOf
    let attach ← attachTrivia.lookUp t attachOf
    let sourcePaths ← paths.lookUp t (stringsOf .paths [['.']])
    let sourceExtensions ← extensions.lookUp t (stringsOf .extensions [".fgfh".toList])
    return ⟨root, ⟨depth, attach⟩, ⟨sourcePaths, sourceExtensions⟩⟩) := by
  simp only [lookUp, bind_assoc]
  rfl

/-- A table describes a project: its sections are tables and its keys are set to what the project
has. -/
structure DescribedBy (p : Project) (t : TomlTable) : Prop where
  parser : t.HasSection "parser"
  sources : t.HasSection "sources"
  maxDepth : maxDepth.SetTo t p.parser.maxDepth
  attachTrivia : attachTrivia.SetTo t p.parser.attachTrivia
  paths : paths.SetTo t p.sources.paths
  extensions : extensions.SetTo t p.sources.extensions

theorem readBy_paths : paths.ReadBy (stringsOf .paths [['.']]) := readBy_stringsOf ..

theorem readBy_extensions : extensions.ReadBy (stringsOf .extensions [".fgfh".toList]) :=
  readBy_stringsOf ..

theorem ofTable_eq_ok_iff {root : Path} {t : TomlTable} {p : Project} :
    ofTable root t = .ok p ↔ p.root = root ∧ p.DescribedBy t := by
  rw [ofTable_eq]
  constructor
  · intro h
    obtain ⟨n, hn, h⟩ := bind_eq_ok_iff.1 h
    obtain ⟨b, hb, h⟩ := bind_eq_ok_iff.1 h
    obtain ⟨ts, hts, h⟩ := bind_eq_ok_iff.1 h
    obtain ⟨us, hus, h⟩ := bind_eq_ok_iff.1 h
    obtain rfl := Except.ok.inj h
    obtain ⟨parser, depth⟩ := readBy_depthOf.lookUp_eq_ok_iff.1 hn
    obtain ⟨sources, sourcePaths⟩ := readBy_paths.lookUp_eq_ok_iff.1 hts
    have attach := (readBy_attachOf.lookUp_eq_ok_iff.1 hb).2
    have sourceExtensions := (readBy_extensions.lookUp_eq_ok_iff.1 hus).2
    exact ⟨rfl, parser, sources, depth, attach, sourcePaths, sourceExtensions⟩
  · rintro ⟨rfl, h⟩
    have depth := readBy_depthOf.lookUp_of_setTo h.parser h.maxDepth
    have attach := readBy_attachOf.lookUp_of_setTo h.parser h.attachTrivia
    have sourcePaths := readBy_paths.lookUp_of_setTo h.sources h.paths
    have sourceExtensions := readBy_extensions.lookUp_of_setTo h.sources h.extensions
    rw [depth, attach, sourcePaths, sourceExtensions]
    rfl

/-- A key is given something that it may not have, and the message of the fault says which key. -/
def RefusedFor {α : Type} (k : ManifestKey α) (t : TomlTable) (f : ManifestFault) : Prop :=
  k.Misused t ∧
    ∃ words, f.message? = some ((k.title ++ "." ++ k.name ++ " must be ").toList ++ words)

/-- A section is something else than a table. -/
def RefusedAsBare (t : TomlTable) (f : ManifestFault) : Prop :=
  ∃ title ∈ ["parser", "sources"], ∃ x, t.HasBare title x ∧ f = .notTable x

theorem refused_of_lookUp {α : Type} {k : ManifestKey α}
    {read : Option Toml → Except ManifestFault α} (reads : k.ReadBy read)
    (title : k.title ∈ ["parser", "sources"]) {words : Text}
    (message : k.fault.message? = some ((k.title ++ "." ++ k.name ++ " must be ").toList ++ words))
    {t : TomlTable} {f : ManifestFault} (h : k.lookUp t read = .error f) :
    RefusedFor k t f ∨ RefusedAsBare t f := by
  rcases reads.lookUp_eq_error h with ⟨wrong, rfl⟩ | ⟨x, hx, rfl⟩
  · exact .inl ⟨wrong, words, message⟩
  · exact .inr ⟨k.title, title, x, hx, rfl⟩

theorem ofTable_eq_error {root : Path} {t : TomlTable} {f : ManifestFault}
    (h : ofTable root t = .error f) :
    RefusedFor maxDepth t f ∨ RefusedFor attachTrivia t f ∨ RefusedFor paths t f ∨
      RefusedFor extensions t f ∨ RefusedAsBare t f := by
  have numeral : maxDepth.fault.message? = some
      ("parser.max_depth must be ".toList ++ "a positive integer".toList) := rfl
  have truth : attachTrivia.fault.message? = some
      ("parser.attach_trivia must be ".toList ++ "true or false".toList) := rfl
  have texts : paths.fault.message? = some
      ("sources.paths must be ".toList ++ "a list of strings".toList) := rfl
  have endings : extensions.fault.message? = some
      ("sources.extensions must be ".toList ++ "a list of strings".toList) := rfl
  rw [ofTable_eq] at h
  rcases bind_eq_error_iff.1 h with h | ⟨n, -, h⟩
  · rcases refused_of_lookUp readBy_depthOf (by decide) numeral h with h | h
    · exact .inl h
    · exact .inr (.inr (.inr (.inr h)))
  rcases bind_eq_error_iff.1 h with h | ⟨b, -, h⟩
  · rcases refused_of_lookUp readBy_attachOf (by decide) truth h with h | h
    · exact .inr (.inl h)
    · exact .inr (.inr (.inr (.inr h)))
  rcases bind_eq_error_iff.1 h with h | ⟨ts, -, h⟩
  · rcases refused_of_lookUp readBy_paths (by decide) texts h with h | h
    · exact .inr (.inr (.inl h))
    · exact .inr (.inr (.inr (.inr h)))
  rcases bind_eq_error_iff.1 h with h | ⟨us, -, h⟩
  · rcases refused_of_lookUp readBy_extensions (by decide) endings h with h | h
    · exact .inr (.inr (.inr (.inl h)))
    · exact .inr (.inr (.inr (.inr h)))
  · cases h

/-- A table is read as the project that it describes. A table that describes none is refused for
what it gives a key, which the message names, or for a section that is no table; with tables for
sections, or none, it is refused as a mistake in the configuration only. -/
theorem ofTable_meaning (root : Path) (t : TomlTable) :
    (∀ p, ofTable root t = .ok p ↔ p.root = root ∧ p.DescribedBy t) ∧
      (∀ f, ofTable root t = .error f →
        RefusedFor maxDepth t f ∨ RefusedFor attachTrivia t f ∨ RefusedFor paths t f ∨
          RefusedFor extensions t f ∨ RefusedAsBare t f) ∧
      (t.HasSection "parser" → t.HasSection "sources" →
        ∀ f, ofTable root t = .error f → ∃ words, f.message? = some words) := by
  refine ⟨fun p => ofTable_eq_ok_iff, fun f => ofTable_eq_error, fun parser sources f h => ?_⟩
  rcases ofTable_eq_error h with ⟨-, words, h⟩ | ⟨-, words, h⟩ | ⟨-, words, h⟩ | ⟨-, words, h⟩ |
    ⟨title, htitle, x, hbare, -⟩
  · exact ⟨_, h⟩
  · exact ⟨_, h⟩
  · exact ⟨_, h⟩
  · exact ⟨_, h⟩
  · simp only [List.mem_cons, List.not_mem_nil, or_false] at htitle
    rcases htitle with rfl | rfl
    · exact absurd parser hbare.not_hasSection
    · exact absurd sources hbare.not_hasSection

/-- A manifest is read, or refused as a mistake in the configuration. -/
def isConfiguration : Except ManifestFault Project → Bool
  | .ok _ => true
  | .error f => f.message?.isSome

/-- With a number for a section, a manifest is neither read nor refused as a mistake in the
configuration. -/
theorem ofTable_bare_section :
    ¬∀ (source : Text) (root : Path) (t : TomlTable), Toml.ofText? source = .ok t →
      (∃ p, ofTable root t = .ok p) ∨
        ∃ f words, ofTable root t = .error f ∧ f.message? = some words := by
  intro every
  have outcome : (Toml.ofText? "parser = 1".toList).toOption.map
      (fun t => isConfiguration (ofTable ⟨.single, []⟩ t)) = some false := by decide +kernel
  obtain ⟨t, read, neither⟩ := Option.map_eq_some_iff.1 outcome
  cases table : Toml.ofText? "parser = 1".toList with
  | error e =>
    rw [table] at read
    cases read
  | ok u =>
    rw [table] at read
    obtain rfl := Option.some.inj read
    rcases every _ ⟨.single, []⟩ u table with ⟨p, h⟩ | ⟨f, words, h, hmessage⟩
    · rw [h] at neither
      cases neither
    · rw [h, isConfiguration, hmessage] at neither
      cases neither

end Project

end RelationNotation
