import RelationNotation.Proofs.Tree.Node
import RelationNotation.Proofs.Tree.WellFormed

/-!
Trees that are faithful to a text. A leaf is worded as the text of its span and lies in its class, a
name with its marker is worded as both side by side, and a lone underscore is a name only where a
string may stand. Attaching trivia keeps trees faithful: `Faithful.mapOrigins`.
-/

namespace RelationNotation

namespace Node

/-- The text that a leaf, or a name with its marker, is made of. -/
def wording? : Node → Option Text
  | .identifier x => some x.text
  | .unicodeString x => some x.text
  | .number x => some x.text
  | .dashComment x => some x.text
  | .errorStatement x => some x.text
  | .operator x => some x.symbol
  | .arithmeticOp x => some x.symbol
  | .quotedString x => some ('"' :: x.content ++ ['"'])
  | .gacPrefix x => some (x.name.text ++ x.marker.text.toList)
  | .gacSuffix x => some (x.marker.text.toList ++ x.name.text)
  | _ => none

/-- Whether a leaf lies in its class; nothing is asked of other nodes. -/
def inClass : Node → Bool
  | .identifier x => isWord x.text
  | .unicodeString x => x.isWellFormed
  | .number x => x.isWellFormed
  | .quotedString x => isQuotable x.content
  | .dashComment x => x.isWellFormed
  | .operator x => isOneOf gacSymbols x.symbol
  | .arithmeticOp x => isOneOf arithmeticSymbols x.symbol
  | _ => true

def isUnderscore : Node → Bool
  | .identifier x => x.text == ['_']
  | _ => false

/-- The fields under which a lone underscore may be a name. -/
def stringFields : List String := ["description", "name", "file"]

/-- A node says of itself and of the names among its children what the source text says. -/
structure Faithful (source : Text) (n : Node) : Prop where
  wording : ∀ t ∈ n.wording?, n.span.slice source = t
  classed : n.inClass
  named : ∀ c ∈ n.children, c.2.isUnderscore → c.1 ∈ stringFields

/-- All nodes of a tree are faithful. -/
def AllFaithful (source : Text) (n : Node) : Prop := ∀ m ∈ n.walk, m.Faithful source

/-- A faithful tree under the name of a field. -/
structure FaithfulUnder (source : Text) (c : String × Node) : Prop where
  tree : c.2.AllFaithful source
  named : c.2.isUnderscore → c.1 ∈ stringFields

section
variable {source : Text} {n : Node}

theorem AllFaithful.under (h : n.AllFaithful source) (hn : n.isUnderscore = false)
    (field : String) : FaithfulUnder source (field, n) :=
  ⟨h, fun hu => absurd (hn.symm.trans hu) Bool.false_ne_true⟩

theorem AllFaithful.inField (h : n.AllFaithful source) {field : String}
    (hfield : field ∈ stringFields) : FaithfulUnder source (field, n) :=
  ⟨h, fun _ => hfield⟩

theorem allFaithful_of_children (wording : ∀ t ∈ n.wording?, n.span.slice source = t)
    (classed : n.inClass) (children : ∀ c ∈ n.children, FaithfulUnder source c) :
    n.AllFaithful source := by
  intro m hm
  rcases mem_walk_cases hm with rfl | ⟨c, hc, hm⟩
  · exact ⟨wording, classed, fun c hc => (children c hc).named⟩
  · exact (children c hc).tree m hm

theorem allFaithful_of_worded {text : Text} (worded : n.wording? = some text)
    (slice : n.span.slice source = text) (classed : n.inClass)
    (children : ∀ c ∈ n.children, FaithfulUnder source c) : n.AllFaithful source :=
  allFaithful_of_children (fun t ht => by rw [worded] at ht; exact slice.trans (Option.some.inj ht))
    classed children

/-- Of a node that is neither a leaf nor a name with its marker only the children matter. -/
theorem allFaithful_of_wordless (wordless : n.wording? = none) (classed : n.inClass)
    (children : ∀ c ∈ n.children, FaithfulUnder source c) : n.AllFaithful source :=
  allFaithful_of_children (fun t ht => by rw [wordless] at ht; cases ht) classed children

theorem forall_mem_childless (hn : n.children = []) :
    ∀ c ∈ n.children, FaithfulUnder source c := by
  rw [hn]
  exact fun c hc => absurd hc List.not_mem_nil

theorem forall_mem_single {c : String × Node} (hn : n.children = [c])
    (child : FaithfulUnder source c) : ∀ c ∈ n.children, FaithfulUnder source c := by
  rw [hn]
  exact List.forall_mem_singleton.2 child

end

/-! ### Passes -/

section
variable {σ : Type} (p : OriginMap σ) (s : σ) (n : Node)

theorem wording?_mapOrigins : (n.mapOrigins p s).wording? = n.wording? := by
  cases n <;> rfl

theorem inClass_mapOrigins : (n.mapOrigins p s).inClass = n.inClass := by
  cases n <;> rfl

theorem isUnderscore_mapOrigins : (n.mapOrigins p s).isUnderscore = n.isUnderscore := by
  cases n <;> rfl

end

/-- A pass that leaves spans as they are keeps nodes faithful. -/
theorem Faithful.mapOrigins {source : Text} {n : Node} (h : n.Faithful source) {σ : Type}
    {p : OriginMap σ} (hp : p.SpansBy id) (s : σ) : (n.mapOrigins p s).Faithful source where
  wording := by
    rw [wording?_mapOrigins, span_mapOrigins p hp]
    exact h.wording
  classed := by
    rw [inClass_mapOrigins]
    exact h.classed
  named c hc := by
    rw [children_mapOrigins] at hc
    obtain ⟨i, hi, rfl⟩ := List.mem_mapIdx.1 hc
    rw [isUnderscore_mapOrigins]
    exact h.named _ (List.getElem_mem hi)

/-- Every node of a tree behind a pass is a node of the tree behind the pass. -/
theorem exists_of_mem_walk_mapOrigins {σ : Type} {p : OriginMap σ} {s : σ} {n m : Node}
    (h : m ∈ (n.mapOrigins p s).walk) : ∃ m₀ ∈ n.walk, ∃ t, m = m₀.mapOrigins p t := by
  obtain ⟨path, hpath⟩ := mem_walk_iff.1 h
  obtain ⟨t, ht⟩ := at?_mapOrigins p s n path
  rw [hpath] at ht
  obtain ⟨m₀, hm₀, rfl⟩ := Option.map_eq_some_iff.1 ht.symm
  exact ⟨m₀, mem_walk_iff.2 ⟨path, hm₀⟩, t, rfl⟩

theorem AllFaithful.mapOrigins {source : Text} {n : Node} (h : n.AllFaithful source) {σ : Type}
    {p : OriginMap σ} (hp : p.SpansBy id) (s : σ) : (n.mapOrigins p s).AllFaithful source := by
  intro m hm
  obtain ⟨m₀, hm₀, t, rfl⟩ := exists_of_mem_walk_mapOrigins hm
  exact (h m₀ hm₀).mapOrigins hp t

end Node

end RelationNotation
