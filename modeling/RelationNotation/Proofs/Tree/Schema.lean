import RelationNotation.Proofs.Json.Layout
import RelationNotation.Proofs.Tree.Loading

/-!
The format of trees as JSON, kind by kind: which fields a node of a kind has, and what each may be.
`Conforms` says that a JSON value keeps to the format at every depth. All that is written from a
tree conforms.
-/

namespace RelationNotation

/-- What a part of a JSON value may be. -/
inductive Schema where
  | text
  | flag
  | whole
  | words (among : List String)
  | optional (schema : Schema)
  /-- An array of a number of items or more. -/
  | array (least : Nat) (item : Schema)
  | record (fields : List (String × Schema))
  /-- A node of one of several kinds. -/
  | node (kinds : List String)

/-! ### The format -/

namespace Schema

def stringValues : List String := ["identifier", "unicode_string"]

def includeFiles : List String := ["identifier", "unicode_string", "quoted_string"]

def pointerTerms : List String := ["number", "operator", "arithmetic_op"]

def pointerTargets : List String := ["number", "pointer_expression"]

def gacStems : List String :=
  ["fycoide", "pointer_ref", "operator", "identifier", "gac_prefix", "gac_suffix", "gac_synonym",
    "gac_nested"]

def expressions : List String :=
  ["type_desc", "proto_gac_word", "std_gac_word", "fycoide", "pointer_ref"]

def functionBlocks : List String := "include" :: RelationKind.all.map RelationKind.text

def elements : List String := expressions ++ functionBlocks

def statements : List String := ["statement", "dash_comment", "empty_statement", "error"]

def span : Schema :=
  .record [("start", .whole), ("end", .whole), ("line", .whole), ("column", .whole),
    ("end_line", .whole), ("end_column", .whole)]

def trivia : Schema :=
  .record [("kind", .words (TriviaKind.all.map TriviaKind.text)), ("text", .text), ("span", span)]

def diagnostic : Schema :=
  .record [("kind", .words (DiagnosticKind.all.map DiagnosticKind.text)), ("message", .text),
    ("span", span), ("expected", .array 0 .text)]

def sides : List (String × Schema) :=
  [("left", .node expressions), ("right", .optional (.node expressions)),
    ("body", .optional (.node ["block_body"])), ("has_block", .flag)]

/-- A node's fields, those that all nodes have first. -/
def nodeOf (kind : Schema) (fields : List (String × Schema)) : Schema :=
  .record (("kind", kind) :: ("span", span) :: ("trivia", .array 0 trivia) :: fields)

/-- The kinds of nodes, each with the fields of its own. -/
def kinds : List (String × List (String × Schema)) :=
  [("identifier", [("text", .text)]),
    ("unicode_string", [("text", .text)]),
    ("quoted_string", [("content", .text)]),
    ("number", [("text", .text), ("is_float", .flag)]),
    ("operator", [("symbol", .text)]),
    ("arithmetic_op", [("symbol", .text)]),
    ("pointer_expression", [("expression", .array 1 (.node pointerTerms))]),
    ("pointer", [("id", .node pointerTargets)]),
    ("pointer_ref", [("id", .node pointerTargets)]),
    ("fycoide", [("name", .node stringValues)]),
    ("type_desc", [("description", .node stringValues)]),
    ("gac_prefix", [("prefix", .node ["identifier"]), ("marker", .words ["=", "<|"])]),
    ("gac_suffix", [("marker", .words ["-", "+"]), ("suffix", .node ["identifier"])]),
    ("gac_synonym", [("synonym", .node ["identifier"])]),
    ("gac_nested", [("content", .node ["gac_string"])]),
    ("gac_string", [("stems", .array 1 (.node gacStems))]),
    ("proto_gac_word",
      [("content", .node ["gac_string"]), ("pointer", .optional (.node ["pointer"]))]),
    ("std_gac_word",
      [("content", .node ["gac_string"]), ("pointer", .optional (.node ["pointer"]))]),
    ("block_body", [("elements", .array 1 (.node elements)), ("trailing_comma", .flag)]),
    ("shape", sides), ("hold", sides), ("shift", sides), ("flow", sides), ("melt", sides),
    ("include", [("file", .node includeFiles)]),
    ("statement", [("block", .node functionBlocks)]),
    ("dash_comment", [("text", .text)]),
    ("empty_statement", []),
    ("error", [("message", .text), ("text", .text)]),
    ("fgfh_file", [("statements", .array 0 (.node statements))])]

end Schema

/-- Which sides a relation has: a block if and only if there is no right expression, and a body only
with a block. -/
def OneForm (ms : Members) : Prop :=
  ∃ right body hasBlock, Json.member? ms "right" = some right ∧
    Json.member? ms "body" = some body ∧ Json.member? ms "has_block" = some (.bool hasBlock) ∧
    (hasBlock = true ↔ right = .null) ∧ (body ≠ .null → hasBlock = true)

mutual

/-- A JSON value is what a schema says, at every depth. -/
inductive Conforms : Schema → Json → Prop where
  | text (t : Text) : Conforms .text (.string t)
  | flag (b : Bool) : Conforms .flag (.bool b)
  | whole (n : Int) : Conforms .whole (.int n)
  | word {among : List String} {w : String} (member : w ∈ among) : Conforms (.words among) (.str w)
  | absent {schema : Schema} : Conforms (.optional schema) .null
  | given {schema : Schema} {j : Json} (h : Conforms schema j) : Conforms (.optional schema) j
  | array {least : Nat} {item : Schema} {items : List Json} (enough : least ≤ items.length)
      (each : ∀ j ∈ items, Conforms item j) : Conforms (.array least item) (.array items)
  | record {fields : List (String × Schema)} {ms : Members} (members : ConformsEach fields ms)
      (form : "has_block" ∈ fields.map (·.1) → OneForm ms) : Conforms (.record fields) (.object ms)
  | node {among : List String} {kind : String} {fields : List (String × Schema)} {j : Json}
      (member : kind ∈ among) (declared : Schema.kinds.lookup kind = some fields)
      (h : Conforms (Schema.nodeOf (.words [kind]) fields) j) : Conforms (.node among) j

/-- The members of an object are named as the fields are, in their order, and each is what its field
may be. -/
inductive ConformsEach : List (String × Schema) → Members → Prop where
  | nil : ConformsEach [] []
  | cons {name : String} {schema : Schema} {j : Json} {fields : List (String × Schema)} {ms : Members}
      (first : Conforms schema j) (further : ConformsEach fields ms) :
      ConformsEach ((name, schema) :: fields) ((name, j) :: ms)

end

/-- What is expected of each model. -/
def Model.schema : Model → Schema
  | .span => .span
  | .trivia => .trivia
  | .diagnostic => .diagnostic
  | .plain => .nodeOf .text []
  | .openRelation => .nodeOf .text Schema.sides
  | .identifier => .node ["identifier"]
  | .unicodeString => .node ["unicode_string"]
  | .quotedString => .node ["quoted_string"]
  | .number => .node ["number"]
  | .operator => .node ["operator"]
  | .arithmeticOp => .node ["arithmetic_op"]
  | .pointerExpression => .node ["pointer_expression"]
  | .pointer => .node ["pointer"]
  | .pointerRef => .node ["pointer_ref"]
  | .fycoide => .node ["fycoide"]
  | .typeDesc => .node ["type_desc"]
  | .gacPrefix => .node ["gac_prefix"]
  | .gacSuffix => .node ["gac_suffix"]
  | .gacSynonym => .node ["gac_synonym"]
  | .gacNested => .node ["gac_nested"]
  | .gacString => .node ["gac_string"]
  | .protoGacWord => .node ["proto_gac_word"]
  | .stdGacWord => .node ["std_gac_word"]
  | .blockBody => .node ["block_body"]
  | .relation kind => .node [kind.text]
  | .inclusion => .node ["include"]
  | .statement => .node ["statement"]
  | .dashComment => .node ["dash_comment"]
  | .emptyStatement => .node ["empty_statement"]
  | .errorStatement => .node ["error"]
  | .document => .node ["fgfh_file"]

/-! ### Names -/

namespace Schema

mutual

/-- No record has two fields of one name. -/
def distinct : Schema → Bool
  | .optional schema => schema.distinct
  | .array _ item => item.distinct
  | .record fields => (fields.map (·.1)).Nodup && distinctEach fields
  | _ => true

def distinctEach : List (String × Schema) → Bool
  | [] => true
  | (_, schema) :: fields => schema.distinct && distinctEach fields

end

theorem distinct_of_lookup {kind : String} {fields : List (String × Schema)}
    (h : kinds.lookup kind = some fields) : (nodeOf (.words [kind]) fields).distinct := by
  have each : ∀ e ∈ kinds, (nodeOf (.words [e.1]) e.2).distinct := by decide
  obtain ⟨before, after, heq, -⟩ := List.lookup_eq_some_iff.1 h
  exact each (kind, fields) (heq ▸ List.mem_append_right before List.mem_cons_self)

end Schema

theorem Json.distinctItems_iff {items : List Json} :
    DistinctItems items ↔ ∀ j ∈ items, j.Distinct := by
  induction items with
  | nil => simp [DistinctItems]
  | cons x xs ih => simp [DistinctItems, ih]

mutual

/-- What keeps to the format has no two members of one name. -/
theorem Conforms.distinct {schema : Schema} {j : Json} :
    Conforms schema j → schema.distinct → j.Distinct
  | .text _, _ => trivial
  | .flag _, _ => trivial
  | .whole _, _ => trivial
  | .word _, _ => trivial
  | .absent, _ => trivial
  | .given h, named => h.distinct named
  | .array _ each, named => Json.distinctItems_iff.2 fun j hj => (each j hj).distinct named
  | .record members _, named => by
    obtain ⟨nodup, named⟩ := Bool.and_eq_true_iff.1 named
    obtain ⟨hnames, hmembers⟩ := members.distinct named
    exact ⟨hnames ▸ of_decide_eq_true nodup, hmembers⟩
  | .node _ declared h, _ => h.distinct (Schema.distinct_of_lookup declared)

theorem ConformsEach.distinct {fields : List (String × Schema)} {ms : Members} :
    ConformsEach fields ms → Schema.distinctEach fields →
      ms.map (·.1) = fields.map (·.1) ∧ Json.DistinctMembers ms
  | .nil, _ => ⟨rfl, trivial⟩
  | .cons first further, named => by
    obtain ⟨hfirst, hfurther⟩ := Bool.and_eq_true_iff.1 named
    obtain ⟨hnames, hmembers⟩ := further.distinct hfurther
    exact ⟨congrArg _ hnames, first.distinct hfirst, hmembers⟩

end

theorem Model.distinct_schema (m : Model) : m.schema.distinct := by
  cases m <;> rfl

/-! ### Spans, trivia and diagnostics -/

namespace Conforms

/-- A node may stand where all its kinds may. -/
theorem widen {among among' : List String} {j : Json} (h : Conforms (.node among) j)
    (within : ∀ kind ∈ among, kind ∈ among') : Conforms (.node among') j := by
  cases h with
  | node member declared h => exact .node (within _ member) declared h

theorem list {α : Type} {least : Nat} {item : Schema} {f : α → Json} {xs : List α}
    (enough : least ≤ xs.length) (each : ∀ x ∈ xs, Conforms item (f x)) :
    Conforms (.array least item) (.array (xs.map f)) :=
  .array (by rwa [List.length_map]) (List.forall_mem_map.2 each)

/-- Records without sides have no form to keep to. -/
theorem formless {fields : List (String × Schema)} {ms : Members} (members : ConformsEach fields ms)
    (h : "has_block" ∉ fields.map (·.1)) : Conforms (.record fields) (.object ms) :=
  .record members fun hform => absurd hform h

theorem option {α : Type} {schema : Schema} {f : α → Json} (x : Option α)
    (h : ∀ y ∈ x, Conforms schema (f y)) : Conforms (.optional schema) (.ofOption f x) := by
  cases x with
  | none => exact .absent
  | some y => exact .given (h y rfl)

end Conforms

theorem Span.conforms (x : Span) : Conforms .span x.toJson :=
  .formless (.cons (.whole _) (.cons (.whole _) (.cons (.whole _) (.cons (.whole _)
    (.cons (.whole _) (.cons (.whole _) .nil)))))) (by decide)

theorem Trivia.conforms (x : Trivia) : Conforms .trivia x.toJson := by
  have kind : x.kind.text ∈ TriviaKind.all.map TriviaKind.text := by cases x.kind <;> decide
  exact .formless (.cons (.word kind) (.cons (.text _) (.cons x.span.conforms .nil))) (by decide)

theorem Diagnostic.conforms (x : Diagnostic) : Conforms .diagnostic x.toJson := by
  have kind : x.kind.text ∈ DiagnosticKind.all.map DiagnosticKind.text := by cases x.kind <;> decide
  have expected : Conforms (.array 0 .text) (.array (x.expected.map Json.str)) :=
    .list (Nat.zero_le _) fun _ _ => .text _
  exact .formless (.cons (.word kind) (.cons (.text _) (.cons x.span.conforms (.cons expected .nil))))
    (by decide)

/-! ### Nodes -/

namespace Origin
variable {o : Origin} {kind : String} {schema : Schema} {fields : List (String × Schema)}
  {ms : Members}

theorem conformsWith (hkind : Conforms schema (.str kind)) (h : ConformsEach fields ms)
    (form : "has_block" ∈ fields.map (·.1) → OneForm ms) :
    Conforms (.nodeOf schema fields) (o.toJson kind ms) := by
  have trivia : Conforms (.array 0 .trivia) (.array (o.trivia.map Trivia.toJson)) :=
    .list (Nat.zero_le _) fun x _ => x.conforms
  refine .record (.cons hkind (.cons o.span.conforms (.cons trivia h))) fun hform => ?_
  -- The fields of all nodes come before the sides, under other names.
  obtain ⟨right, body, hasBlock, hright, hbody, hblock, hforms⟩ := form (by simpa using hform)
  exact ⟨right, body, hasBlock, hright, hbody, hblock, hforms⟩

theorem conforms (declared : Schema.kinds.lookup kind = some fields) (h : ConformsEach fields ms)
    (formless : "has_block" ∉ fields.map (·.1)) : Conforms (.node [kind]) (o.toJson kind ms) :=
  .node (List.mem_singleton_self kind) declared
    (conformsWith (.word (List.mem_singleton_self kind)) h fun hform => absurd hform formless)

end Origin

theorem Identifier.conforms (x : Identifier) : Conforms (.node ["identifier"]) x.toJson :=
  Origin.conforms rfl (.cons (.text _) .nil) (by decide)

theorem UnicodeString.conforms (x : UnicodeString) : Conforms (.node ["unicode_string"]) x.toJson :=
  Origin.conforms rfl (.cons (.text _) .nil) (by decide)

theorem QuotedString.conforms (x : QuotedString) : Conforms (.node ["quoted_string"]) x.toJson :=
  Origin.conforms rfl (.cons (.text _) .nil) (by decide)

theorem Number.conforms (x : Number) : Conforms (.node ["number"]) x.toJson :=
  Origin.conforms rfl (.cons (.text _) (.cons (.flag _) .nil)) (by decide)

theorem Operator.conforms (x : Operator) : Conforms (.node ["operator"]) x.toJson :=
  Origin.conforms rfl (.cons (.text _) .nil) (by decide)

theorem ArithmeticOp.conforms (x : ArithmeticOp) : Conforms (.node ["arithmetic_op"]) x.toJson :=
  Origin.conforms rfl (.cons (.text _) .nil) (by decide)

theorem StringValue.conforms (x : StringValue) : Conforms (.node Schema.stringValues) x.toJson := by
  cases x with
  | identifier x => exact x.conforms.widen (by decide)
  | unicodeString x => exact x.conforms.widen (by decide)

theorem IncludeFile.conforms (x : IncludeFile) : Conforms (.node Schema.includeFiles) x.toJson := by
  cases x with
  | identifier x => exact x.conforms.widen (by decide)
  | unicodeString x => exact x.conforms.widen (by decide)
  | quotedString x => exact x.conforms.widen (by decide)

theorem PointerTerm.conforms (x : PointerTerm) : Conforms (.node Schema.pointerTerms) x.toJson := by
  cases x with
  | number x => exact x.conforms.widen (by decide)
  | operator x => exact x.conforms.widen (by decide)
  | arithmeticOp x => exact x.conforms.widen (by decide)

theorem PointerExpression.conforms (x : PointerExpression) :
    Conforms (.node ["pointer_expression"]) x.toJson := by
  have terms : Conforms (.array 1 (.node Schema.pointerTerms))
      (.array (x.terms.map PointerTerm.toJson)) := .list (by simp [terms]) fun y _ => y.conforms
  exact Origin.conforms rfl (.cons terms .nil) (by decide)

theorem PointerId.conforms (x : PointerId) : Conforms (.node Schema.pointerTargets) x.toJson := by
  cases x with
  | number x => exact x.conforms.widen (by decide)
  | expression x => exact x.conforms.widen (by decide)

theorem Pointer.conforms (x : Pointer) : Conforms (.node ["pointer"]) x.toJson :=
  Origin.conforms rfl (.cons x.id.conforms .nil) (by decide)

theorem PointerRef.conforms (x : PointerRef) : Conforms (.node ["pointer_ref"]) x.toJson :=
  Origin.conforms rfl (.cons x.id.conforms .nil) (by decide)

theorem Fycoide.conforms (x : Fycoide) : Conforms (.node ["fycoide"]) x.toJson :=
  Origin.conforms rfl (.cons x.name.conforms .nil) (by decide)

theorem TypeDesc.conforms (x : TypeDesc) : Conforms (.node ["type_desc"]) x.toJson :=
  Origin.conforms rfl (.cons x.description.conforms .nil) (by decide)

theorem GacPrefix.conforms (x : GacPrefix) : Conforms (.node ["gac_prefix"]) x.toJson := by
  have marker : x.marker.text ∈ ["=", "<|"] := by cases x.marker <;> decide
  exact Origin.conforms rfl (.cons x.name.conforms (.cons (.word marker) .nil)) (by decide)

theorem GacSuffix.conforms (x : GacSuffix) : Conforms (.node ["gac_suffix"]) x.toJson := by
  have marker : x.marker.text ∈ ["-", "+"] := by cases x.marker <;> decide
  exact Origin.conforms rfl (.cons (.word marker) (.cons x.name.conforms .nil)) (by decide)

theorem GacSynonym.conforms (x : GacSynonym) : Conforms (.node ["gac_synonym"]) x.toJson :=
  Origin.conforms rfl (.cons x.name.conforms .nil) (by decide)

mutual

theorem GacStem.conforms : (x : GacStem) → Conforms (.node Schema.gacStems) x.toJson
  | .fycoide x => by rw [GacStem.toJson]; exact x.conforms.widen (by decide)
  | .pointerRef x => by rw [GacStem.toJson]; exact x.conforms.widen (by decide)
  | .operator x => by rw [GacStem.toJson]; exact x.conforms.widen (by decide)
  | .identifier x => by rw [GacStem.toJson]; exact x.conforms.widen (by decide)
  | .front x => by rw [GacStem.toJson]; exact x.conforms.widen (by decide)
  | .ending x => by rw [GacStem.toJson]; exact x.conforms.widen (by decide)
  | .synonym x => by rw [GacStem.toJson]; exact x.conforms.widen (by decide)
  | .nested x => by rw [GacStem.toJson]; exact x.conforms.widen (by decide)

theorem GacNested.conforms : (x : GacNested) → Conforms (.node ["gac_nested"]) x.toJson
  | ⟨_, content⟩ => by
    rw [GacNested.toJson]
    exact Origin.conforms rfl (.cons content.conforms .nil) (by decide)

theorem GacString.conforms : (x : GacString) → Conforms (.node ["gac_string"]) x.toJson
  | ⟨_, first, rest⟩ => by
    rw [GacString.toJson]
    have stems : Conforms (.array 1 (.node Schema.gacStems))
        (.array (first.toJson :: GacStem.toJsonList rest)) :=
      .array (Nat.le_add_left _ _)
        (List.forall_mem_cons.2 ⟨first.conforms, GacStem.conformsList rest⟩)
    exact Origin.conforms rfl (.cons stems .nil) (by decide)

theorem GacStem.conformsList : (xs : List GacStem) →
    ∀ j ∈ GacStem.toJsonList xs, Conforms (.node Schema.gacStems) j
  | [] => by simp [GacStem.toJsonList]
  | x :: xs => by
    rw [GacStem.toJsonList]
    exact List.forall_mem_cons.2 ⟨x.conforms, GacStem.conformsList xs⟩

end

theorem Pointer.conformsOption (x : Option Pointer) :
    Conforms (.optional (.node ["pointer"])) (.ofOption Pointer.toJson x) :=
  .option x fun y _ => y.conforms

theorem ProtoGacWord.conforms (x : ProtoGacWord) : Conforms (.node ["proto_gac_word"]) x.toJson :=
  Origin.conforms rfl (.cons x.content.conforms (.cons (Pointer.conformsOption _) .nil)) (by decide)

theorem StdGacWord.conforms (x : StdGacWord) : Conforms (.node ["std_gac_word"]) x.toJson :=
  Origin.conforms rfl (.cons x.content.conforms (.cons (Pointer.conformsOption _) .nil)) (by decide)

theorem Expression.conforms (x : Expression) : Conforms (.node Schema.expressions) x.toJson := by
  cases x with
  | typeDesc x => exact x.conforms.widen (by decide)
  | protoGacWord x => exact x.conforms.widen (by decide)
  | stdGacWord x => exact x.conforms.widen (by decide)
  | fycoide x => exact x.conforms.widen (by decide)
  | pointerRef x => exact x.conforms.widen (by decide)

/-! ### Relations -/

theorem Include.conforms (x : Include) : Conforms (.node ["include"]) x.toJson :=
  Origin.conforms rfl (.cons x.file.conforms .nil) (by decide)

theorem RightSide.oneForm (left : Json) (x : RightSide) : OneForm (x.toFields left) := by
  cases x with
  | expression x => exact ⟨_, .null, false, rfl, rfl, rfl, by simp [x.ne_null], absurd rfl⟩
  | emptyBlock => exact ⟨.null, .null, true, rfl, rfl, rfl, by simp, fun _ => rfl⟩
  | block body => exact ⟨.null, _, true, rfl, rfl, rfl, by simp, fun _ => rfl⟩

mutual

theorem RightSide.conforms (left : Expression) : (x : RightSide) →
    ConformsEach Schema.sides (x.toFields left.toJson)
  | .expression x => by
    rw [RightSide.toFields]
    exact .cons left.conforms (.cons (.given x.conforms) (.cons .absent (.cons (.flag _) .nil)))
  | .emptyBlock => by
    rw [RightSide.toFields]
    exact .cons left.conforms (.cons .absent (.cons .absent (.cons (.flag _) .nil)))
  | .block body => by
    rw [RightSide.toFields]
    exact .cons left.conforms (.cons .absent (.cons (.given body.conforms) (.cons (.flag _) .nil)))

theorem Relation.conforms : (x : Relation) → Conforms (.node [x.kind.text]) x.toJson
  | ⟨kind, _, left, right⟩ => by
    rw [Relation.toJson]
    have declared : Schema.kinds.lookup kind.text = some Schema.sides := by cases kind <;> rfl
    exact .node (List.mem_singleton_self _) declared (Origin.conformsWith
      (.word (List.mem_singleton_self _)) (right.conforms left) fun _ => right.oneForm _)

theorem BlockBody.conforms : (x : BlockBody) → Conforms (.node ["block_body"]) x.toJson
  | ⟨_, first, rest, _⟩ => by
    rw [BlockBody.toJson]
    have elements : Conforms (.array 1 (.node Schema.elements))
        (.array (first.toJson :: Element.toJsonList rest)) :=
      .array (Nat.le_add_left _ _)
        (List.forall_mem_cons.2 ⟨first.conforms, Element.conformsList rest⟩)
    exact Origin.conforms rfl (.cons elements (.cons (.flag _) .nil)) (by decide)

theorem Element.conforms : (x : Element) → Conforms (.node Schema.elements) x.toJson
  | .expression x => by rw [Element.toJson]; exact x.conforms.widen (by decide)
  | .inclusion x => by rw [Element.toJson]; exact x.conforms.widen (by decide)
  | .relation x => by
    rw [Element.toJson]
    exact x.conforms.widen (by cases x.kind <;> decide)

theorem Element.conformsList : (xs : List Element) →
    ∀ j ∈ Element.toJsonList xs, Conforms (.node Schema.elements) j
  | [] => by simp [Element.toJsonList]
  | x :: xs => by
    rw [Element.toJsonList]
    exact List.forall_mem_cons.2 ⟨x.conforms, Element.conformsList xs⟩

end

theorem FunctionBlock.conforms (x : FunctionBlock) :
    Conforms (.node Schema.functionBlocks) x.toJson := by
  cases x with
  | inclusion x => exact x.conforms.widen (by decide)
  | relation x => exact x.conforms.widen (by cases x.kind <;> decide)

/-! ### Documents -/

theorem BlockStatement.conforms (x : BlockStatement) : Conforms (.node ["statement"]) x.toJson :=
  Origin.conforms rfl (.cons x.block.conforms .nil) (by decide)

theorem DashComment.conforms (x : DashComment) : Conforms (.node ["dash_comment"]) x.toJson :=
  Origin.conforms rfl (.cons (.text _) .nil) (by decide)

theorem EmptyStatement.conforms (x : EmptyStatement) :
    Conforms (.node ["empty_statement"]) x.toJson :=
  Origin.conforms rfl .nil (by decide)

theorem ErrorStatement.conforms (x : ErrorStatement) : Conforms (.node ["error"]) x.toJson :=
  Origin.conforms rfl (.cons (.text _) (.cons (.text _) .nil)) (by decide)

theorem Statement.conforms (x : Statement) : Conforms (.node Schema.statements) x.toJson := by
  cases x with
  | block x => exact x.conforms.widen (by decide)
  | dashComment x => exact x.conforms.widen (by decide)
  | empty x => exact x.conforms.widen (by decide)
  | error x => exact x.conforms.widen (by decide)

theorem Document.conforms (x : Document) : Conforms (.node ["fgfh_file"]) x.toJson := by
  have statements : Conforms (.array 0 (.node Schema.statements))
      (.array (x.statements.map Statement.toJson)) := .list (Nat.zero_le _) fun y _ => y.conforms
  exact Origin.conforms rfl (.cons statements .nil) (by decide)

end RelationNotation
