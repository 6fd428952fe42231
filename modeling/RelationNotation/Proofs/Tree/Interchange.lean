import RelationNotation.Parse.Document
import RelationNotation.Proofs.Tree.Levels
import RelationNotation.Proofs.Tree.Schema

/-!
Trees go through JSON unharmed, as far as the reader goes down. What the parser makes of a text is
read again as the same document, or has too many levels to be read at all; and whatever a model
accepts, in whatever spelling, is written in the format and with no more levels than it had, and read
again as the same thing: `json_round_trip`.
-/

namespace RelationNotation

open Json (toModel_map)

/-- Which model a thing is of. -/
def Modelled.model : Modelled → Model
  | .span _ => .span
  | .trivia _ => .trivia
  | .diagnostic _ => .diagnostic
  | .node (.plain _) => .plain
  | .node (.identifier _) => .identifier
  | .node (.unicodeString _) => .unicodeString
  | .node (.quotedString _) => .quotedString
  | .node (.number _) => .number
  | .node (.operator _) => .operator
  | .node (.arithmeticOp _) => .arithmeticOp
  | .node (.pointerExpression _) => .pointerExpression
  | .node (.pointer _) => .pointer
  | .node (.pointerRef _) => .pointerRef
  | .node (.fycoide _) => .fycoide
  | .node (.typeDesc _) => .typeDesc
  | .node (.gacPrefix _) => .gacPrefix
  | .node (.gacSuffix _) => .gacSuffix
  | .node (.gacSynonym _) => .gacSynonym
  | .node (.gacNested _) => .gacNested
  | .node (.gacString _) => .gacString
  | .node (.protoGacWord _) => .protoGacWord
  | .node (.stdGacWord _) => .stdGacWord
  | .node (.blockBody _) => .blockBody
  | .node (.openRelation _) => .openRelation
  | .node (.relation x) => .relation x.kind
  | .node (.inclusion _) => .inclusion
  | .node (.statement _) => .statement
  | .node (.dashComment _) => .dashComment
  | .node (.emptyStatement _) => .emptyStatement
  | .node (.errorStatement _) => .errorStatement
  | .node (.document _) => .document

theorem Relation.kind_of_value {kind : RelationKind} {ms : Members} {x : Relation}
    (h : ofMembers kind ms = .value x) : x.kind = kind := by
  obtain ⟨⟨origin, given⟩, -, h⟩ := Checked.check_eq_value h
  obtain ⟨left, right, -, rfl⟩ := SidesGiven.sides_of_map h
  rfl

/-- A model accepts things of its own only. -/
theorem Model.model_of_value {m : Model} {ms : Members} {t : Modelled}
    (h : m.ofMembers ms = .value t) : t.model = m := by
  cases m <;> obtain ⟨x, hx, rfl⟩ := Checked.map_eq_value.1 h
  case relation kind => exact congrArg Model.relation (Relation.kind_of_value hx)
  all_goals rfl

/-! ### Every model -/

theorem GacString.loadObject (x : GacString) :
    Json.toModel (fun ms => ofJson (.object ms)) x.toJson = .value x := by
  have h := x.load
  cases x
  rw [toJson, Origin.toJson_eq] at h ⊢
  rw [Json.toModel_object, h]

theorem BlockBody.loadObject (x : BlockBody) :
    Json.toModel (fun ms => ofJson (.object ms)) x.toJson = .value x := by
  have h := x.load
  cases x
  rw [toJson, Origin.toJson_eq] at h ⊢
  rw [Json.toModel_object, h]

/-- What is written is read again as the same thing. -/
theorem Modelled.load (t : Modelled) : Json.toModel t.model.ofMembers t.toJson = .value t := by
  cases t with
  | span x => exact toModel_map span x.load
  | trivia x => exact toModel_map trivia x.load
  | diagnostic x => exact toModel_map diagnostic x.load
  | node x =>
    cases x with
    | plain x => exact toModel_map (node ∘ .plain) x.loads.toModel
    | identifier x => exact toModel_map (node ∘ .identifier) x.loads.toModel
    | unicodeString x => exact toModel_map (node ∘ .unicodeString) x.loads.toModel
    | quotedString x => exact toModel_map (node ∘ .quotedString) x.loads.toModel
    | number x => exact toModel_map (node ∘ .number) x.loads.toModel
    | operator x => exact toModel_map (node ∘ .operator) x.loads.toModel
    | arithmeticOp x => exact toModel_map (node ∘ .arithmeticOp) x.loads.toModel
    | pointerExpression x => exact toModel_map (node ∘ .pointerExpression) x.loads.toModel
    | pointer x => exact toModel_map (node ∘ .pointer) x.loads.toModel
    | pointerRef x => exact toModel_map (node ∘ .pointerRef) x.loads.toModel
    | fycoide x => exact toModel_map (node ∘ .fycoide) x.loads.toModel
    | typeDesc x => exact toModel_map (node ∘ .typeDesc) x.loads.toModel
    | gacPrefix x => exact toModel_map (node ∘ .gacPrefix) x.loads.toModel
    | gacSuffix x => exact toModel_map (node ∘ .gacSuffix) x.loads.toModel
    | gacSynonym x => exact toModel_map (node ∘ .gacSynonym) x.loads.toModel
    | gacNested x => exact toModel_map (node ∘ .gacNested) x.loads.toModel
    | gacString x => exact toModel_map (node ∘ .gacString) x.loadObject
    | protoGacWord x => exact toModel_map (node ∘ .protoGacWord) x.loads.toModel
    | stdGacWord x => exact toModel_map (node ∘ .stdGacWord) x.loads.toModel
    | blockBody x => exact toModel_map (node ∘ .blockBody) x.loadObject
    | openRelation x => exact toModel_map (node ∘ .openRelation) x.loads.toModel
    | relation x => exact toModel_map (node ∘ .relation) x.loads.toModel
    | inclusion x => exact toModel_map (node ∘ .inclusion) x.loads.toModel
    | statement x => exact toModel_map (node ∘ .statement) x.loads.toModel
    | dashComment x => exact toModel_map (node ∘ .dashComment) x.loads.toModel
    | emptyStatement x => exact toModel_map (node ∘ .emptyStatement) x.loads.toModel
    | errorStatement x => exact toModel_map (node ∘ .errorStatement) x.loads.toModel
    | document x => exact toModel_map (node ∘ .document) x.loads.toModel

theorem Modelled.conforms (t : Modelled) : Conforms t.model.schema t.toJson := by
  cases t with
  | span x => exact x.conforms
  | trivia x => exact x.conforms
  | diagnostic x => exact x.conforms
  | node x =>
    cases x with
    | plain x => exact Origin.conformsWith (.text _) .nil (by simp)
    | openRelation x =>
      exact Origin.conformsWith (.text _) (x.right.conforms x.left) fun _ => x.right.oneForm _
    | relation x => exact x.conforms
    | _ x => exact x.conforms

/-! ### Texts -/

/-- What a text is read as was read from an object within the levels that the reader goes down. -/
theorem Json.object_of_modelOfText {α : Type} {read : Members → Checked α} {text : Text} {x : α}
    (h : modelOfText read text = .value x) :
    ∃ ms, (object ms).levels ≤ levelLimit ∧ read ms = .value x := by
  unfold modelOfText at h
  split at h
  next j hread =>
    cases j with
    | object ms => exact ⟨ms, levels_le_of_ofTextWithin? hread, h⟩
    | _ => cases h
  next => cases h

theorem Json.modelOfText_layout {α : Type} {read : Members → Checked α} {j : Json}
    (h : j.Distinct) : modelOfText read j.layout =
      if j.levels ≤ levelLimit then toModel read j else .fail .unreadable := by
  rw [modelOfText]
  by_cases hlevels : j.levels ≤ levelLimit
  · rw [ofTextWithin?_layout h hlevels, if_pos hlevels]
  · rw [ofTextWithin?_layout_of_lt h (Nat.lt_of_not_le hlevels), if_neg hlevels]

theorem Modelled.distinct (t : Modelled) : t.toJson.Distinct :=
  t.conforms.distinct t.model.distinct_schema

theorem Document.distinct (d : Document) : d.toJson.Distinct := (Modelled.node (.document d)).distinct

/-- Whatever the text and the options, the tree keeps to the format, and is read again from the JSON
text that it is written as, if that has no more levels than the reader goes down; if it has more, it
is not read at all. And whatever text a model accepts, what it is read as is of that model, keeps to
the format at every depth, and is written as JSON text that is read as the same thing. -/
theorem json_round_trip :
    (∀ (source : Text) (options : ParserOptions),
      let tree := (parseDocument source options).document
      Conforms Model.document.schema tree.toJson ∧
        Document.ofText tree.toJson.layout =
          if tree.toJson.levels ≤ Json.levelLimit then .value tree else .fail .unreadable) ∧
    ∀ (m : Model) (text : Text) (t : Modelled), m.ofText text = .value t →
      t.model = m ∧ Conforms m.schema t.toJson ∧ m.ofText t.toJson.layout = .value t := by
  refine ⟨fun source options => ?_, fun m text t h => ?_⟩
  · intro tree
    have read : Json.toModel Document.ofMembers tree.toJson = .value tree := tree.loads.toModel
    refine ⟨tree.conforms, ?_⟩
    rw [Document.ofText, Json.modelOfText_layout tree.distinct, read]
  · obtain ⟨ms, hlevels, hms⟩ := Json.object_of_modelOfText h
    obtain rfl := Model.model_of_value hms
    -- The thing is written with no more levels than the text had that it was read from.
    have within := Nat.le_trans (t.model.shallow hms) hlevels
    refine ⟨rfl, t.conforms, ?_⟩
    rw [Model.ofText, Json.modelOfText_layout t.distinct, if_pos within, t.load]

/-- A relation of numbers and truth values in other spellings, without its trivia and its right
side, and with a member that means nothing. -/
def looseShape : Json :=
  let span : Json := .object [("start", .str "0"), ("end", .decimal 60 (-1)), ("line", .bool true),
    ("column", .int 1), ("end_line", .str " 01 "), ("end_column", .str "7.0")]
  .object [("comment", .null), ("has_block", .str "Yes"), ("span", span),
    ("left", .object [("kind", .str "fycoide"), ("span", span),
      ("name", .object [("span", span), ("text", .str "x"), ("kind", .str "identifier")])])]

/-- What the relation above is read as. -/
def plainShape : Modelled :=
  let origin : Origin := ⟨.ofNumbers 0 6 1 1 1 7, []⟩
  .node (.relation ⟨.shape, origin, .fycoide ⟨origin, .identifier ⟨origin, ['x']⟩⟩, .emptyBlock⟩)

theorem looseShape_round_trip :
    (Model.relation .shape).ofText looseShape.layout = .value plainShape ∧
      plainShape.model = .relation .shape ∧
      Conforms (Model.relation .shape).schema plainShape.toJson ∧
      (Model.relation .shape).ofText plainShape.toJson.layout = .value plainShape :=
  have distinct : looseShape.Distinct := by
    simp [looseShape, Json.str, Json.Distinct, Json.DistinctMembers]
  have loaded : (Model.relation .shape).ofText looseShape.layout = .value plainShape := by
    rw [Model.ofText, Json.modelOfText_layout distinct]
    rfl
  ⟨loaded, json_round_trip.2 _ _ _ loaded⟩

/-- A pointer in as many brackets as the parser goes down by itself. -/
def deepBrackets : Text :=
  List.replicate 64 '[' ++ "@[1]".toList ++ List.replicate 64 ']' ++ "::[b];".toList

/-- The text is read without a mistake, but the JSON text of its tree is one level too deep. -/
theorem deepBrackets_unreadable :
    (parseDocument deepBrackets {}).diagnostics = [] ∧
      Document.ofText (parseDocument deepBrackets {}).document.toJson.layout = .fail .unreadable ∧
      ¬ ∀ (source : Text) (options : ParserOptions),
        Document.ofText (parseDocument source options).document.toJson.layout =
          .value (parseDocument source options).document := by
  have deep : (parseDocument deepBrackets {}).document.toJson.levels = Json.levelLimit + 1 := by
    decide +kernel
  have refused :
      Document.ofText (parseDocument deepBrackets {}).document.toJson.layout = .fail .unreadable := by
    rw [Document.ofText, Json.modelOfText_layout (Document.distinct _), if_neg (by omega)]
  refine ⟨by decide +kernel, refused, fun h => ?_⟩
  have read := h deepBrackets {}
  rw [refused] at read
  cases read

end RelationNotation
