import RelationNotation.Proofs.Json.Reading
import RelationNotation.Tree.Model

/-!
Whatever is written as JSON is read again as the same thing. One lemma for each kind of node says
so (`Loads`); gac strings and block bodies are read level by level, and each level is a level of the
JSON value.
-/

namespace RelationNotation

open Json (field fieldOr Loads)

/-! ### Spans, trivia and diagnostics -/

theorem Span.load (x : Span) : Json.toModel Span.ofMembers x.toJson = .value x := by
  simp [toJson, ofMembers, Json.toInt]
  rfl

theorem Json.toStr_str (s : String) : Json.toStr (.str s) = .value s := by
  simp [toStr, str, toText]

theorem TriviaKind.load (k : TriviaKind) :
    Json.toEnumeration ofText? (.str k.text) = .value k := by
  simp [Json.toEnumeration, Json.str, ofText?_text]

theorem DiagnosticKind.load (k : DiagnosticKind) :
    Json.toEnumeration ofText? (.str k.text) = .value k := by
  simp [Json.toEnumeration, Json.str, ofText?_text]

theorem Trivia.load (x : Trivia) : Json.toModel Trivia.ofMembers x.toJson = .value x := by
  simp [toJson, ofMembers, TriviaKind.load, Json.toText, Span.load]

theorem Diagnostic.load (x : Diagnostic) :
    Json.toModel Diagnostic.ofMembers x.toJson = .value x := by
  have expected : Json.toList Json.toStr (.array (x.expected.map Json.str)) = .value x.expected :=
    Json.toList_map fun s _ => Json.toStr_str s
  simp [toJson, ofMembers, DiagnosticKind.load, Json.toStr_str, Span.load, expected]

/-! ### Origins -/

/-- The members of a node. -/
def Origin.members (o : Origin) (kind : String) (fields : Members) : Members :=
  ("kind", .str kind) :: ("span", o.span.toJson) ::
    ("trivia", .array (o.trivia.map Trivia.toJson)) :: fields

/-- Names that no node has a field of its own by. -/
def Origin.names : List String := ["kind", "span", "trivia"]

section
variable {α : Type} (o : Origin) (kind : String) (fields : Members)

theorem Origin.toJson_eq : o.toJson kind fields = .object (o.members kind fields) := rfl

theorem Origin.ofMembers_members : Origin.ofMembers (o.members kind fields) = .value o := by
  have trivia : Json.toList (Json.toModel Trivia.ofMembers)
      (.array (o.trivia.map Trivia.toJson)) = .value o.trivia :=
    Json.toList_map fun x _ => x.load
  simp [ofMembers, members, Span.load, trivia]

@[simp] theorem originOf_members : originOf kind (o.members kind fields) = .value o := by
  have literal : Json.toLiteral (fun t => if t = kind then some () else none) (.str kind) =
      .value () := by simp [Json.toLiteral, Json.str]
  rw [originOf, Origin.ofMembers_members, Origin.members, Json.fieldOr_self, literal]
  rfl

@[simp] theorem field_members {name : String} (h : name ∉ Origin.names)
    (read : Json → Checked α) : field (o.members kind fields) name read = field fields name read := by
  simp only [Origin.names, List.mem_cons, List.not_mem_nil, or_false, not_or] at h
  obtain ⟨h₁, h₂, h₃⟩ := h
  rw [Origin.members, Json.field_of_ne (Ne.symm h₁), Json.field_of_ne (Ne.symm h₂),
    Json.field_of_ne (Ne.symm h₃)]

@[simp] theorem fieldOr_members {name : String} (h : name ∉ Origin.names) (default : α)
    (read : Json → Checked α) :
    fieldOr default (o.members kind fields) name read = fieldOr default fields name read := by
  simp only [Origin.names, List.mem_cons, List.not_mem_nil, or_false, not_or] at h
  obtain ⟨h₁, h₂, h₃⟩ := h
  rw [Origin.members, Json.fieldOr_of_ne (Ne.symm h₁), Json.fieldOr_of_ne (Ne.symm h₂),
    Json.fieldOr_of_ne (Ne.symm h₃)]

variable {o kind fields}

theorem Origin.loads {read : Members → Checked α} {x : α}
    (h : read (o.members kind fields) = .value x) : Loads kind read x (o.toJson kind fields) :=
  ⟨_, rfl, rfl, h⟩

end

/-! ### Leaves -/

theorem Identifier.loads (x : Identifier) : Loads "identifier" ofMembers x x.toJson :=
  Origin.loads (by simp [ofMembers, Origin.names, Json.toText])

theorem UnicodeString.loads (x : UnicodeString) : Loads "unicode_string" ofMembers x x.toJson :=
  Origin.loads (by simp [ofMembers, Origin.names, Json.toText])

theorem QuotedString.loads (x : QuotedString) : Loads "quoted_string" ofMembers x x.toJson :=
  Origin.loads (by simp [ofMembers, Origin.names, Json.toText])

theorem Number.loads (x : Number) : Loads "number" ofMembers x x.toJson :=
  Origin.loads (by simp [ofMembers, Origin.names, Json.toText, Json.toBool])

theorem Operator.loads (x : Operator) : Loads "operator" ofMembers x x.toJson :=
  Origin.loads (by simp [ofMembers, Origin.names, Json.toText])

theorem ArithmeticOp.loads (x : ArithmeticOp) : Loads "arithmetic_op" ofMembers x x.toJson :=
  Origin.loads (by simp [ofMembers, Origin.names, Json.toText])

theorem StringValue.load (x : StringValue) : ofJson x.toJson = .value x := by
  cases x with
  | identifier x => exact x.loads.toChoice identifier rfl
  | unicodeString x => exact x.loads.toChoice unicodeString rfl

theorem IncludeFile.load (x : IncludeFile) : ofJson x.toJson = .value x := by
  cases x with
  | identifier x => exact x.loads.toChoice identifier rfl
  | unicodeString x => exact x.loads.toChoice unicodeString rfl
  | quotedString x => exact x.loads.toChoice quotedString rfl

theorem PointerTerm.load (x : PointerTerm) : ofJson x.toJson = .value x := by
  cases x with
  | number x => exact x.loads.toChoice number rfl
  | operator x => exact x.loads.toChoice operator rfl
  | arithmeticOp x => exact x.loads.toChoice arithmeticOp rfl

/-! ### Expressions -/

theorem PointerExpression.loads (x : PointerExpression) :
    Loads "pointer_expression" ofMembers x x.toJson := by
  have terms : Json.toNonempty PointerTerm.ofJson (.array (x.terms.map PointerTerm.toJson)) =
      .value (x.first, x.rest) := Json.toNonempty_map fun y _ => y.load
  exact Origin.loads (by simp [ofMembers, Origin.names, terms])

theorem PointerId.load (x : PointerId) : ofJson x.toJson = .value x := by
  cases x with
  | number x => exact x.loads.toChoice number rfl
  | expression x => exact x.loads.toChoice expression rfl

theorem Pointer.loads (x : Pointer) : Loads "pointer" ofMembers x x.toJson :=
  Origin.loads (by simp [ofMembers, Origin.names, PointerId.load])

theorem PointerRef.loads (x : PointerRef) : Loads "pointer_ref" ofMembers x x.toJson :=
  Origin.loads (by simp [ofMembers, Origin.names, PointerId.load])

theorem Fycoide.loads (x : Fycoide) : Loads "fycoide" ofMembers x x.toJson :=
  Origin.loads (by simp [ofMembers, Origin.names, StringValue.load])

theorem TypeDesc.loads (x : TypeDesc) : Loads "type_desc" ofMembers x x.toJson :=
  Origin.loads (by simp [ofMembers, Origin.names, StringValue.load])

theorem PrefixMarker.load (m : PrefixMarker) : Json.toLiteral ofText? (.str m.text) = .value m := by
  simp [Json.toLiteral, Json.str, ofText?_text]

theorem SuffixMarker.load (m : SuffixMarker) : Json.toLiteral ofText? (.str m.text) = .value m := by
  simp [Json.toLiteral, Json.str, ofText?_text]

theorem GacPrefix.loads (x : GacPrefix) : Loads "gac_prefix" ofMembers x x.toJson :=
  Origin.loads (by simp [ofMembers, Origin.names, x.name.loads.toModel, PrefixMarker.load])

theorem GacSuffix.loads (x : GacSuffix) : Loads "gac_suffix" ofMembers x x.toJson :=
  Origin.loads (by simp [ofMembers, Origin.names, x.name.loads.toModel, SuffixMarker.load])

theorem GacSynonym.loads (x : GacSynonym) : Loads "gac_synonym" ofMembers x x.toJson :=
  Origin.loads (by simp [ofMembers, Origin.names, x.name.loads.toModel])

theorem GacStem.toJsonList_eq (xs : List GacStem) : toJsonList xs = xs.map toJson := by
  induction xs with
  | nil => rfl
  | cons x xs ih => rw [toJsonList, ih, List.map_cons]

section
variable {content : Json → Checked GacString}

theorem GacNested.loadsWith {x : GacNested} (h : content x.content.toJson = .value x.content) :
    Loads "gac_nested" (ofMembersWith content) x x.toJson := by
  cases x
  exact Origin.loads (by simp [ofMembersWith, Origin.names, h])

theorem GacStem.loadWith {x : GacStem}
    (h : ∀ y, x = .nested y → content y.content.toJson = .value y.content) :
    ofJsonWith content x.toJson = .value x := by
  cases x <;> rw [toJson]
  case fycoide x => exact x.loads.toChoice fycoide rfl
  case pointerRef x => exact x.loads.toChoice pointerRef rfl
  case operator x => exact x.loads.toChoice operator rfl
  case identifier x => exact x.loads.toChoice identifier rfl
  case front x => exact x.loads.toChoice front rfl
  case ending x => exact x.loads.toChoice ending rfl
  case synonym x => exact x.loads.toChoice synonym rfl
  case nested x => exact (GacNested.loadsWith (h x rfl)).toChoice nested rfl

end

theorem GacString.depth_content_lt {x : GacString} {y : GacNested} (h : .nested y ∈ x.stems) :
    y.content.toJson.depth < x.toJson.depth := by
  obtain ⟨origin, first, rest⟩ := x
  obtain ⟨inner, content⟩ := y
  have inNested : content.toJson.depth < (GacNested.toJson ⟨inner, content⟩).depth := by
    rw [GacNested.toJson]
    exact Json.depth_field_lt "content" (by simp)
  have inStems : (GacNested.toJson ⟨inner, content⟩).depth <
      (Json.array (GacStem.toJsonList (first :: rest))).depth := by
    refine Json.depth_item_lt ?_
    rw [GacStem.toJsonList_eq]
    exact List.mem_map.2 ⟨_, h, by rw [GacStem.toJson]⟩
  have inString : (Json.array (GacStem.toJsonList (first :: rest))).depth <
      (GacString.toJson ⟨origin, first, rest⟩).depth := by
    rw [GacString.toJson]
    exact Json.depth_field_lt "stems" (by simp [GacStem.toJsonList])
  exact Nat.lt_trans inNested (Nat.lt_trans inStems inString)

theorem GacString.loadsWith {content : Json → Checked GacString} {x : GacString}
    (h : ∀ y, .nested y ∈ x.stems → content y.content.toJson = .value y.content) :
    Loads "gac_string" (ofMembersWith content) x x.toJson := by
  obtain ⟨origin, first, rest⟩ := x
  have stems : Json.toNonempty (GacStem.ofJsonWith content)
      (.array (first.toJson :: rest.map GacStem.toJson)) = .value (first, rest) := by
    refine Json.toNonempty_map fun x hx => GacStem.loadWith ?_
    rintro y rfl
    exact h y hx
  rw [toJson, GacStem.toJsonList_eq]
  exact Origin.loads (by simp [ofMembersWith, Origin.names, stems])

/-- As many levels as the JSON value has are enough. -/
theorem GacString.loadWithin {k : Nat} {x : GacString} (h : x.toJson.depth ≤ k) :
    ofJsonWithin k x.toJson = .value x := by
  induction k generalizing x with
  | zero =>
    -- Whatever is written is an object, so it has a level of its own.
    cases x
    rw [toJson, Origin.toJson_eq, Json.depth] at h
    cases h
  | succ k ih =>
    refine (loadsWith fun y hy => ih ?_).toModel
    have := depth_content_lt hy
    omega

theorem GacString.load (x : GacString) : ofJson x.toJson = .value x := loadWithin (Nat.le_refl _)

theorem GacNested.loads (x : GacNested) : Loads "gac_nested" ofMembers x x.toJson :=
  loadsWith x.content.load

theorem Json.toOption_ofOption {α : Type} {read : Json → Checked α} {f : α → Json} {x : Option α}
    (hread : ∀ y ∈ x, read (f y) = .value y) (hnull : ∀ y ∈ x, f y ≠ .null) :
    Json.toOption read (.ofOption f x) = .value x := by
  cases x with
  | none => rfl
  | some y =>
    rw [Json.ofOption, Json.toOption_of_ne_null (hnull y rfl), hread y rfl]
    rfl

theorem Pointer.loadOption (x : Option Pointer) :
    Json.toOption (Json.toModel Pointer.ofMembers) (.ofOption Pointer.toJson x) = .value x :=
  Json.toOption_ofOption (fun y _ => y.loads.toModel) fun y _ => y.loads.ne_null

theorem ProtoGacWord.loads (x : ProtoGacWord) : Loads "proto_gac_word" ofMembers x x.toJson :=
  Origin.loads (by simp [ofMembers, Origin.names, GacString.load, Pointer.loadOption])

theorem StdGacWord.loads (x : StdGacWord) : Loads "std_gac_word" ofMembers x x.toJson :=
  Origin.loads (by simp [ofMembers, Origin.names, GacString.load, Pointer.loadOption])

/-- An expression is read where other models may stand too, if their kinds come later. -/
theorem Expression.loadAs {α : Type} (make : Expression → α)
    (others : List (String × (Members → Checked α))) (x : Expression) :
    Json.toChoice (models make ++ others) x.toJson = .value (make x) := by
  -- The tags of the five kinds come first, so none of the others is found for them.
  cases x with
  | typeDesc x => exact x.loads.toChoice (make ∘ .typeDesc) rfl
  | protoGacWord x => exact x.loads.toChoice (make ∘ .protoGacWord) rfl
  | stdGacWord x => exact x.loads.toChoice (make ∘ .stdGacWord) rfl
  | fycoide x => exact x.loads.toChoice (make ∘ .fycoide) rfl
  | pointerRef x => exact x.loads.toChoice (make ∘ .pointerRef) rfl

theorem Expression.load (x : Expression) : ofJson x.toJson = .value x := x.loadAs id []

theorem Expression.ne_null (x : Expression) : x.toJson ≠ .null := by
  cases x with
  | typeDesc x => exact x.loads.ne_null
  | protoGacWord x => exact x.loads.ne_null
  | stdGacWord x => exact x.loads.ne_null
  | fycoide x => exact x.loads.ne_null
  | pointerRef x => exact x.loads.ne_null

/-! ### Relations -/

theorem Include.loads (x : Include) : Loads "include" ofMembers x x.toJson :=
  Origin.loads (by simp [ofMembers, Origin.names, IncludeFile.load])

/-- The sides of a relation as they are written. -/
def RightSide.given (left : Expression) : RightSide → SidesGiven
  | .expression x => ⟨left, some x, none, false⟩
  | .emptyBlock => ⟨left, none, none, true⟩
  | .block body => ⟨left, none, some body, true⟩

theorem RightSide.sides_given (left : Expression) (x : RightSide) :
    (x.given left).sides = .ok (left, x) := by
  cases x <;> rfl

section
variable {body : Json → Checked BlockBody}

/-- The sides of a relation are read if the body between its braces is. -/
theorem RightSide.loadGiven {o : Origin} {kind : String} {left : Expression} {x : RightSide}
    (h : ∀ y ∈ x.body?, body y.toJson = .value y) (hnull : ∀ y ∈ x.body?, y.toJson ≠ .null) :
    SidesGiven.ofMembersWith body (o.members kind (x.toFields left.toJson)) =
      .value (x.given left) := by
  have null {α : Type} (read : Json → Checked α) : Json.toOption read .null = .value none := rfl
  cases x with
  | expression x =>
    have right : Json.toOption Expression.ofJson x.toJson = .value (some x) := by
      rw [Json.toOption_of_ne_null x.ne_null, x.load]
      rfl
    simp [SidesGiven.ofMembersWith, toFields, relationFields, Origin.names, Expression.load, right,
      null, Json.toBool, given]
  | emptyBlock =>
    simp [SidesGiven.ofMembersWith, toFields, relationFields, Origin.names, Expression.load, null,
      Json.toBool, given]
  | block y =>
    have inBraces : Json.toOption body y.toJson = .value (some y) := by
      rw [Json.toOption_of_ne_null (hnull y rfl), h y rfl]
      rfl
    simp [SidesGiven.ofMembersWith, toFields, relationFields, Origin.names, Expression.load,
      inBraces, null, Json.toBool, given]

theorem Relation.loadsWith {x : Relation} (h : ∀ y ∈ x.right.body?, body y.toJson = .value y)
    (hnull : ∀ y ∈ x.right.body?, y.toJson ≠ .null) :
    Loads x.kind.text (ofMembersWith body x.kind) x x.toJson := by
  obtain ⟨kind, origin, left, right⟩ := x
  rw [toJson]
  refine Origin.loads ?_
  rw [ofMembersWith, originOf_members, RightSide.loadGiven h hnull, Checked.map_value,
    Checked.seq_value]
  exact Checked.check_of_ok (by simp only [RightSide.sides_given]; rfl)

theorem Element.loadWith {x : Element}
    (h : ∀ y, x = .relation y → ∀ z ∈ y.right.body?, body z.toJson = .value z)
    (hnull : ∀ y : BlockBody, y.toJson ≠ .null) : ofJsonWith body x.toJson = .value x := by
  cases x <;> rw [toJson]
  case expression x => exact x.loadAs expression _
  case inclusion x => exact x.loads.toChoice inclusion rfl
  case relation x =>
    refine (Relation.loadsWith (h x rfl) fun z _ => hnull z).toChoice relation ?_
    obtain ⟨kind, origin, left, right⟩ := x
    cases kind <;> rfl

theorem Element.toJsonList_eq (xs : List Element) : toJsonList xs = xs.map toJson := by
  induction xs with
  | nil => rfl
  | cons x xs ih => rw [toJsonList, ih, List.map_cons]

theorem BlockBody.loadsWith {x : BlockBody}
    (h : ∀ y, .relation y ∈ x.elements → ∀ z ∈ y.right.body?, body z.toJson = .value z)
    (hnull : ∀ y : BlockBody, y.toJson ≠ .null) :
    Loads "block_body" (ofMembersWith body) x x.toJson := by
  obtain ⟨origin, first, rest, trailingComma⟩ := x
  have elements : Json.toNonempty (Element.ofJsonWith body)
      (.array (first.toJson :: rest.map Element.toJson)) = .value (first, rest) := by
    refine Json.toNonempty_map fun x hx => Element.loadWith ?_ hnull
    rintro y rfl
    exact h y hx
  rw [toJson, Element.toJsonList_eq]
  exact Origin.loads (by simp [ofMembersWith, Origin.names, elements, Json.toBool])

end

theorem BlockBody.ne_null (x : BlockBody) : x.toJson ≠ .null := by
  cases x
  rw [toJson]
  exact fun h => by cases h

theorem BlockBody.depth_body_lt {x : BlockBody} {y : Relation} {z : BlockBody}
    (h : .relation y ∈ x.elements) (hz : z ∈ y.right.body?) : z.toJson.depth < x.toJson.depth := by
  obtain ⟨origin, first, rest, trailingComma⟩ := x
  obtain ⟨kind, inner, left, right⟩ := y
  have inRelation : z.toJson.depth < (Relation.toJson ⟨kind, inner, left, right⟩).depth := by
    cases right with
    | expression x => cases hz
    | emptyBlock => cases hz
    | block body =>
      obtain rfl : body = z := Option.some.inj hz
      rw [Relation.toJson]
      exact Json.depth_field_lt "body" (by simp [RightSide.toFields, relationFields])
  have inElements : (Relation.toJson ⟨kind, inner, left, right⟩).depth <
      (Json.array (Element.toJsonList (first :: rest))).depth := by
    refine Json.depth_item_lt ?_
    rw [Element.toJsonList_eq]
    exact List.mem_map.2 ⟨_, h, by rw [Element.toJson]⟩
  have inBody : (Json.array (Element.toJsonList (first :: rest))).depth <
      (BlockBody.toJson ⟨origin, first, rest, trailingComma⟩).depth := by
    rw [BlockBody.toJson]
    exact Json.depth_field_lt "elements" (by simp [Element.toJsonList])
  exact Nat.lt_trans inRelation (Nat.lt_trans inElements inBody)

/-- As many levels as the JSON value has are enough. -/
theorem BlockBody.loadWithin {k : Nat} {x : BlockBody} (h : x.toJson.depth ≤ k) :
    ofJsonWithin k x.toJson = .value x := by
  induction k generalizing x with
  | zero =>
    cases x
    rw [toJson, Origin.toJson_eq, Json.depth] at h
    cases h
  | succ k ih =>
    refine (loadsWith (fun y hy z hz => ih ?_) ne_null).toModel
    have := depth_body_lt hy hz
    omega

theorem BlockBody.load (x : BlockBody) : ofJson x.toJson = .value x := loadWithin (Nat.le_refl _)

theorem Relation.loads (x : Relation) : Loads x.kind.text (ofMembers x.kind) x x.toJson :=
  loadsWith (fun y _ => y.load) fun y _ => y.ne_null

theorem OpenRelation.loads (x : OpenRelation) :
    Loads x.kind ofMembers x (x.origin.toJson x.kind (x.right.toFields x.left.toJson)) := by
  refine Origin.loads ?_
  have kind : field (x.origin.members x.kind (x.right.toFields x.left.toJson)) "kind" Json.toStr =
      .value x.kind := by
    rw [Origin.members, Json.field_self, Json.toStr_str]
    rfl
  rw [ofMembers, kind, Origin.ofMembers_members,
    RightSide.loadGiven (fun y _ => y.load) fun y _ => y.ne_null]
  exact Checked.check_of_ok (by simp only [RightSide.sides_given]; rfl)

theorem FunctionBlock.load (x : FunctionBlock) : ofJson x.toJson = .value x := by
  cases x with
  | inclusion x => exact x.loads.toChoice inclusion rfl
  | relation x =>
    refine x.loads.toChoice relation ?_
    obtain ⟨kind, origin, left, right⟩ := x
    cases kind <;> rfl

/-! ### Documents -/

theorem BlockStatement.loads (x : BlockStatement) : Loads "statement" ofMembers x x.toJson :=
  Origin.loads (by simp [ofMembers, Origin.names, FunctionBlock.load])

theorem DashComment.loads (x : DashComment) : Loads "dash_comment" ofMembers x x.toJson :=
  Origin.loads (by simp [ofMembers, Origin.names, Json.toText])

theorem EmptyStatement.loads (x : EmptyStatement) : Loads "empty_statement" ofMembers x x.toJson :=
  Origin.loads (by simp [ofMembers])

theorem ErrorStatement.loads (x : ErrorStatement) : Loads "error" ofMembers x x.toJson :=
  Origin.loads (by simp [ofMembers, Origin.names, Json.toText, Json.toStr_str])

theorem Statement.load (x : Statement) : ofJson x.toJson = .value x := by
  cases x with
  | block x => exact x.loads.toChoice block rfl
  | dashComment x => exact x.loads.toChoice dashComment rfl
  | empty x => exact x.loads.toChoice empty rfl
  | error x => exact x.loads.toChoice error rfl

theorem Document.loads (x : Document) : Loads "fgfh_file" ofMembers x x.toJson := by
  have statements : Json.toList Statement.ofJson (.array (x.statements.map Statement.toJson)) =
      .value x.statements := Json.toList_map fun y _ => y.load
  exact Origin.loads (by simp [ofMembers, Origin.names, statements])

theorem PlainNode.loads (x : PlainNode) : Loads x.kind ofMembers x (x.origin.toJson x.kind []) := by
  refine Origin.loads ?_
  have kind : field (x.origin.members x.kind []) "kind" Json.toStr = .value x.kind := by
    rw [Origin.members, Json.field_self, Json.toStr_str]
    rfl
  rw [ofMembers, kind, Origin.ofMembers_members]
  rfl

end RelationNotation
