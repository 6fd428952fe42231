import RelationNotation.Proofs.Json.Levels
import RelationNotation.Proofs.Tree.Loading
import RelationNotation.Tree.Model

/-!
A tree that is read from JSON is written with no more levels than it was read from. Each array and
each object that is written was there; what was left out is written as null, as a truth value or as
an empty array, which is no level.
-/

namespace RelationNotation

open Json (field fieldOr toModel toChoice member? levelsOfMembers levelsOfItems)

namespace Checked
variable {α β γ δ : Type} {r : Checked α} {q : Checked β} {p : Checked γ}

theorem seq_eq_value {f : Checked (α → β)} {y : β} :
    f <*> r = .value y ↔ ∃ g x, f = .value g ∧ r = .value x ∧ g x = y := by
  cases f <;> cases r <;> simp [Seq.seq, app]

theorem map₂_eq_value {f : α → β → γ} {z : γ} :
    f <$> r <*> q = .value z ↔ ∃ x y, r = .value x ∧ q = .value y ∧ f x y = z := by
  cases r <;> cases q <;> simp [Seq.seq, Functor.map, app]

theorem map₃_eq_value {f : α → β → γ → δ} {w : δ} : f <$> r <*> q <*> p = .value w ↔
    ∃ x y z, r = .value x ∧ q = .value y ∧ p = .value z ∧ f x y z = w := by
  cases r <;> cases q <;> cases p <;> simp [Seq.seq, Functor.map, app]

theorem pair_eq_value {x : α} {y : β} :
    Prod.mk <$> r <*> q = .value (x, y) ↔ r = .value x ∧ q = .value y := by
  cases r <;> cases q <;> simp [Seq.seq, Functor.map, app]

theorem under_eq_value {s : JsonStep} {x : α} : r.under s = .value x ↔ r = .value x := by
  cases r <;> simp [under]

end Checked

/-! ### Readings of parts -/

/-- What is read is written with no more levels than it was read from. -/
def Shallow {α : Type} (read : Json → Checked α) (write : α → Json) : Prop :=
  ∀ ⦃j x⦄, read j = .value x → (write x).levels ≤ j.levels

/-- What is read from the members of an object is written with no more levels than the object has. -/
def ShallowModel {α : Type} (read : Members → Checked α) (write : α → Json) : Prop :=
  ∀ ⦃ms x⦄, read ms = .value x → (write x).levels ≤ (Json.object ms).levels

/-- What is read for a field is written with no more levels than the members have. -/
def ShallowField {α : Type} (read : Members → Checked α) (write : α → Json) : Prop :=
  ∀ ⦃ms x⦄, read ms = .value x → (write x).levels ≤ levelsOfMembers ms

/-- What is read by one of several models is written with no more levels than it was read from. -/
def ShallowEach {α : Type} (models : List (String × (Members → Checked α))) (write : α → Json) :
    Prop :=
  ∀ m ∈ models, ShallowModel m.2 write

section
variable {α β : Type} {read : Json → Checked α} {write : α → Json} {j : Json} {ms : Members}
  {name : String} {x : α}

theorem Shallow.flat (h : ∀ x, (write x).levels = 0) : Shallow read write := by
  intro j x _
  rw [h]
  exact Nat.zero_le _

theorem levels_member? (h : member? ms name = some j) : j.levels ≤ levelsOfMembers ms := by
  obtain ⟨m, hm, rfl⟩ := Option.map_eq_some_iff.1 h
  exact Json.levelsOfMembers_le_iff.1 (Nat.le_refl _) m (List.mem_of_find?_eq_some hm)

theorem Shallow.field (h : Shallow read write) : ShallowField (field · name read) write := by
  intro ms x hx
  dsimp only [Json.field] at hx
  split at hx
  next hj => exact Nat.le_trans (h (Checked.under_eq_value.1 hx)) (levels_member? hj)
  next => cases hx

theorem Shallow.fieldOr {default : α} (h : Shallow read write)
    (hdefault : (write default).levels = 0) : ShallowField (fieldOr default · name read) write := by
  intro ms x hx
  dsimp only [Json.fieldOr] at hx
  split at hx
  next hj => exact Nat.le_trans (h (Checked.under_eq_value.1 hx)) (levels_member? hj)
  next =>
    cases hx
    rw [hdefault]
    exact Nat.zero_le _

theorem Shallow.toModel {read : Members → Checked α} (h : ShallowModel read write) :
    Shallow (toModel read) write := by
  intro j x hx
  cases j with
  | object ms => exact h hx
  | _ => cases hx

theorem Shallow.toOption (h : Shallow read write) :
    Shallow (Json.toOption read) (Json.ofOption write) := by
  intro j x hx
  unfold Json.toOption at hx
  split at hx
  · cases hx
    exact Nat.le_refl _
  · obtain ⟨y, hy, rfl⟩ := Checked.map_eq_value.1 hx
    exact h hy

/-! ### Arrays -/

theorem Shallow.items (h : Shallow read write) {items : List Json} {i : Nat} {xs : List α}
    (hxs : Checked.ofList (Json.itemsFrom read i items) = .value xs) :
    (Json.array (xs.map write)).levels ≤ (Json.array items).levels := by
  have each : xs.length = items.length ∧ levelsOfItems (xs.map write) ≤ levelsOfItems items := by
    induction items generalizing i xs with
    | nil =>
      cases hxs
      exact ⟨rfl, Nat.le_refl _⟩
    | cons j items ih =>
      obtain ⟨g, ys, hg, hys, rfl⟩ := Checked.seq_eq_value.1 hxs
      obtain ⟨f, x, hf, hx, rfl⟩ := Checked.seq_eq_value.1 hg
      cases hf
      obtain ⟨length, levels⟩ := ih hys
      have first := h (Checked.under_eq_value.1 hx)
      refine ⟨congrArg (· + 1) length, ?_⟩
      rw [List.map_cons, levelsOfItems, levelsOfItems]
      omega
  obtain ⟨length, levels⟩ := each
  cases items with
  | nil =>
    obtain rfl := List.eq_nil_of_length_eq_zero length
    exact Nat.le_refl _
  | cons j items => exact Nat.le_trans (Json.levels_array_le _) (Nat.succ_le_succ levels)

theorem Shallow.toList (h : Shallow read write) :
    Shallow (Json.toList read) fun xs => .array (xs.map write) := by
  intro j xs hxs
  cases j with
  | array items => exact h.items hxs
  | _ => cases hxs

theorem Shallow.toNonempty (h : Shallow read write) :
    Shallow (Json.toNonempty read) fun x => .array (write x.1 :: x.2.map write) := by
  intro j x hx
  unfold Json.toNonempty at hx
  split at hx
  · dsimp only at hx
    split at hx
    next hxs =>
      cases hx
      exact h.items hxs
    next => cases hx
    next => split at hx <;> cases hx
  · cases hx

/-! ### Choices -/

theorem ShallowEach.nil : ShallowEach [] write := fun _ h => nomatch h

theorem ShallowEach.cons {tag : String} {make : α → β} {read : Members → Checked α} {part : β → Json}
    {models : List (String × (Members → Checked β))} (h : ShallowModel read write)
    (hmake : ∀ x, part (make x) = write x) (hs : ShallowEach models part) :
    ShallowEach (model tag make read :: models) part := by
  refine List.forall_mem_cons.2 ⟨fun ms y hy => ?_, hs⟩
  obtain ⟨x, hx, rfl⟩ := Checked.map_eq_value.1 hy
  rw [hmake]
  exact h hx

theorem ShallowEach.append {models others : List (String × (Members → Checked α))}
    (h : ShallowEach models write) (hs : ShallowEach others write) :
    ShallowEach (models ++ others) write :=
  List.forall_mem_append.2 ⟨h, hs⟩

theorem ShallowEach.toChoice {models : List (String × (Members → Checked α))}
    (h : ShallowEach models write) : Shallow (toChoice models) write := by
  intro j x hx
  unfold Json.toChoice at hx
  split at hx
  · split at hx
    · cases hx
    · split at hx
      next hm => exact h _ (List.mem_of_find?_eq_some hm) (Checked.under_eq_value.1 hx)
      next => cases hx
    · cases hx
  · cases hx

end

/-! ### Spans, trivia and diagnostics -/

/-- An object that is written from members is no deeper than the object they were read from, if none
of them is. -/
theorem levels_object_le_object {ms written : Members} (hms : ms ≠ [])
    (h : ∀ m ∈ written, m.2.levels ≤ levelsOfMembers ms) :
    (Json.object written).levels ≤ (Json.object ms).levels := by
  cases ms with
  | nil => exact absurd rfl hms
  | cons m ms =>
    exact Nat.le_trans (Json.levels_object_le written)
      (Nat.succ_le_succ (Json.levelsOfMembers_le_iff.2 h))

theorem Span.shallow : ShallowModel Span.ofMembers Span.toJson := by
  intro ms x hx
  refine levels_object_le_object ?_ (by simp [Json.levels])
  rintro rfl
  cases hx

theorem Trivia.shallow : ShallowModel Trivia.ofMembers Trivia.toJson := by
  intro ms x hx
  obtain ⟨kind, text, span, -, -, hspan, rfl⟩ := Checked.map₃_eq_value.1 hx
  have below := (Shallow.toModel Span.shallow).field hspan
  refine levels_object_le_object ?_ (by simp [Json.levels, Json.str, below])
  rintro rfl
  cases hx

theorem Json.shallow_toStr : Shallow toStr str := Shallow.flat fun _ => rfl

theorem Diagnostic.shallow : ShallowModel Diagnostic.ofMembers Diagnostic.toJson := by
  intro ms x hx
  obtain ⟨g, expected, hg, hexpected, rfl⟩ := Checked.seq_eq_value.1 hx
  obtain ⟨kind, message, span, -, -, hspan, rfl⟩ := Checked.map₃_eq_value.1 hg
  have below := (Shallow.toModel Span.shallow).field hspan
  have further := Json.shallow_toStr.toList.fieldOr rfl hexpected
  refine levels_object_le_object ?_ (by simp [Json.levels, Json.str, below, further])
  rintro rfl
  cases hx

/-! ### Origins -/

theorem Origin.ofMembers_of_originOf {kind : String} {ms : Members} {o : Origin}
    (h : originOf kind ms = .value o) : ofMembers ms = .value o := by
  obtain ⟨-, o, -, ho, rfl⟩ := Checked.map₂_eq_value.1 h
  exact ho

/-- A node is no deeper than the object it is read from, if none of the fields of its own is. -/
theorem Origin.levels_toJson {kind : String} {ms fields : Members} {o : Origin}
    (ho : Origin.ofMembers ms = .value o) (h : ∀ m ∈ fields, m.2.levels ≤ levelsOfMembers ms) :
    (o.toJson kind fields).levels ≤ (Json.object ms).levels := by
  obtain ⟨span, trivia, hspan, htrivia, rfl⟩ := Checked.map₂_eq_value.1 ho
  have below := (Shallow.toModel Span.shallow).field hspan
  have beside := (Shallow.toModel Trivia.shallow).toList.fieldOr rfl htrivia
  refine levels_object_le_object ?_ ?_
  · rintro rfl
    cases hspan
  · simp only [List.forall_mem_cons]
    exact ⟨Nat.zero_le _, below, beside, h⟩

/-- A node of a fixed kind is no deeper than the object it is read from, if none of its fields is. -/
theorem Origin.levels_of_kind {kind : String} {ms fields : Members} {o : Origin}
    (ho : originOf kind ms = .value o) (h : ∀ m ∈ fields, m.2.levels ≤ levelsOfMembers ms) :
    (o.toJson kind fields).levels ≤ (Json.object ms).levels :=
  levels_toJson (ofMembers_of_originOf ho) h

section
variable {α β γ : Type} {kind name name' : String} {first : Members → Checked β}
  {second : Members → Checked γ} {part : β → Json} {part' : γ → Json} {write : α → Json}

/-- A node with one field of its own. -/
theorem ShallowField.node (h : ShallowField first part) {make : Origin → β → α}
    (hwrite : ∀ o x, write (make o x) = o.toJson kind [(name, part x)]) :
    ShallowModel (fun ms => make <$> originOf kind ms <*> first ms) write := by
  intro ms x hx
  obtain ⟨o, y, ho, hy, rfl⟩ := Checked.map₂_eq_value.1 hx
  rw [hwrite]
  exact Origin.levels_of_kind ho (List.forall_mem_singleton.2 (h hy))

/-- A node with two fields of its own. -/
theorem ShallowField.node₂ (h : ShallowField first part) (h' : ShallowField second part')
    {make : Origin → β → γ → α}
    (hwrite : ∀ o x y, write (make o x y) = o.toJson kind [(name, part x), (name', part' y)]) :
    ShallowModel (fun ms => make <$> originOf kind ms <*> first ms <*> second ms) write := by
  intro ms x hx
  obtain ⟨o, y, z, ho, hy, hz, rfl⟩ := Checked.map₃_eq_value.1 hx
  rw [hwrite]
  refine Origin.levels_of_kind ho (List.forall_mem_cons.2 ⟨h hy, ?_⟩)
  exact List.forall_mem_singleton.2 (h' hz)

end

/-! ### Leaves -/

theorem Json.shallow_toText : Shallow toText string := Shallow.flat fun _ => rfl

theorem Json.shallow_toBool : Shallow toBool bool := Shallow.flat fun _ => rfl

theorem Identifier.shallow : ShallowModel Identifier.ofMembers Identifier.toJson :=
  Json.shallow_toText.field.node fun _ _ => rfl

theorem UnicodeString.shallow : ShallowModel UnicodeString.ofMembers UnicodeString.toJson :=
  Json.shallow_toText.field.node fun _ _ => rfl

theorem QuotedString.shallow : ShallowModel QuotedString.ofMembers QuotedString.toJson :=
  Json.shallow_toText.field.node fun _ _ => rfl

theorem Number.shallow : ShallowModel Number.ofMembers Number.toJson :=
  Json.shallow_toText.field.node₂ (Json.shallow_toBool.fieldOr rfl) fun _ _ _ => rfl

theorem Operator.shallow : ShallowModel Operator.ofMembers Operator.toJson :=
  Json.shallow_toText.field.node fun _ _ => rfl

theorem ArithmeticOp.shallow : ShallowModel ArithmeticOp.ofMembers ArithmeticOp.toJson :=
  Json.shallow_toText.field.node fun _ _ => rfl

theorem StringValue.shallow : Shallow StringValue.ofJson StringValue.toJson :=
  ShallowEach.toChoice <| .cons Identifier.shallow (fun _ => rfl) <|
    .cons UnicodeString.shallow (fun _ => rfl) .nil

theorem IncludeFile.shallow : Shallow IncludeFile.ofJson IncludeFile.toJson :=
  ShallowEach.toChoice <| .cons Identifier.shallow (fun _ => rfl) <|
    .cons UnicodeString.shallow (fun _ => rfl) <| .cons QuotedString.shallow (fun _ => rfl) .nil

theorem PointerTerm.shallow : Shallow PointerTerm.ofJson PointerTerm.toJson :=
  ShallowEach.toChoice <| .cons Number.shallow (fun _ => rfl) <|
    .cons Operator.shallow (fun _ => rfl) <| .cons ArithmeticOp.shallow (fun _ => rfl) .nil

/-! ### Expressions -/

theorem PointerExpression.shallow :
    ShallowModel PointerExpression.ofMembers PointerExpression.toJson :=
  PointerTerm.shallow.toNonempty.field.node fun _ _ => rfl

theorem PointerId.shallow : Shallow PointerId.ofJson PointerId.toJson :=
  ShallowEach.toChoice <| .cons Number.shallow (fun _ => rfl) <|
    .cons PointerExpression.shallow (fun _ => rfl) .nil

theorem Pointer.shallow : ShallowModel Pointer.ofMembers Pointer.toJson :=
  PointerId.shallow.field.node fun _ _ => rfl

theorem PointerRef.shallow : ShallowModel PointerRef.ofMembers PointerRef.toJson :=
  PointerId.shallow.field.node fun _ _ => rfl

theorem Fycoide.shallow : ShallowModel Fycoide.ofMembers Fycoide.toJson :=
  StringValue.shallow.field.node fun _ _ => rfl

theorem TypeDesc.shallow : ShallowModel TypeDesc.ofMembers TypeDesc.toJson :=
  StringValue.shallow.field.node fun _ _ => rfl

theorem GacPrefix.shallow : ShallowModel GacPrefix.ofMembers GacPrefix.toJson := by
  have marker : Shallow (Json.toLiteral PrefixMarker.ofText?) fun m => .str m.text :=
    Shallow.flat fun _ => rfl
  exact (Shallow.toModel Identifier.shallow).field.node₂ marker.field fun _ _ _ => rfl

theorem GacSuffix.shallow : ShallowModel GacSuffix.ofMembers GacSuffix.toJson := by
  have marker : Shallow (Json.toLiteral SuffixMarker.ofText?) fun m => .str m.text :=
    Shallow.flat fun _ => rfl
  exact marker.field.node₂ (Shallow.toModel Identifier.shallow).field fun _ _ _ => rfl

theorem GacSynonym.shallow : ShallowModel GacSynonym.ofMembers GacSynonym.toJson :=
  (Shallow.toModel Identifier.shallow).field.node fun _ _ => rfl

section
variable {content : Json → Checked GacString} (h : Shallow content GacString.toJson)
include h

theorem GacNested.shallowWith : ShallowModel (GacNested.ofMembersWith content) GacNested.toJson :=
  h.field.node fun _ _ => by rw [toJson]

theorem GacStem.shallowWith : Shallow (GacStem.ofJsonWith content) GacStem.toJson :=
  ShallowEach.toChoice <| .cons Fycoide.shallow (fun _ => by rw [toJson]) <|
    .cons PointerRef.shallow (fun _ => by rw [toJson]) <|
    .cons Operator.shallow (fun _ => by rw [toJson]) <|
    .cons Identifier.shallow (fun _ => by rw [toJson]) <|
    .cons GacPrefix.shallow (fun _ => by rw [toJson]) <|
    .cons GacSuffix.shallow (fun _ => by rw [toJson]) <|
    .cons GacSynonym.shallow (fun _ => by rw [toJson]) <|
    .cons (GacNested.shallowWith h) (fun _ => by rw [toJson]) .nil

theorem GacString.shallowWith : ShallowModel (GacString.ofMembersWith content) GacString.toJson :=
  (GacStem.shallowWith h).toNonempty.field.node fun _ _ => by rw [toJson, GacStem.toJsonList_eq]

end

theorem GacString.shallowWithin (k : Nat) : Shallow (GacString.ofJsonWithin k) GacString.toJson := by
  induction k with
  | zero =>
    intro j x hx
    cases j <;> cases hx
  | succ k ih => exact Shallow.toModel (shallowWith ih)

theorem GacString.shallow : Shallow GacString.ofJson GacString.toJson :=
  fun j _ hx => shallowWithin j.depth hx

theorem GacNested.shallow : ShallowModel GacNested.ofMembers GacNested.toJson :=
  shallowWith GacString.shallow

theorem Pointer.shallowOption :
    Shallow (Json.toOption (toModel Pointer.ofMembers)) (Json.ofOption Pointer.toJson) :=
  (Shallow.toModel Pointer.shallow).toOption

theorem ProtoGacWord.shallow : ShallowModel ProtoGacWord.ofMembers ProtoGacWord.toJson :=
  GacString.shallow.field.node₂ (Pointer.shallowOption.fieldOr rfl) fun _ _ _ => rfl

theorem StdGacWord.shallow : ShallowModel StdGacWord.ofMembers StdGacWord.toJson :=
  GacString.shallow.field.node₂ (Pointer.shallowOption.fieldOr rfl) fun _ _ _ => rfl

theorem Expression.shallowModels {α : Type} {make : Expression → α} {write : α → Json}
    (h : ∀ x, write (make x) = x.toJson) : ShallowEach (Expression.models make) write :=
  .cons TypeDesc.shallow (fun _ => h _) <| .cons ProtoGacWord.shallow (fun _ => h _) <|
    .cons StdGacWord.shallow (fun _ => h _) <| .cons Fycoide.shallow (fun _ => h _) <|
    .cons PointerRef.shallow (fun _ => h _) .nil

theorem Expression.shallow : Shallow Expression.ofJson Expression.toJson :=
  (shallowModels fun _ => rfl).toChoice

/-! ### Relations -/

theorem Include.shallow : ShallowModel Include.ofMembers Include.toJson :=
  IncludeFile.shallow.field.node fun _ _ => rfl

/-- What is made of the sides of a relation is made of sides that fit together. -/
theorem SidesGiven.sides_of_map {α : Type} {make : Expression × RightSide → α} {given : SidesGiven}
    {x : α} (h : given.sides.map make = .ok x) :
    ∃ left right, given.sides = .ok (left, right) ∧ make (left, right) = x := by
  cases hsides : given.sides with
  | error issue =>
    rw [hsides] at h
    cases h
  | ok sides =>
    rw [hsides] at h
    cases h
    exact ⟨_, _, rfl, rfl⟩

section
variable {body : Json → Checked BlockBody} (h : Shallow body BlockBody.toJson)
include h

/-- The sides of a relation are no deeper than the object they are read from. -/
theorem SidesGiven.levels_le {ms : Members} {given : SidesGiven} {left : Expression}
    {right : RightSide} (hgiven : ofMembersWith body ms = .value given)
    (hsides : given.sides = .ok (left, right)) :
    ∀ m ∈ right.toFields left.toJson, m.2.levels ≤ levelsOfMembers ms := by
  obtain ⟨g, hasBlock, hg, -, rfl⟩ := Checked.seq_eq_value.1 hgiven
  obtain ⟨left, right, block, hleft, hright, hbody, rfl⟩ := Checked.map₃_eq_value.1 hg
  have onLeft := Expression.shallow.field hleft
  have onRight := Expression.shallow.toOption.fieldOr rfl hright
  have between := h.toOption.fieldOr rfl hbody
  unfold sides at hsides
  split at hsides <;> cases hsides <;>
    simp_all [RightSide.toFields, relationFields, Json.ofOption, Json.levels]

theorem Relation.levels_le {kind : RelationKind} {ms : Members} {x : Relation}
    (hx : ofMembersWith body kind ms = .value x) : x.toJson.levels ≤ (Json.object ms).levels := by
  obtain ⟨⟨o, given⟩, hparts, hmade⟩ := Checked.check_eq_value hx
  obtain ⟨ho, hgiven⟩ := Checked.pair_eq_value.1 hparts
  obtain ⟨left, right, hsides, rfl⟩ := SidesGiven.sides_of_map hmade
  rw [toJson]
  exact Origin.levels_of_kind ho (SidesGiven.levels_le h hgiven hsides)

theorem Relation.shallowModels {α : Type} {make : Relation → α} {write : α → Json}
    (hmake : ∀ x, write (make x) = x.toJson) :
    ShallowEach (Relation.modelsWith body make) write := by
  refine List.forall_mem_map.2 fun kind _ ms y hy => ?_
  obtain ⟨x, hx, rfl⟩ := Checked.map_eq_value.1 hy
  rw [hmake]
  exact levels_le h hx

theorem Element.shallowWith : Shallow (Element.ofJsonWith body) Element.toJson :=
  ShallowEach.toChoice <| .append (Expression.shallowModels fun _ => by rw [toJson]) <|
    .cons Include.shallow (fun _ => by rw [toJson]) (Relation.shallowModels h fun _ => by rw [toJson])

theorem BlockBody.shallowWith : ShallowModel (BlockBody.ofMembersWith body) BlockBody.toJson :=
  (Element.shallowWith h).toNonempty.field.node₂ (Json.shallow_toBool.fieldOr rfl) fun _ _ _ => by
    rw [toJson, Element.toJsonList_eq]

end

theorem BlockBody.shallowWithin (k : Nat) : Shallow (BlockBody.ofJsonWithin k) BlockBody.toJson := by
  induction k with
  | zero =>
    intro j x hx
    cases j <;> cases hx
  | succ k ih => exact Shallow.toModel (shallowWith ih)

theorem BlockBody.shallow : Shallow BlockBody.ofJson BlockBody.toJson :=
  fun j _ hx => shallowWithin j.depth hx

theorem Relation.shallow {kind : RelationKind} :
    ShallowModel (Relation.ofMembers kind) Relation.toJson :=
  fun _ _ hx => levels_le BlockBody.shallow hx

theorem OpenRelation.shallow :
    ShallowModel OpenRelation.ofMembers fun x => (Node.openRelation x).toJson := by
  intro ms x hx
  obtain ⟨⟨kind, o, given⟩, hparts, hmade⟩ := Checked.check_eq_value hx
  obtain ⟨-, hpair⟩ := Checked.pair_eq_value.1 hparts
  obtain ⟨ho, hgiven⟩ := Checked.pair_eq_value.1 hpair
  obtain ⟨left, right, hsides, rfl⟩ := SidesGiven.sides_of_map hmade
  exact Origin.levels_toJson ho (SidesGiven.levels_le BlockBody.shallow hgiven hsides)

theorem FunctionBlock.shallow : Shallow FunctionBlock.ofJson FunctionBlock.toJson :=
  ShallowEach.toChoice <| .cons Include.shallow (fun _ => rfl) <|
    Relation.shallowModels BlockBody.shallow fun _ => rfl

/-! ### Documents -/

theorem BlockStatement.shallow : ShallowModel BlockStatement.ofMembers BlockStatement.toJson :=
  FunctionBlock.shallow.field.node fun _ _ => rfl

theorem DashComment.shallow : ShallowModel DashComment.ofMembers DashComment.toJson :=
  Json.shallow_toText.field.node fun _ _ => rfl

theorem EmptyStatement.shallow : ShallowModel EmptyStatement.ofMembers EmptyStatement.toJson := by
  intro ms x hx
  obtain ⟨o, ho, rfl⟩ := Checked.map_eq_value.1 hx
  exact Origin.levels_of_kind ho (by simp)

theorem ErrorStatement.shallow : ShallowModel ErrorStatement.ofMembers ErrorStatement.toJson :=
  Json.shallow_toStr.field.node₂ Json.shallow_toText.field fun _ _ _ => rfl

theorem Statement.shallow : Shallow Statement.ofJson Statement.toJson :=
  ShallowEach.toChoice <| .cons BlockStatement.shallow (fun _ => rfl) <|
    .cons DashComment.shallow (fun _ => rfl) <| .cons EmptyStatement.shallow (fun _ => rfl) <|
    .cons ErrorStatement.shallow (fun _ => rfl) .nil

theorem Document.shallow : ShallowModel Document.ofMembers Document.toJson :=
  (Statement.shallow.toList.fieldOr rfl).node fun _ _ => rfl

theorem PlainNode.shallow : ShallowModel PlainNode.ofMembers fun x => (Node.plain x).toJson := by
  intro ms x hx
  obtain ⟨kind, o, -, ho, rfl⟩ := Checked.map₂_eq_value.1 hx
  exact Origin.levels_toJson ho (by simp)

/-! ### Every model -/

theorem ShallowModel.map {α : Type} {read : Members → Checked α} {write : α → Json}
    (h : ShallowModel read write) (make : α → Modelled) (hmake : ∀ x, (make x).toJson = write x) :
    ShallowModel (fun ms => make <$> read ms) Modelled.toJson := by
  intro ms t ht
  obtain ⟨x, hx, rfl⟩ := Checked.map_eq_value.1 ht
  rw [hmake]
  exact h hx

/-- What a model reads is written with no more levels than it was read from. -/
theorem Model.shallow (m : Model) : ShallowModel m.ofMembers Modelled.toJson := by
  cases m with
  | span => exact Span.shallow.map .span fun _ => rfl
  | trivia => exact Trivia.shallow.map .trivia fun _ => rfl
  | diagnostic => exact Diagnostic.shallow.map .diagnostic fun _ => rfl
  | plain => exact PlainNode.shallow.map (.node ∘ .plain) fun _ => rfl
  | identifier => exact Identifier.shallow.map (.node ∘ .identifier) fun _ => rfl
  | unicodeString => exact UnicodeString.shallow.map (.node ∘ .unicodeString) fun _ => rfl
  | quotedString => exact QuotedString.shallow.map (.node ∘ .quotedString) fun _ => rfl
  | number => exact Number.shallow.map (.node ∘ .number) fun _ => rfl
  | operator => exact Operator.shallow.map (.node ∘ .operator) fun _ => rfl
  | arithmeticOp => exact ArithmeticOp.shallow.map (.node ∘ .arithmeticOp) fun _ => rfl
  | pointerExpression => exact PointerExpression.shallow.map (.node ∘ .pointerExpression) fun _ => rfl
  | pointer => exact Pointer.shallow.map (.node ∘ .pointer) fun _ => rfl
  | pointerRef => exact PointerRef.shallow.map (.node ∘ .pointerRef) fun _ => rfl
  | fycoide => exact Fycoide.shallow.map (.node ∘ .fycoide) fun _ => rfl
  | typeDesc => exact TypeDesc.shallow.map (.node ∘ .typeDesc) fun _ => rfl
  | gacPrefix => exact GacPrefix.shallow.map (.node ∘ .gacPrefix) fun _ => rfl
  | gacSuffix => exact GacSuffix.shallow.map (.node ∘ .gacSuffix) fun _ => rfl
  | gacSynonym => exact GacSynonym.shallow.map (.node ∘ .gacSynonym) fun _ => rfl
  | gacNested => exact GacNested.shallow.map (.node ∘ .gacNested) fun _ => rfl
  | gacString =>
    exact ShallowModel.map (fun _ _ hx => GacString.shallow hx) (.node ∘ .gacString) fun _ => rfl
  | protoGacWord => exact ProtoGacWord.shallow.map (.node ∘ .protoGacWord) fun _ => rfl
  | stdGacWord => exact StdGacWord.shallow.map (.node ∘ .stdGacWord) fun _ => rfl
  | blockBody =>
    exact ShallowModel.map (fun _ _ hx => BlockBody.shallow hx) (.node ∘ .blockBody) fun _ => rfl
  | openRelation => exact OpenRelation.shallow.map (.node ∘ .openRelation) fun _ => rfl
  | relation kind => exact Relation.shallow.map (.node ∘ .relation) fun _ => rfl
  | inclusion => exact Include.shallow.map (.node ∘ .inclusion) fun _ => rfl
  | statement => exact BlockStatement.shallow.map (.node ∘ .statement) fun _ => rfl
  | dashComment => exact DashComment.shallow.map (.node ∘ .dashComment) fun _ => rfl
  | emptyStatement => exact EmptyStatement.shallow.map (.node ∘ .emptyStatement) fun _ => rfl
  | errorStatement => exact ErrorStatement.shallow.map (.node ∘ .errorStatement) fun _ => rfl
  | document => exact Document.shallow.map (.node ∘ .document) fun _ => rfl

end RelationNotation
