import RelationNotation.Json.Checked

/-!
What checked reading gives for JSON values that are as they should be: a field that is there, an
array of items that are all right, an option, an object of one of several kinds. Last, how much
deeper than its parts a value is.
-/

namespace RelationNotation

namespace Checked
variable {α β : Type}

theorem map_eq_value {f : α → β} {r : Checked α} {y : β} :
    f <$> r = .value y ↔ ∃ x, r = .value x ∧ f x = y := by
  cases r with
  | value x => simp
  | issues is =>
    change Checked.issues is = .value y ↔ _
    simp

theorem check_eq_value {f : α → Except IssueKind β} {r : Checked α} {y : β}
    (h : r.check f = .value y) : ∃ x, r = .value x ∧ f x = .ok y := by
  unfold check at h
  split at h
  · cases h
  next x =>
    refine ⟨x, rfl, ?_⟩
    split at h
    next hf =>
      cases h
      exact hf
    next => cases h

theorem check_of_ok {f : α → Except IssueKind β} {x : α} {y : β} (h : f x = .ok y) :
    (Checked.value x).check f = .value y := by
  rw [check, h]

end Checked

namespace Json
variable {α β : Type} {read : Json → Checked α} {j : Json} {ms : List (String × Json)} {name : String}

/-! ### Fields -/

theorem member?_self (name : String) (j : Json) (ms : List (String × Json)) :
    member? ((name, j) :: ms) name = some j := by
  simp [member?]

theorem member?_of_ne {n : String} (h : n ≠ name) (j : Json) (ms : List (String × Json)) :
    member? ((n, j) :: ms) name = member? ms name := by
  simp [member?, h]

@[simp] theorem field_self (name : String) (j : Json) (ms : List (String × Json))
    (read : Json → Checked α) : field ((name, j) :: ms) name read = (read j).under (.field name) := by
  rw [field, member?_self]

@[simp] theorem field_of_ne {n : String} (h : n ≠ name) (j : Json) (ms : List (String × Json))
    (read : Json → Checked α) : field ((n, j) :: ms) name read = field ms name read := by
  rw [field, field, member?_of_ne h]

@[simp] theorem fieldOr_self (default : α) (name : String) (j : Json) (ms : List (String × Json))
    (read : Json → Checked α) :
    fieldOr default ((name, j) :: ms) name read = (read j).under (.field name) := by
  rw [fieldOr, member?_self]

@[simp] theorem fieldOr_of_ne {n : String} (h : n ≠ name) (default : α) (j : Json)
    (ms : List (String × Json)) (read : Json → Checked α) :
    fieldOr default ((n, j) :: ms) name read = fieldOr default ms name read := by
  rw [fieldOr, fieldOr, member?_of_ne h]

/-! ### Arrays and options -/

section
variable {f : α → Json} {x : α} {xs : List α}

theorem itemsFrom_map (h : ∀ x ∈ xs, read (f x) = .value x) (i : Nat) :
    itemsFrom read i (xs.map f) = xs.map .value := by
  induction xs generalizing i with
  | nil => rfl
  | cons x xs ih =>
    rw [List.map_cons, itemsFrom, h x List.mem_cons_self,
      ih fun y hy => h y (List.mem_cons_of_mem x hy)]
    rfl

theorem toList_map (h : ∀ x ∈ xs, read (f x) = .value x) :
    toList read (.array (xs.map f)) = .value xs := by
  have values : Checked.ofList (xs.map Checked.value) = .value (xs.map id) :=
    Checked.ofList_map_value fun _ _ => rfl
  rw [toList, itemsFrom_map h, values, List.map_id]

theorem toNonempty_map (h : ∀ y ∈ x :: xs, read (f y) = .value y) :
    toNonempty read (.array (f x :: xs.map f)) = .value (x, xs) := by
  have values : Checked.ofList ((x :: xs).map Checked.value) = .value ((x :: xs).map id) :=
    Checked.ofList_map_value fun _ _ => rfl
  rw [toNonempty, ← List.map_cons, itemsFrom_map h]
  simp only [values, List.map_id]

theorem toOption_of_ne_null (h : j ≠ .null) : toOption read j = some <$> read j := by
  cases j <;> first | rfl | exact absurd rfl h

end

/-! ### Objects of a kind -/

@[simp] theorem toModel_object (read : List (String × Json) → Checked α)
    (ms : List (String × Json)) : toModel read (.object ms) = read ms := rfl

theorem toModel_map {read : List (String × Json) → Checked α} {x : α} (f : α → β)
    (h : toModel read j = .value x) : toModel (fun ms => f <$> read ms) j = .value (f x) := by
  cases j with
  | object ms =>
    rw [toModel_object] at h ⊢
    rw [h]
    rfl
  | _ => cases h

/-- A JSON value is an object of a kind, and its members are read as a value. -/
def Loads (kind : String) (read : List (String × Json) → Checked α) (x : α) (j : Json) : Prop :=
  ∃ ms, j = .object ms ∧ member? ms "kind" = some (.str kind) ∧ read ms = .value x

namespace Loads
variable {kind : String} {read : List (String × Json) → Checked α} {x : α}

theorem toModel (h : Loads kind read x j) : Json.toModel read j = .value x := by
  obtain ⟨ms, rfl, -, h⟩ := h
  exact h

theorem ne_null (h : Loads kind read x j) : j ≠ .null := by
  obtain ⟨ms, rfl, -⟩ := h
  exact fun h => by cases h

/-- The kind tells which of several models is meant. -/
theorem toChoice (h : Loads kind read x j) (make : α → β)
    {models : List (String × (List (String × Json) → Checked β))}
    (hmodel : models.find? (fun m => m.1 == kind) = some (kind, fun ms => make <$> read ms)) :
    Json.toChoice models j = .value (make x) := by
  obtain ⟨ms, rfl, hkind, h⟩ := h
  simp only [Json.toChoice, hkind, str, String.ofList_toList, hmodel, h]
  rfl

end Loads

/-! ### Depth -/

theorem depth_le_of_mem_items {items : List Json} (h : j ∈ items) : j.depth ≤ depthOfItems items := by
  induction items with
  | nil => cases h
  | cons x xs ih =>
    rw [depthOfItems]
    rcases List.mem_cons.1 h with rfl | h
    · exact Nat.le_max_left _ _
    · exact Nat.le_trans (ih h) (Nat.le_max_right _ _)

theorem depth_le_of_mem_members (h : (name, j) ∈ ms) : j.depth ≤ depthOfMembers ms := by
  induction ms with
  | nil => cases h
  | cons m ms ih =>
    obtain ⟨n, x⟩ := m
    rw [depthOfMembers]
    rcases List.mem_cons.1 h with h | h
    · obtain ⟨-, rfl⟩ := Prod.mk.inj h
      exact Nat.le_max_left _ _
    · exact Nat.le_trans (ih h) (Nat.le_max_right _ _)

theorem depth_item_lt {items : List Json} (h : j ∈ items) : j.depth < (array items).depth := by
  rw [depth]
  exact Nat.lt_succ_of_le (depth_le_of_mem_items h)

theorem depth_field_lt (name : String) (h : (name, j) ∈ ms) : j.depth < (object ms).depth := by
  rw [depth]
  exact Nat.lt_succ_of_le (depth_le_of_mem_members h)

end Json

end RelationNotation
