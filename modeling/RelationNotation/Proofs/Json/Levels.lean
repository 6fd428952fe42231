import RelationNotation.Proofs.Json.Layout

/-!
The levels of JSON values and the readers that go down so many. What a reader makes of a text has no
more levels than the reader goes down, and a reader that goes down further makes the same of it; so
a value is read off its own text by those readers that go down all its levels, and by no others.
-/

namespace RelationNotation.Json
variable {k levels l : Nat} {t rest : Text} {j x : Json} {items : List Json}
  {m : String × Json} {ms : List (String × Json)}

/-! ### Levels -/

theorem levels_array_le (items : List Json) : (array items).levels ≤ levelsOfItems items + 1 := by
  cases items with
  | nil => exact Nat.zero_le _
  | cons x xs => exact Nat.le_refl _

theorem levels_object_le (ms : List (String × Json)) :
    (object ms).levels ≤ levelsOfMembers ms + 1 := by
  cases ms with
  | nil => exact Nat.zero_le _
  | cons m ms => exact Nat.le_refl _

theorem levelsOfMembers_le_iff : levelsOfMembers ms ≤ l ↔ ∀ m ∈ ms, m.2.levels ≤ l := by
  induction ms with
  | nil => simp [levelsOfMembers]
  | cons m ms ih => rw [levelsOfMembers, Nat.max_le, ih, List.forall_mem_cons]

theorem levelsOfMembers_consMember (h : m.2.levels ≤ l) (hms : levelsOfMembers ms ≤ l) :
    levelsOfMembers (consMember m ms) ≤ l := by
  unfold consMember
  split
  · exact hms
  · exact Nat.max_le.2 ⟨h, hms⟩

/-! ### What a reader goes down -/

theorem levels_readUnsigned? {negative : Bool} (h : readUnsigned? negative t = some (j, rest)) :
    j.levels = 0 := by
  obtain ⟨⟨whole, after⟩, -, h⟩ := Option.bind_eq_some_iff.1 h
  dsimp only at h
  split at h
  · cases h
  obtain ⟨⟨fraction, after⟩, -, h⟩ := Option.bind_eq_some_iff.1 h
  obtain ⟨⟨exponent, after⟩, -, h⟩ := Option.bind_eq_some_iff.1 h
  dsimp only at h
  split at h <;> cases h <;> rfl

theorem levels_readNumber? (h : readNumber? t = some (j, rest)) : j.levels = 0 := by
  unfold readNumber? at h
  split at h <;> exact levels_readUnsigned? h

mutual

theorem levels_le_of_readValue? : ∀ {k levels t j rest},
    readValue? k levels t = some (j, rest) → j.levels ≤ levels
  | k + 1, levels, t, j, rest, h => by
    unfold readValue? at h
    split at h
    · obtain ⟨⟨s, after⟩, -, h⟩ := Option.map_eq_some_iff.1 h
      cases h
      exact Nat.zero_le _
    · split at h
      · cases h
        exact Nat.zero_le _
      split at h
      · cases h
      · obtain ⟨⟨items, after⟩, hitems, h⟩ := Option.map_eq_some_iff.1 h
        cases h
        exact Nat.le_trans (levels_array_le items)
          (Nat.succ_le_succ (levels_le_of_readItems? hitems))
    · split at h
      · cases h
        exact Nat.zero_le _
      split at h
      · cases h
      · obtain ⟨⟨ms, after⟩, hms, h⟩ := Option.map_eq_some_iff.1 h
        cases h
        exact Nat.le_trans (levels_object_le ms)
          (Nat.succ_le_succ (levels_le_of_readMembers? hms))
    · obtain ⟨after, -, h⟩ := Option.map_eq_some_iff.1 h
      cases h
      exact Nat.zero_le _
    · obtain ⟨after, -, h⟩ := Option.map_eq_some_iff.1 h
      cases h
      exact Nat.zero_le _
    · obtain ⟨after, -, h⟩ := Option.map_eq_some_iff.1 h
      cases h
      exact Nat.zero_le _
    · rw [levels_readNumber? h]
      exact Nat.zero_le _

theorem levels_le_of_readItems? : ∀ {k levels t items rest},
    readItems? k levels t = some (items, rest) → levelsOfItems items ≤ levels
  | k + 1, levels, t, items, rest, h => by
    obtain ⟨⟨x, after⟩, hx, h⟩ := Option.bind_eq_some_iff.1 h
    have first := levels_le_of_readValue? hx
    dsimp only at h
    split at h
    · obtain ⟨⟨xs, behind⟩, hxs, h⟩ := Option.bind_eq_some_iff.1 h
      cases h
      exact Nat.max_le.2 ⟨first, levels_le_of_readItems? hxs⟩
    · cases h
      exact Nat.max_le.2 ⟨first, Nat.zero_le _⟩
    · cases h

theorem levels_le_of_readMembers? : ∀ {k levels t ms rest},
    readMembers? k levels t = some (ms, rest) → levelsOfMembers ms ≤ levels
  | k + 1, levels, t, ms, rest, h => by
    obtain ⟨opened, -, h⟩ := Option.bind_eq_some_iff.1 h
    obtain ⟨⟨name, named⟩, -, h⟩ := Option.bind_eq_some_iff.1 h
    obtain ⟨valued, -, h⟩ := Option.bind_eq_some_iff.1 h
    obtain ⟨⟨x, after⟩, hx, h⟩ := Option.bind_eq_some_iff.1 h
    have first := levels_le_of_readValue? hx
    dsimp only at h
    split at h
    · obtain ⟨⟨further, behind⟩, hms, h⟩ := Option.bind_eq_some_iff.1 h
      cases h
      exact levelsOfMembers_consMember first (levels_le_of_readMembers? hms)
    · cases h
      exact Nat.max_le.2 ⟨first, Nat.zero_le _⟩
    · cases h

end

/-! ### Readers that go further down -/

mutual

theorem readValue?_of_le : ∀ {k levels l t j rest}, levels ≤ l →
    readValue? k levels t = some (j, rest) → readValue? k l t = some (j, rest)
  | k + 1, levels, l, t, j, rest, hl, h => by
    unfold readValue? at h ⊢
    generalize skipSpace t = s at h ⊢
    split at h
    case h_2 cs =>
      dsimp only
      generalize skipSpace cs = inner at h ⊢
      split at h
      · exact h
      · split at h
        · cases h
        next levels =>
          cases l with
          | zero => cases hl
          | succ l =>
            obtain ⟨⟨items, after⟩, hitems, h⟩ := Option.map_eq_some_iff.1 h
            have read := readItems?_of_le (Nat.le_of_succ_le_succ hl) hitems
            exact Option.map_eq_some_iff.2 ⟨_, read, h⟩
    case h_3 cs =>
      dsimp only
      generalize skipSpace cs = inner at h ⊢
      split at h
      · exact h
      · split at h
        · cases h
        next levels =>
          cases l with
          | zero => cases hl
          | succ l =>
            obtain ⟨⟨ms, after⟩, hms, h⟩ := Option.map_eq_some_iff.1 h
            have read := readMembers?_of_le (Nat.le_of_succ_le_succ hl) hms
            exact Option.map_eq_some_iff.2 ⟨_, read, h⟩
    all_goals exact h

theorem readItems?_of_le : ∀ {k levels l t items rest}, levels ≤ l →
    readItems? k levels t = some (items, rest) → readItems? k l t = some (items, rest)
  | k + 1, levels, l, t, items, rest, hl, h => by
    obtain ⟨⟨x, after⟩, hx, h⟩ := Option.bind_eq_some_iff.1 h
    refine Option.bind_eq_some_iff.2 ⟨_, readValue?_of_le hl hx, ?_⟩
    dsimp only at h ⊢
    split at h
    · obtain ⟨⟨xs, behind⟩, hxs, h⟩ := Option.bind_eq_some_iff.1 h
      exact Option.bind_eq_some_iff.2 ⟨_, readItems?_of_le hl hxs, h⟩
    · exact h
    · cases h

theorem readMembers?_of_le : ∀ {k levels l t ms rest}, levels ≤ l →
    readMembers? k levels t = some (ms, rest) → readMembers? k l t = some (ms, rest)
  | k + 1, levels, l, t, ms, rest, hl, h => by
    obtain ⟨opened, hopened, h⟩ := Option.bind_eq_some_iff.1 h
    obtain ⟨⟨name, named⟩, hname, h⟩ := Option.bind_eq_some_iff.1 h
    obtain ⟨valued, hvalued, h⟩ := Option.bind_eq_some_iff.1 h
    obtain ⟨⟨x, after⟩, hx, h⟩ := Option.bind_eq_some_iff.1 h
    refine Option.bind_eq_some_iff.2 ⟨_, hopened, Option.bind_eq_some_iff.2 ⟨_, hname,
      Option.bind_eq_some_iff.2 ⟨_, hvalued,
        Option.bind_eq_some_iff.2 ⟨_, readValue?_of_le hl hx, ?_⟩⟩⟩⟩
    dsimp only at h ⊢
    split at h
    · obtain ⟨⟨further, behind⟩, hms, h⟩ := Option.bind_eq_some_iff.1 h
      exact Option.bind_eq_some_iff.2 ⟨_, readMembers?_of_le hl hms, h⟩
    · exact h
    · cases h

end

/-! ### Texts -/

theorem levels_le_of_ofTextWithin? (h : ofTextWithin? levels t = some j) : j.levels ≤ levels := by
  unfold ofTextWithin? at h
  split at h
  next hread =>
    split at h
    · cases h
      exact levels_le_of_readValue? hread
    · cases h
  next => cases h

theorem ofTextWithin?_of_le (hl : levels ≤ l) (h : ofTextWithin? levels t = some j) :
    ofTextWithin? l t = some j := by
  unfold ofTextWithin? at h ⊢
  split at h
  next hread =>
    rw [readValue?_of_le hl hread]
    exact h
  next => cases h

/-- A reader that does not go down all the levels of a value refuses its text. -/
theorem ofTextWithin?_layout_of_lt (h : j.Distinct) (hlevels : levels < j.levels) :
    ofTextWithin? levels j.layout = none := by
  refine Option.eq_none_iff_forall_ne_some.2 fun x hx => ?_
  have whole := ofTextWithin?_of_le (Nat.le_of_lt hlevels) hx
  rw [ofTextWithin?_layout h (Nat.le_refl _)] at whole
  obtain rfl := Option.some.inj whole
  exact absurd (levels_le_of_ofTextWithin? hx) (Nat.not_le_of_lt hlevels)

end RelationNotation.Json
