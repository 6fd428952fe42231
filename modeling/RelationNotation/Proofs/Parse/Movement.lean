import RelationNotation.Parse.Statement

/-!
Where a routine leaves the cursor. A routine that returns and a routine that fails both leave it at
or behind the place where they found it, and a fault is about the token that then stands at the
cursor: `Moves` says so of one routine, and is proved here of each. The laws of `>>=` come first;
later proofs take routines apart with them.
-/

namespace RelationNotation

namespace Cursor

/-- One cursor stands behind another, with the given tokens between them. -/
structure Passes (c : Cursor) (ts : List Token) (d : Cursor) : Prop where
  ahead : c.ahead = ts ++ d.ahead
  before : d.before = ts.reverse ++ c.before
  stop : d.stop = c.stop

theorem Passes.refl (c : Cursor) : c.Passes [] c := ⟨rfl, rfl, rfl⟩

theorem Passes.trans {c d e : Cursor} {ts us : List Token} (h₁ : c.Passes ts d)
    (h₂ : d.Passes us e) : c.Passes (ts ++ us) e where
  ahead := by rw [h₁.ahead, h₂.ahead, List.append_assoc]
  before := by rw [h₂.before, h₁.before, List.reverse_append, List.append_assoc]
  stop := h₂.stop.trans h₁.stop

theorem Passes.remaining {c d : Cursor} {ts : List Token} (h : c.Passes ts d) :
    c.remaining = ts.length + d.remaining := by
  rw [Cursor.remaining, h.ahead, List.length_append]
  rfl

theorem Passes.index {c d : Cursor} {ts : List Token} (h : c.Passes ts d) :
    d.index = c.index + ts.length := by
  rw [Cursor.index, h.before, List.length_append, List.length_reverse, Nat.add_comm]
  rfl

theorem Passes.tokens {c d : Cursor} {ts : List Token} (h : c.Passes ts d) :
    d.tokens = c.tokens := by
  simp [Cursor.tokens, h.ahead, h.before, h.stop]

/-- The last token passed, if there is one, is the one before the cursor. -/
theorem Passes.previous {c d : Cursor} {ts : List Token} {t : Token}
    (h : c.Passes (ts ++ [t]) d) : d.previous = t := by
  simp [Cursor.previous, h.before]

theorem passes_advance {c : Cursor} {t : Token} {ts : List Token} (h : c.ahead = t :: ts) :
    c.Passes [t] c.advance := by
  refine ⟨?_, ?_, ?_⟩ <;> simp [advance, h]

/-- Where nothing is ahead there is nothing to step over. -/
theorem advance_of_nil {c : Cursor} (h : c.ahead = []) : c.advance = c := by
  simp [advance, h]

end Cursor

namespace Parse
variable {α β : Type} {p : Parse α} {f : α → Parse β} {c d : Cursor}

/-! ### Sequences of routines -/

theorem bind_ok {y : β} (h : (p >>= f) c = .ok y d) :
    ∃ x e, p c = .ok x e ∧ f x e = .ok y d := by
  change EStateM.bind p f c = .ok y d at h
  unfold EStateM.bind at h
  split at h
  · exact ⟨_, _, ‹_›, h⟩
  · cases h

theorem bind_error {e : SyntaxFault} (h : (p >>= f) c = .error e d) :
    p c = .error e d ∨ ∃ x c', p c = .ok x c' ∧ f x c' = .error e d := by
  change EStateM.bind p f c = .error e d at h
  unfold EStateM.bind at h
  split at h
  · exact .inr ⟨_, _, ‹_›, h⟩
  · injection h with he hd
    subst he hd
    exact .inl ‹_›

theorem bind_of_ok {x : α} (h : p c = .ok x d) : (p >>= f) c = f x d := by
  change EStateM.bind p f c = f x d
  rw [EStateM.bind, h]

theorem bind_of_error {e : SyntaxFault} (h : p c = .error e d) : (p >>= f) c = .error e d := by
  change EStateM.bind p f c = .error e d
  rw [EStateM.bind, h]

@[simp] theorem current_apply (c : Cursor) : current c = .ok c.current c := rfl

@[simp] theorem kind_apply (c : Cursor) : kind c = .ok c.kind c := rfl

@[simp] theorem advance_apply (c : Cursor) : advance c = .ok c.current c.advance := rfl

@[simp] theorem refuse_apply (d : Demand) (c : Cursor) :
    (refuse d : Parse α) c = .error ⟨d, c.current⟩ c := rfl

@[simp] theorem originFrom_apply (t : Token) (c : Cursor) :
    originFrom t c = .ok ⟨c.spanFrom t, []⟩ c := rfl

@[simp] theorem bind_pure_apply (x : α) (f : α → Parse β) (c : Cursor) :
    (pure x >>= f) c = f x c := rfl

@[simp] theorem bind_get (f : Cursor → Parse β) (c : Cursor) : (get >>= f) c = f c c := rfl

@[simp] theorem bind_current (f : Token → Parse β) (c : Cursor) :
    (current >>= f) c = f c.current c := rfl

@[simp] theorem bind_kind (f : TokenKind → Parse β) (c : Cursor) :
    (kind >>= f) c = f c.kind c := rfl

@[simp] theorem bind_advance (f : Token → Parse β) (c : Cursor) :
    (advance >>= f) c = f c.current c.advance := rfl

@[simp] theorem bind_originFrom (t : Token) (f : Origin → Parse β) (c : Cursor) :
    (originFrom t >>= f) c = f ⟨c.spanFrom t, []⟩ c := rfl

theorem accept_apply (kinds : List TokenKind) (c : Cursor) :
    accept kinds c = if c.kind ∈ kinds then .ok true c.advance else .ok false c := by
  unfold accept
  simp only [bind_kind]
  split <;> rfl

theorem map_eq_bind (g : α → β) (p : Parse α) : g <$> p = p >>= fun x => pure (g x) :=
  map_eq_pure_bind g p

theorem expect_apply (k : TokenKind) (c : Cursor) :
    expect k c = if c.kind = k then .ok c.current c.advance
      else .error ⟨.token k, c.current⟩ c := by
  unfold expect
  simp only [bind_kind]
  split <;> rfl

/-! ### Every routine moves on -/

/-- Where an outcome leaves the cursor. -/
def place : EStateM.Result SyntaxFault Cursor α → Cursor
  | .ok _ d => d
  | .error _ d => d

/-- The routine leaves every cursor where it is or moves it on, whether it returns or fails; where
it fails, the fault is about the token it stops at. -/
structure Moves (p : Parse α) : Prop where
  passes : ∀ c : Cursor, ∃ ts, c.Passes ts (place (p c))
  found : ∀ {c d : Cursor} {fault : SyntaxFault}, p c = .error fault d → fault.found = d.current

/-- A routine that always returns has only to move on. -/
theorem moves_of_ok {g : Cursor → α} {next : Cursor → Cursor}
    (h : ∀ c, p c = .ok (g c) (next c)) (passes : ∀ c : Cursor, ∃ ts, c.Passes ts (next c)) :
    Moves p where
  passes c := by rw [h]; exact passes c
  found hfault := by rw [h] at hfault; cases hfault

theorem moves_pure (x : α) : Moves (pure x) := moves_of_ok (fun _ => rfl) fun c => ⟨[], .refl c⟩

theorem moves_get : Moves (get : Parse Cursor) :=
  moves_of_ok (fun _ => rfl) fun c => ⟨[], .refl c⟩

theorem moves_current : Moves current := moves_of_ok (fun _ => rfl) fun c => ⟨[], .refl c⟩

theorem moves_kind : Moves kind := moves_of_ok (fun _ => rfl) fun c => ⟨[], .refl c⟩

theorem moves_refuse (d : Demand) : Moves (refuse d : Parse α) where
  passes c := ⟨[], .refl c⟩
  found h := by
    rw [refuse_apply] at h
    injection h with hfault hd
    rw [← hfault, ← hd]

theorem moves_originFrom (t : Token) : Moves (originFrom t) :=
  moves_of_ok (fun _ => rfl) fun c => ⟨[], .refl c⟩

theorem moves_advance : Moves advance := by
  refine moves_of_ok (fun _ => rfl) fun c => ?_
  cases h : c.ahead with
  | nil => exact ⟨[], by simpa [Cursor.advance_of_nil h] using Cursor.Passes.refl c⟩
  | cons t ts => exact ⟨[t], Cursor.passes_advance h⟩

theorem moves_bind (hp : Moves p) (hf : ∀ x, Moves (f x)) : Moves (p >>= f) where
  passes c := by
    obtain ⟨ts, hts⟩ := hp.passes c
    cases h : p c with
    | ok x e =>
      rw [h] at hts
      obtain ⟨us, hus⟩ := (hf x).passes e
      exact ⟨ts ++ us, by rw [bind_of_ok h]; exact hts.trans hus⟩
    | error e d => exact ⟨ts, by rw [bind_of_error h]; rwa [h] at hts⟩
  found h := by
    rcases bind_error h with h | ⟨x, c', -, h⟩
    · exact hp.found h
    · exact (hf x).found h

theorem moves_map (g : α → β) (hp : Moves p) : Moves (g <$> p) := by
  rw [map_eq_bind]
  exact moves_bind hp fun _ => moves_pure _

theorem moves_ite {P : Prop} [Decidable P] {q : Parse α} (hp : Moves p) (hq : Moves q) :
    Moves (if P then p else q) := by
  split
  · exact hp
  · exact hq

theorem moves_expect (k : TokenKind) : Moves (expect k) :=
  moves_bind moves_kind fun _ => moves_ite moves_advance (moves_refuse _)

theorem moves_accept (kinds : List TokenKind) : Moves (accept kinds) :=
  moves_bind moves_kind fun _ =>
    moves_ite (moves_bind moves_advance fun _ => moves_pure _) (moves_pure _)

theorem moves_nested {inner : Nesting → Parse α} (n : Nesting) (h : ∀ m, Moves (inner m)) :
    Moves (nested n inner) :=
  moves_ite (moves_refuse _) (h _)

theorem moves_takeKinds (kinds : List TokenKind) : Moves (takeKinds kinds) :=
  moves_of_ok (fun _ => rfl) fun c =>
    ⟨c.ahead.takeWhile fun t => decide (t.kind ∈ kinds), List.takeWhile_append_dropWhile.symm, rfl,
      rfl⟩

theorem moves_string : Moves string := by
  apply moves_bind moves_current
  intro t
  split
  · exact moves_bind moves_advance fun _ => moves_pure _
  · exact moves_bind moves_advance fun _ => moves_pure _
  · exact moves_refuse _

theorem moves_typeDesc : Moves typeDesc :=
  moves_bind (moves_expect _) fun _ => moves_bind moves_string fun _ =>
    moves_bind (moves_expect _) fun _ => moves_bind (moves_originFrom _) fun _ => moves_pure _

theorem moves_fycoide : Moves fycoide :=
  moves_bind (moves_expect _) fun _ => moves_bind moves_string fun _ =>
    moves_bind (moves_expect _) fun _ => moves_bind (moves_originFrom _) fun _ => moves_pure _

theorem moves_pointerExpression : Moves pointerExpression := by
  refine moves_bind (moves_expect _) fun _ => moves_bind (moves_takeKinds _) fun ts => ?_
  cases ts with
  | nil => exact moves_refuse _
  | cons t ts =>
    exact moves_bind (moves_expect _) fun _ => moves_bind (moves_originFrom _) fun _ => moves_pure _

theorem moves_pointerId : Moves pointerId :=
  moves_bind moves_kind fun _ => moves_ite (moves_bind moves_advance fun _ => moves_pure _)
    (moves_ite (moves_bind moves_pointerExpression fun _ => moves_pure _) (moves_refuse _))

theorem moves_pointer : Moves pointer :=
  moves_bind (moves_expect _) fun _ => moves_bind moves_pointerId fun _ =>
    moves_bind (moves_originFrom _) fun _ => moves_pure _

theorem moves_pointerRef : Moves pointerRef :=
  moves_bind (moves_expect _) fun _ => moves_bind moves_pointerId fun _ =>
    moves_bind (moves_originFrom _) fun _ => moves_pure _

theorem moves_gacStemWith {inner : Nesting → Parse GacString} (h : ∀ m, Moves (inner m))
    (n : Nesting) : Moves (gacStemWith inner n) := by
  refine moves_bind moves_current fun t => moves_bind moves_get fun c => ?_
  dsimp only
  split
  case h_1 => exact moves_bind moves_fycoide fun _ => moves_pure _
  case h_2 => exact moves_bind moves_pointerRef fun _ => moves_pure _
  case h_3 =>
    apply moves_bind moves_advance
    intro _
    split
    · exact moves_bind moves_advance fun _ => moves_bind (moves_originFrom _) fun _ => moves_pure _
    · exact moves_pure _
  case h_4 =>
    exact moves_bind moves_advance fun _ => moves_bind (moves_expect _) fun _ =>
      moves_bind (moves_originFrom _) fun _ => moves_pure _
  case h_5 =>
    exact moves_bind moves_advance fun _ => moves_bind (moves_nested n h) fun _ =>
      moves_bind (moves_expect _) fun _ => moves_bind (moves_originFrom _) fun _ => moves_pure _
  case h_6 =>
    split
    · exact moves_bind moves_advance fun _ => moves_ite
        (moves_bind moves_advance fun _ => moves_bind (moves_originFrom _) fun _ => moves_pure _)
        (moves_pure _)
    · exact moves_ite (moves_bind moves_advance fun _ => moves_pure _) (moves_refuse _)

theorem moves_manyWithin (kinds : List TokenKind) (h : Moves p) :
    ∀ k, Moves (manyWithin kinds p k)
  | 0 => moves_pure _
  | k + 1 => moves_bind moves_kind fun _ => moves_ite
      (moves_bind h fun _ => moves_bind (moves_manyWithin kinds h k) fun _ => moves_pure _)
      (moves_pure _)

theorem moves_gacStringWithin : ∀ k n, Moves (gacStringWithin k n)
  | 0, _ => moves_refuse _
  | k + 1, n => by
    refine moves_bind moves_current fun _ => moves_bind
      (moves_bind moves_get fun _ => moves_manyWithin _
        (moves_gacStemWith (moves_gacStringWithin k) n) _) fun xs => ?_
    cases xs with
    | nil => exact moves_refuse _
    | cons x xs => exact moves_bind (moves_originFrom _) fun _ => moves_pure _

theorem moves_gacString (n : Nesting) : Moves (gacString n) :=
  moves_bind moves_get fun _ => moves_gacStringWithin _ n

/-- What is read of a gac word behind its opener. -/
def typeWordRest (n : Nesting) (start : Token) (proto : Bool) : Parse Expression := do
  let content ← nested n gacString
  let _ ← expect .rightBracket
  let target ← if (← kind) = .atSign then some <$> pointer else pure none
  let origin ← originFrom start
  return if proto then .protoGacWord ⟨origin, content, target⟩
    else .stdGacWord ⟨origin, content, target⟩

theorem typeWord_apply (n : Nesting) (c : Cursor) :
    typeWord n c = if c.kind = .protoOpen then typeWordRest n c.current true c.advance
      else (expect .leftBracket >>= fun _ => typeWordRest n c.current false) c := by
  by_cases h : c.kind = .protoOpen
  · have ha : accept [.protoOpen] c = .ok true c.advance := by simp [accept_apply, h]
    rw [if_pos h, typeWord, bind_current, bind_of_ok ha]
    rfl
  · have ha : accept [.protoOpen] c = .ok false c := by simp [accept_apply, h]
    rw [if_neg h, typeWord, bind_current, bind_of_ok ha]
    rfl

theorem moves_typeWordRest (n : Nesting) (start : Token) (proto : Bool) :
    Moves (typeWordRest n start proto) :=
  moves_bind (moves_nested n moves_gacString) fun _ => moves_bind (moves_expect _) fun _ =>
    moves_bind moves_kind fun _ => moves_ite
      (moves_bind (moves_map _ moves_pointer) fun _ =>
        moves_bind (moves_originFrom _) fun _ => moves_pure _)
      (moves_bind (moves_pure _) fun _ => moves_bind (moves_originFrom _) fun _ => moves_pure _)

theorem moves_typeWord (n : Nesting) : Moves (typeWord n) := by
  have proto : ∀ c : Cursor, Moves (advance >>= fun _ => typeWordRest n c.current true) := fun c =>
    moves_bind moves_advance fun _ => moves_typeWordRest n _ _
  have std : ∀ c : Cursor,
      Moves (expect .leftBracket >>= fun _ => typeWordRest n c.current false) := fun c =>
    moves_bind (moves_expect _) fun _ => moves_typeWordRest n _ _
  refine ⟨fun c => ?_, fun {c d fault} h => ?_⟩
  · rw [typeWord_apply]
    split
    · exact (proto c).passes c
    · exact (std c).passes c
  · rw [typeWord_apply] at h
    split at h
    · exact (proto c).found (c := c) h
    · exact (std c).found h

theorem moves_expression (n : Nesting) : Moves (expression n) := by
  apply moves_bind moves_kind
  intro k
  split
  · exact moves_bind moves_typeDesc fun _ => moves_pure _
  · exact moves_typeWord n
  · exact moves_typeWord n
  · exact moves_bind moves_fycoide fun _ => moves_pure _
  · exact moves_bind moves_pointerRef fun _ => moves_pure _
  · exact moves_refuse _

theorem moves_includeFile : Moves includeFile := by
  apply moves_bind moves_current
  intro t
  split
  · exact moves_bind moves_advance fun _ => moves_pure _
  · exact moves_bind moves_advance fun _ => moves_pure _
  · exact moves_bind moves_advance fun _ => moves_pure _
  · exact moves_refuse _

theorem moves_includeBlock : Moves includeBlock :=
  moves_bind (moves_expect _) fun _ => moves_bind moves_includeFile fun _ =>
    moves_bind (moves_expect _) fun _ => moves_bind (moves_originFrom _) fun _ => moves_pure _

section
variable {body : Nesting → Parse BlockBody} (h : ∀ n, Moves (body n)) (n : Nesting)
include h

theorem moves_bracedWith : Moves (bracedWith body n) :=
  moves_bind moves_kind fun _ =>
    moves_ite (moves_pure _) (moves_bind (h n) fun _ => moves_pure _)

theorem moves_relationWith (left : Expression) : Moves (relationWith body n left) := by
  apply moves_bind moves_kind
  intro k
  split
  · exact moves_refuse _
  · exact moves_bind moves_advance fun _ => moves_bind moves_kind fun _ => moves_ite
      (moves_bind moves_advance fun _ => moves_bind (moves_nested n (moves_bracedWith h)) fun _ =>
        moves_bind (moves_expect _) fun _ => moves_pure _)
      (moves_bind (moves_expression n) fun _ => moves_pure _)

theorem moves_elementWith : Moves (elementWith body n) :=
  moves_bind moves_kind fun _ => moves_ite (moves_bind moves_includeBlock fun _ => moves_pure _)
    (moves_bind (moves_expression n) fun _ => moves_bind moves_kind fun _ => moves_ite
      (moves_bind (moves_relationWith h n _) fun _ => moves_pure _) (moves_pure _))

end

theorem moves_furtherElements {element : Parse Element} (h : Moves element) :
    ∀ k, Moves (furtherElements element k)
  | 0 => moves_pure _
  | k + 1 => moves_bind (moves_accept _) fun _ => moves_ite
      (moves_bind moves_kind fun _ => moves_ite (moves_pure _)
        (moves_bind h fun _ => moves_bind (moves_furtherElements h k) fun _ => moves_pure _))
      (moves_pure _)

theorem moves_blockBodyWithin : ∀ k n, Moves (blockBodyWithin k n)
  | 0, _ => moves_refuse _
  | k + 1, n =>
    have element := moves_elementWith (moves_blockBodyWithin k) n
    moves_bind moves_current fun _ => moves_bind element fun _ => moves_bind moves_get fun _ =>
      moves_bind (moves_furtherElements element _) fun _ => moves_bind moves_kind fun _ => moves_ite
        (moves_bind (moves_originFrom _) fun _ => moves_pure _) (moves_refuse _)

theorem moves_blockBody (n : Nesting) : Moves (blockBody n) :=
  moves_bind moves_get fun _ => moves_blockBodyWithin _ n

theorem moves_functionBlock (n : Nesting) : Moves (functionBlock n) :=
  moves_bind moves_kind fun _ => moves_ite (moves_bind moves_includeBlock fun _ => moves_pure _)
    (moves_bind (moves_expression n) fun _ =>
      moves_bind (moves_relationWith moves_blockBody n _) fun _ => moves_pure _)

theorem moves_statement (n : Nesting) : Moves (statement n) := by
  apply moves_bind moves_current
  intro t
  split
  · exact moves_bind moves_advance fun _ => moves_pure _
  · exact moves_bind moves_advance fun _ => moves_pure _
  · exact moves_bind (moves_functionBlock n) fun _ => moves_bind (moves_expect _) fun _ =>
      moves_bind (moves_originFrom _) fun _ => moves_pure _

end Parse

end RelationNotation
