import RelationNotation.Proofs.Grammar.Production
import RelationNotation.Proofs.Tree.WellFormed

/-!
How many levels of nesting a tree takes. What is spelled with a number of levels left nests no
deeper, and is spelled by the same tokens with any number of levels that its nesting allows
(`Statement.SpelledBy.nesting_le`, `Statement.SpelledBy.relevel`).
-/

namespace RelationNotation

open Token

/-! ### Gac strings -/

section
variable {bracketed bracketed' : GacString → List Token → Token → Prop} {next : Token}
  {ts : List Token} {d : Nat}

section
variable (hin : ∀ {x : GacString} {ts : List Token} {next : Token},
  bracketed x ts next → x.nesting + 1 ≤ d)
include hin

theorem GacStem.SpelledWith.nesting_le {x : GacStem} (h : x.SpelledWith bracketed next ts) :
    x.nesting ≤ d := by
  cases h with
  | nested opener content closer => exact hin content
  | _ => exact Nat.zero_le d

theorem GacStem.RowSpelledWith.nesting_le {xs : List GacStem}
    (h : GacStem.RowSpelledWith bracketed next xs ts) : GacStem.nestingAmong xs ≤ d := by
  induction h with
  | last stem => exact Nat.max_le.2 ⟨stem.nesting_le hin, Nat.zero_le d⟩
  | cons stem stems ih => exact Nat.max_le.2 ⟨stem.nesting_le hin, ih⟩

theorem GacString.SpelledWith.nesting_le {x : GacString} (h : x.SpelledWith bracketed ts next) :
    x.nesting ≤ d := by
  cases h with
  | intro stems => exact stems.nesting_le hin

end

section
variable (hin : ∀ {x : GacString} {ts : List Token} {next : Token},
  x.nesting + 1 ≤ d → bracketed x ts next → bracketed' x ts next)
include hin

theorem GacStem.SpelledWith.relevel {x : GacStem} (h : x.SpelledWith bracketed next ts)
    (hx : x.nesting ≤ d) : x.SpelledWith bracketed' next ts := by
  cases h with
  | fycoide spelled => exact .fycoide spelled
  | pointerRef spelled => exact .pointerRef spelled
  | identifier kind longest => exact .identifier kind longest
  | front kind mark touches => exact .front kind mark touches
  | ending mark kind touches => exact .ending mark kind touches
  | sign mark longest => exact .sign mark longest
  | synonym mark kind => exact .synonym mark kind
  | nested opener content closer => exact .nested opener (hin hx content) closer
  | operator kind => exact .operator kind

theorem GacStem.RowSpelledWith.relevel {xs : List GacStem}
    (h : GacStem.RowSpelledWith bracketed next xs ts) (hxs : GacStem.nestingAmong xs ≤ d) :
    GacStem.RowSpelledWith bracketed' next xs ts := by
  induction h with
  | last stem => exact .last (stem.relevel hin (Nat.max_le.1 hxs).1)
  | cons stem stems ih =>
    obtain ⟨hx, hrest⟩ := Nat.max_le.1 hxs
    exact .cons (stem.relevel hin hx) (ih hrest)

theorem GacString.SpelledWith.relevel {x : GacString} (h : x.SpelledWith bracketed ts next)
    (hx : x.nesting ≤ d) : x.SpelledWith bracketed' ts next := by
  cases h with
  | intro stems => exact .intro (stems.relevel hin hx)

end

theorem GacString.SpelledIn.nesting_lt {x : GacString} (h : x.SpelledIn d ts next) :
    x.nesting + 1 ≤ d := by
  induction d generalizing x ts next with
  | zero => exact h.elim
  | succ d ih => exact Nat.succ_le_succ (GacString.SpelledWith.nesting_le ih h)

theorem GacString.SpelledIn.relevel {d' : Nat} {x : GacString} (h : x.SpelledIn d ts next)
    (hx : x.nesting + 1 ≤ d') : x.SpelledIn d' ts next := by
  induction d generalizing d' x ts next with
  | zero => exact h.elim
  | succ d ih =>
    cases d' with
    | zero => exact absurd hx (Nat.not_succ_le_zero _)
    | succ d' =>
      exact GacString.SpelledWith.relevel (fun hx h => ih h hx) h (Nat.le_of_succ_le_succ hx)

end

/-! ### Expressions -/

section
variable {d d' : Nat} {ts : List Token}

theorem Expression.SpelledBy.nesting_le {x : Expression} (h : x.SpelledBy d ts) :
    x.nesting ≤ d := by
  cases h with
  | protoGacWord opener content closer target => exact content.nesting_lt
  | stdGacWord opener content closer target => exact content.nesting_lt
  | _ => exact Nat.zero_le d

theorem Expression.SpelledBy.relevel {x : Expression} (h : x.SpelledBy d ts)
    (hx : x.nesting ≤ d') : x.SpelledBy d' ts := by
  cases h with
  | typeDesc spelled => exact .typeDesc spelled
  | protoGacWord opener content closer target =>
    exact .protoGacWord opener (content.relevel hx) closer target
  | stdGacWord opener content closer target =>
    exact .stdGacWord opener (content.relevel hx) closer target
  | fycoide spelled => exact .fycoide spelled
  | pointerRef spelled => exact .pointerRef spelled

end

/-! ### Relations and blocks -/

section
variable {braced braced' : RightSide → List Token → Prop} {d d' : Nat} {ts : List Token}

section
variable (hin : ∀ {x : RightSide} {ts : List Token}, braced x ts → x.nesting ≤ d)
include hin

theorem Relation.SpelledWith.nesting_le {x : Relation} (h : x.SpelledWith braced d ts) :
    x.nesting ≤ d := by
  cases h with
  | pure left operator right => exact Nat.max_le.2 ⟨left.nesting_le, right.nesting_le⟩
  | block left operator opener content closer => exact Nat.max_le.2 ⟨left.nesting_le, hin content⟩

theorem Element.SpelledWith.nesting_le {x : Element} (h : x.SpelledWith braced d ts) :
    x.nesting ≤ d := by
  cases h with
  | expression spelled => exact spelled.nesting_le
  | inclusion spelled => exact Nat.zero_le d
  | relation spelled => exact spelled.nesting_le hin

theorem Element.RowSpelledWith.nesting_le {xs : List Element} {trailingComma : Bool}
    (h : Element.RowSpelledWith braced d xs trailingComma ts) : Element.nestingAmong xs ≤ d := by
  induction h with
  | last element => exact Nat.max_le.2 ⟨element.nesting_le hin, Nat.zero_le d⟩
  | trailing element comma => exact Nat.max_le.2 ⟨element.nesting_le hin, Nat.zero_le d⟩
  | cons element comma elements ih => exact Nat.max_le.2 ⟨element.nesting_le hin, ih⟩

theorem BlockBody.SpelledWith.nesting_le {x : BlockBody} (h : x.SpelledWith braced d ts) :
    x.nesting ≤ d := by
  cases h with
  | intro elements => exact elements.nesting_le hin

end

section
variable (hin : ∀ {x : RightSide} {ts : List Token}, x.nesting ≤ d' → braced x ts → braced' x ts)
include hin

theorem Relation.SpelledWith.relevel {x : Relation} (h : x.SpelledWith braced d ts)
    (hx : x.nesting ≤ d') : x.SpelledWith braced' d' ts := by
  cases h with
  | pure left operator right =>
    obtain ⟨hleft, hright⟩ := Nat.max_le.1 hx
    exact .pure (left.relevel hleft) operator (right.relevel hright)
  | block left operator opener content closer =>
    obtain ⟨hleft, hright⟩ := Nat.max_le.1 hx
    exact .block (left.relevel hleft) operator opener (hin hright content) closer

theorem Element.SpelledWith.relevel {x : Element} (h : x.SpelledWith braced d ts)
    (hx : x.nesting ≤ d') : x.SpelledWith braced' d' ts := by
  cases h with
  | expression spelled => exact .expression (spelled.relevel hx)
  | inclusion spelled => exact .inclusion spelled
  | relation spelled => exact .relation (spelled.relevel hin hx)

theorem Element.RowSpelledWith.relevel {xs : List Element} {trailingComma : Bool}
    (h : Element.RowSpelledWith braced d xs trailingComma ts)
    (hxs : Element.nestingAmong xs ≤ d') :
    Element.RowSpelledWith braced' d' xs trailingComma ts := by
  induction h with
  | last element => exact .last (element.relevel hin (Nat.max_le.1 hxs).1)
  | trailing element comma => exact .trailing (element.relevel hin (Nat.max_le.1 hxs).1) comma
  | cons element comma elements ih =>
    obtain ⟨hx, hrest⟩ := Nat.max_le.1 hxs
    exact .cons (element.relevel hin hx) comma (ih hrest)

theorem BlockBody.SpelledWith.relevel {x : BlockBody} (h : x.SpelledWith braced d ts)
    (hx : x.nesting ≤ d') : x.SpelledWith braced' d' ts := by
  cases h with
  | intro elements => exact .intro (elements.relevel hin hx)

end

theorem RightSide.SpelledIn.nesting_le {x : RightSide} (h : x.SpelledIn d ts) :
    x.nesting ≤ d := by
  induction d generalizing x ts with
  | zero => exact h.elim
  | succ d ih =>
    cases h with
    | empty => exact Nat.succ_le_succ (Nat.zero_le d)
    | body spelled => exact Nat.succ_le_succ (spelled.nesting_le ih)

theorem RightSide.SpelledIn.relevel {x : RightSide} (h : x.SpelledIn d ts)
    (hx : x.nesting ≤ d') : x.SpelledIn d' ts := by
  induction d generalizing d' x ts with
  | zero => exact h.elim
  | succ d ih =>
    cases d' with
    | zero => cases h <;> exact absurd hx (Nat.not_succ_le_zero _)
    | succ d' =>
      cases h with
      | empty => exact .empty
      | body spelled =>
        exact .body (spelled.relevel (fun hx h => ih h hx) (Nat.le_of_succ_le_succ hx))

end

/-! ### Statements -/

section
variable {d d' : Nat} {ts : List Token}

theorem FunctionBlock.SpelledBy.nesting_le {x : FunctionBlock} (h : x.SpelledBy d ts) :
    x.nesting ≤ d := by
  cases h with
  | inclusion spelled => exact Nat.zero_le d
  | relation spelled => exact spelled.nesting_le RightSide.SpelledIn.nesting_le

theorem FunctionBlock.SpelledBy.relevel {x : FunctionBlock} (h : x.SpelledBy d ts)
    (hx : x.nesting ≤ d') : x.SpelledBy d' ts := by
  cases h with
  | inclusion spelled => exact .inclusion spelled
  | relation spelled => exact .relation (spelled.relevel (fun hx h => h.relevel hx) hx)

/-- A statement nests no deeper than the levels it is spelled with. -/
theorem Statement.SpelledBy.nesting_le {x : Statement} (h : x.SpelledBy d ts) :
    x.nesting ≤ d := by
  cases h with
  | block spelled semicolon => exact spelled.nesting_le
  | _ => exact Nat.zero_le d

/-- A statement is spelled alike with all levels that its nesting allows. -/
theorem Statement.SpelledBy.relevel {x : Statement} (h : x.SpelledBy d ts)
    (hx : x.nesting ≤ d') : x.SpelledBy d' ts := by
  cases h with
  | empty kind => exact .empty kind
  | dashComment kind => exact .dashComment kind
  | block spelled semicolon => exact .block (spelled.relevel hx) semicolon

theorem Statement.RowSpelledBy.nesting_le {xs : List Statement}
    (h : Statement.RowSpelledBy d xs ts) : ∀ x ∈ xs, x.nesting ≤ d := by
  induction h with
  | nil => simp
  | cons statement statements ih => exact List.forall_mem_cons.2 ⟨statement.nesting_le, ih⟩

theorem Statement.RowSpelledBy.relevel {xs : List Statement} (h : Statement.RowSpelledBy d xs ts)
    (hxs : ∀ x ∈ xs, x.nesting ≤ d') : Statement.RowSpelledBy d' xs ts := by
  induction h with
  | nil => exact .nil
  | cons statement statements ih =>
    obtain ⟨hx, hrest⟩ := List.forall_mem_cons.1 hxs
    exact .cons (statement.relevel hx) (ih hrest)

end

/-! ### Positions and trivia make no difference -/

section
variable {σ : Type} (p : OriginMap σ)

mutual

theorem GacStem.nesting_mapOrigins (s : σ) : (x : GacStem) → (x.mapOrigins p s).nesting = x.nesting
  | .nested x => by
    rw [GacStem.mapOrigins, GacStem.nesting, GacStem.nesting]
    exact x.nesting_mapOrigins s
  | .fycoide x | .pointerRef x | .operator x | .identifier x | .front x | .ending x
  | .synonym x => by rw [GacStem.mapOrigins]; rfl

theorem GacNested.nesting_mapOrigins (s : σ) :
    (x : GacNested) → (x.mapOrigins p s).nesting = x.nesting
  | ⟨_, content⟩ => by
    rw [GacNested.mapOrigins, GacNested.nesting, GacNested.nesting, content.nesting_mapOrigins]

theorem GacString.nesting_mapOrigins (s : σ) :
    (x : GacString) → (x.mapOrigins p s).nesting = x.nesting
  | ⟨_, first, rest⟩ => by
    rw [GacString.mapOrigins, GacString.nesting, GacString.nesting, first.nesting_mapOrigins,
      GacStem.nestingAmong_mapListOrigins]

theorem GacStem.nestingAmong_mapListOrigins (s : σ) (spans : List Span) (i : Nat) :
    (xs : List GacStem) →
      GacStem.nestingAmong (GacStem.mapListOrigins p s spans i xs) = GacStem.nestingAmong xs
  | [] => by rw [GacStem.mapListOrigins]
  | x :: xs => by
    rw [GacStem.mapListOrigins, GacStem.nestingAmong, GacStem.nestingAmong, x.nesting_mapOrigins,
      GacStem.nestingAmong_mapListOrigins]

end

theorem Expression.nesting_mapOrigins (s : σ) (x : Expression) :
    (x.mapOrigins p s).nesting = x.nesting := by
  cases x with
  | protoGacWord x => exact congrArg (· + 1) (x.content.nesting_mapOrigins p _)
  | stdGacWord x => exact congrArg (· + 1) (x.content.nesting_mapOrigins p _)
  | _ => rfl

mutual

theorem Relation.nesting_mapOrigins (s : σ) :
    (x : Relation) → (x.mapOrigins p s).nesting = x.nesting
  | ⟨_, _, left, right⟩ => by
    rw [Relation.mapOrigins, Relation.nesting, Relation.nesting, left.nesting_mapOrigins,
      right.nesting_mapOrigins]

theorem RightSide.nesting_mapOrigins (s : σ) :
    (x : RightSide) → (x.mapOrigins p s).nesting = x.nesting
  | .expression x => by
    rw [RightSide.mapOrigins, RightSide.nesting, RightSide.nesting, x.nesting_mapOrigins]
  | .emptyBlock => by rw [RightSide.mapOrigins]
  | .block body => by
    rw [RightSide.mapOrigins, RightSide.nesting, RightSide.nesting, body.nesting_mapOrigins]

theorem BlockBody.nesting_mapOrigins (s : σ) :
    (x : BlockBody) → (x.mapOrigins p s).nesting = x.nesting
  | ⟨_, first, rest, _⟩ => by
    rw [BlockBody.mapOrigins, BlockBody.nesting, BlockBody.nesting, first.nesting_mapOrigins,
      Element.nestingAmong_mapListOrigins]

theorem Element.nesting_mapOrigins (s : σ) :
    (x : Element) → (x.mapOrigins p s).nesting = x.nesting
  | .expression x => by
    rw [Element.mapOrigins, Element.nesting, Element.nesting, x.nesting_mapOrigins]
  | .inclusion x => by rw [Element.mapOrigins, Element.nesting, Element.nesting]
  | .relation x => by
    rw [Element.mapOrigins, Element.nesting, Element.nesting, x.nesting_mapOrigins]

theorem Element.nestingAmong_mapListOrigins (s : σ) (spans : List Span) (i : Nat) :
    (xs : List Element) →
      Element.nestingAmong (Element.mapListOrigins p s spans i xs) = Element.nestingAmong xs
  | [] => by rw [Element.mapListOrigins]
  | x :: xs => by
    rw [Element.mapListOrigins, Element.nestingAmong, Element.nestingAmong, x.nesting_mapOrigins,
      Element.nestingAmong_mapListOrigins]

end

theorem Statement.nesting_mapOrigins (s : σ) (x : Statement) :
    (x.mapOrigins p s).nesting = x.nesting := by
  cases x with
  | block x =>
    obtain ⟨origin, block⟩ := x
    cases block with
    | inclusion x => rfl
    | relation x => exact x.nesting_mapOrigins p _
  | _ => rfl

end

end RelationNotation
