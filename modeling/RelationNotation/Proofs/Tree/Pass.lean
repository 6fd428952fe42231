import Mathlib.Data.List.Forall2
import Mathlib.Logic.Basic
import RelationNotation.Parse.Expression
import RelationNotation.Tree.Canonical

/-!
Passes over trees, one behind another. The second pass sees spans that the first has changed, so two
passes fuse into one when the first changes every span by one function: `Statement.mapOrigins_fuse`.
-/

namespace RelationNotation

/-- A pass changes every span by one function. -/
def OriginMap.SpansBy {σ : Type} (φ : Span → Span) (p : OriginMap σ) : Prop :=
  ∀ s spans o, (p.here s spans o).span = φ o.span

/-- Two passes in a row do what a third does alone, from related states on. The first changes every
span by one function. -/
structure OriginMap.Fuses {σ τ υ : Type} (φ : Span → Span) (p : OriginMap σ) (q : OriginMap τ)
    (r : OriginMap υ) (R : σ → τ → υ → Prop) : Prop where
  span : p.SpansBy φ
  here : ∀ {s t u}, R s t u → ∀ spans o,
    q.here t (spans.map φ) (p.here s spans o) = r.here u spans o
  below : ∀ {s t u}, R s t u → ∀ spans i,
    R (p.below s spans i) (q.below t (spans.map φ) i) (r.below u spans i)

/-! ### Passes of one function -/

theorem PointerTerm.mapListOrigins_each (f : Origin → Origin) (spans : List Span) (i : Nat)
    (xs : List PointerTerm) : PointerTerm.mapListOrigins (.each f) () spans i xs =
      xs.map (PointerTerm.mapOrigins (.each f) ()) := by
  induction xs generalizing i with
  | nil => rfl
  | cons x xs ih => rw [PointerTerm.mapListOrigins, ih]; rfl

theorem GacStem.mapListOrigins_each (f : Origin → Origin) (spans : List Span) (i : Nat)
    (xs : List GacStem) :
    GacStem.mapListOrigins (.each f) () spans i xs = xs.map (GacStem.mapOrigins (.each f) ()) := by
  induction xs generalizing i with
  | nil => simp [GacStem.mapListOrigins]
  | cons x xs ih => rw [GacStem.mapListOrigins, ih]; rfl

theorem Element.mapListOrigins_each (f : Origin → Origin) (spans : List Span) (i : Nat)
    (xs : List Element) :
    Element.mapListOrigins (.each f) () spans i xs = xs.map (Element.mapOrigins (.each f) ()) := by
  induction xs generalizing i with
  | nil => simp [Element.mapListOrigins]
  | cons x xs ih => rw [Element.mapListOrigins, ih]; rfl

/-! ### Bare nodes -/

/-- The pass that takes positions and trivia away. -/
abbrev OriginMap.bare : OriginMap Unit := .each fun _ => default

/-- Two nodes are equal without positions and trivia, as a pass over nodes of their sort says. -/
abbrev SameBare {α : Type} (pass : OriginMap Unit → Unit → α → α) (x y : α) : Prop :=
  pass .bare () y = pass .bare () x

theorem map_bare {α : Type} {pass : OriginMap Unit → Unit → α → α} {xs ys : List α}
    (h : List.Forall₂ (SameBare pass) xs ys) : ys.map (pass .bare ()) = xs.map (pass .bare ()) := by
  induction h with
  | nil => rfl
  | cons hx _ ih => rw [List.map_cons, List.map_cons, hx, ih]

theorem Token.toPointerTerm_bare {t u : Token} (hkind : t.kind = u.kind) (htext : t.text = u.text) :
    t.toPointerTerm.mapOrigins .bare () = u.toPointerTerm.mapOrigins .bare () := by
  unfold toPointerTerm toNumber toOperator
  rw [hkind, htext]
  split
  · rfl
  · split <;> rfl

theorem PointerExpression.sameBare {o o' : Origin} {x y : PointerTerm} {xs ys : List PointerTerm}
    (h : SameBare PointerTerm.mapOrigins x y)
    (hs : List.Forall₂ (SameBare PointerTerm.mapOrigins) xs ys) :
    SameBare mapOrigins ⟨o, x, xs⟩ ⟨o', y, ys⟩ := by
  simp only [SameBare, mapOrigins, PointerTerm.mapListOrigins_each, map_bare hs]
  exact congrArg (fun z => PointerExpression.mk default z _) h

theorem GacString.sameBare {o o' : Origin} {x y : GacStem} {xs ys : List GacStem}
    (h : SameBare GacStem.mapOrigins x y) (hs : List.Forall₂ (SameBare GacStem.mapOrigins) xs ys) :
    SameBare mapOrigins ⟨o, x, xs⟩ ⟨o', y, ys⟩ := by
  simp only [SameBare, mapOrigins, GacStem.mapListOrigins_each, map_bare hs]
  exact congrArg (fun z => GacString.mk default z _) h

theorem BlockBody.sameBare {o o' : Origin} {x y : Element} {xs ys : List Element} (comma : Bool)
    (h : SameBare Element.mapOrigins x y) (hs : List.Forall₂ (SameBare Element.mapOrigins) xs ys) :
    SameBare mapOrigins ⟨o, x, xs, comma⟩ ⟨o', y, ys, comma⟩ := by
  simp only [SameBare, mapOrigins, Element.mapListOrigins_each, map_bare hs]
  exact congrArg (fun z => BlockBody.mk default z _ _) h

/-! ### Two passes in a row -/

section
variable {σ τ υ : Type} {φ : Span → Span} {p : OriginMap σ} {q : OriginMap τ} {r : OriginMap υ}
  {R : σ → τ → υ → Prop} {s : σ} {t : τ} {u : υ}

/-! ### Spans behind a pass -/

section
variable (hp : p.SpansBy φ)
include hp

theorem StringValue.span_mapOrigins (s : σ) (x : StringValue) :
    (x.mapOrigins p s).origin.span = φ x.origin.span := by
  cases x <;> exact hp _ _ _

theorem IncludeFile.span_mapOrigins (s : σ) (x : IncludeFile) :
    (x.mapOrigins p s).origin.span = φ x.origin.span := by
  cases x <;> exact hp _ _ _

theorem PointerTerm.span_mapOrigins (s : σ) (x : PointerTerm) :
    (x.mapOrigins p s).origin.span = φ x.origin.span := by
  cases x <;> exact hp _ _ _

theorem PointerId.span_mapOrigins (s : σ) (x : PointerId) :
    (x.mapOrigins p s).origin.span = φ x.origin.span := by
  cases x <;> exact hp _ _ _

theorem GacString.span_mapOrigins (s : σ) (x : GacString) :
    (x.mapOrigins p s).origin.span = φ x.origin.span := by
  cases x
  rw [GacString.mapOrigins]
  exact hp _ _ _

theorem GacStem.span_mapOrigins (s : σ) (x : GacStem) :
    (x.mapOrigins p s).origin.span = φ x.origin.span := by
  cases x
  case nested x => cases x; rw [GacStem.mapOrigins, GacNested.mapOrigins]; exact hp _ _ _
  all_goals rw [GacStem.mapOrigins]; exact hp _ _ _

theorem Expression.span_mapOrigins (s : σ) (x : Expression) :
    (x.mapOrigins p s).origin.span = φ x.origin.span := by
  cases x <;> exact hp _ _ _

theorem Relation.span_mapOrigins (s : σ) (x : Relation) :
    (x.mapOrigins p s).origin.span = φ x.origin.span := by
  cases x
  rw [Relation.mapOrigins]
  exact hp _ _ _

theorem BlockBody.span_mapOrigins (s : σ) (x : BlockBody) :
    (x.mapOrigins p s).origin.span = φ x.origin.span := by
  cases x
  rw [BlockBody.mapOrigins]
  exact hp _ _ _

theorem RightSide.spans_mapOrigins (s : σ) (x : RightSide) :
    (x.mapOrigins p s).spans = x.spans.map φ := by
  cases x with
  | expression x =>
    rw [RightSide.mapOrigins]
    exact congrArg (fun a => [a]) (Expression.span_mapOrigins hp s x)
  | emptyBlock =>
    rw [RightSide.mapOrigins]
    rfl
  | block body =>
    rw [RightSide.mapOrigins]
    exact congrArg (fun a => [a]) (BlockBody.span_mapOrigins hp s body)

theorem Element.span_mapOrigins (s : σ) (x : Element) :
    (x.mapOrigins p s).origin.span = φ x.origin.span := by
  cases x with
  | expression x => rw [Element.mapOrigins]; exact Expression.span_mapOrigins hp s x
  | inclusion x => rw [Element.mapOrigins]; exact hp _ _ _
  | relation x => rw [Element.mapOrigins]; exact Relation.span_mapOrigins hp s x

theorem FunctionBlock.span_mapOrigins (s : σ) (x : FunctionBlock) :
    (x.mapOrigins p s).origin.span = φ x.origin.span := by
  cases x with
  | inclusion x => exact hp _ _ _
  | relation x => exact Relation.span_mapOrigins hp s x

theorem Statement.span_mapOrigins (s : σ) (x : Statement) :
    (x.mapOrigins p s).origin.span = φ x.origin.span := by
  cases x <;> exact hp _ _ _

end

section
variable (fuses : p.Fuses φ q r R)
include fuses

/-! ### Leaves and expressions -/

theorem Identifier.mapOrigins_fuse (h : R s t u) (x : Identifier) :
    (x.mapOrigins p s).mapOrigins q t = x.mapOrigins r u :=
  congrArg (fun o => Identifier.mk o x.text) (fuses.here h [] x.origin)

theorem UnicodeString.mapOrigins_fuse (h : R s t u) (x : UnicodeString) :
    (x.mapOrigins p s).mapOrigins q t = x.mapOrigins r u :=
  congrArg (fun o => UnicodeString.mk o x.text) (fuses.here h [] x.origin)

theorem QuotedString.mapOrigins_fuse (h : R s t u) (x : QuotedString) :
    (x.mapOrigins p s).mapOrigins q t = x.mapOrigins r u :=
  congrArg (fun o => QuotedString.mk o x.content) (fuses.here h [] x.origin)

theorem Number.mapOrigins_fuse (h : R s t u) (x : Number) :
    (x.mapOrigins p s).mapOrigins q t = x.mapOrigins r u :=
  congrArg (fun o => Number.mk o x.text x.isFloat) (fuses.here h [] x.origin)

theorem Operator.mapOrigins_fuse (h : R s t u) (x : Operator) :
    (x.mapOrigins p s).mapOrigins q t = x.mapOrigins r u :=
  congrArg (fun o => Operator.mk o x.symbol) (fuses.here h [] x.origin)

theorem ArithmeticOp.mapOrigins_fuse (h : R s t u) (x : ArithmeticOp) :
    (x.mapOrigins p s).mapOrigins q t = x.mapOrigins r u :=
  congrArg (fun o => ArithmeticOp.mk o x.symbol) (fuses.here h [] x.origin)

theorem StringValue.mapOrigins_fuse (h : R s t u) (x : StringValue) :
    (x.mapOrigins p s).mapOrigins q t = x.mapOrigins r u := by
  cases x with
  | identifier x => exact congrArg StringValue.identifier (x.mapOrigins_fuse fuses h)
  | unicodeString x => exact congrArg StringValue.unicodeString (x.mapOrigins_fuse fuses h)

theorem IncludeFile.mapOrigins_fuse (h : R s t u) (x : IncludeFile) :
    (x.mapOrigins p s).mapOrigins q t = x.mapOrigins r u := by
  cases x with
  | identifier x => exact congrArg IncludeFile.identifier (x.mapOrigins_fuse fuses h)
  | unicodeString x => exact congrArg IncludeFile.unicodeString (x.mapOrigins_fuse fuses h)
  | quotedString x => exact congrArg IncludeFile.quotedString (x.mapOrigins_fuse fuses h)

theorem PointerTerm.mapOrigins_fuse (h : R s t u) (x : PointerTerm) :
    (x.mapOrigins p s).mapOrigins q t = x.mapOrigins r u := by
  cases x with
  | number x => exact congrArg PointerTerm.number (x.mapOrigins_fuse fuses h)
  | operator x => exact congrArg PointerTerm.operator (x.mapOrigins_fuse fuses h)
  | arithmeticOp x => exact congrArg PointerTerm.arithmeticOp (x.mapOrigins_fuse fuses h)

theorem PointerTerm.mapListOrigins_fuse (h : R s t u) (spans : List Span) (i : Nat)
    (xs : List PointerTerm) :
    mapListOrigins q t (spans.map φ) i (mapListOrigins p s spans i xs) =
      mapListOrigins r u spans i xs := by
  induction xs generalizing i with
  | nil => rfl
  | cons x xs ih =>
    exact congrArg₂ List.cons (x.mapOrigins_fuse fuses (fuses.below h spans i)) (ih (i + 1))

theorem PointerTerm.spans_mapListOrigins (s : σ) (spans : List Span) (i : Nat)
    (xs : List PointerTerm) :
    (mapListOrigins p s spans i xs).map (·.origin.span) = (xs.map (·.origin.span)).map φ := by
  induction xs generalizing i with
  | nil => rfl
  | cons x xs ih => exact congrArg₂ List.cons (x.span_mapOrigins fuses.span _) (ih (i + 1))

theorem PointerExpression.mapOrigins_fuse (h : R s t u) (x : PointerExpression) :
    (x.mapOrigins p s).mapOrigins q t = x.mapOrigins r u := by
  have hspans : (x.mapOrigins p s).terms.map (·.origin.span) =
      (x.terms.map (·.origin.span)).map φ :=
    congrArg₂ List.cons (x.first.span_mapOrigins fuses.span _)
      (PointerTerm.spans_mapListOrigins fuses _ _ _ _)
  rw [PointerExpression.mapOrigins, hspans]
  simp only [PointerExpression.mapOrigins, fuses.here h,
    PointerTerm.mapListOrigins_fuse fuses h, PointerTerm.mapOrigins_fuse fuses (fuses.below h _ _)]

theorem PointerId.mapOrigins_fuse (h : R s t u) (x : PointerId) :
    (x.mapOrigins p s).mapOrigins q t = x.mapOrigins r u := by
  cases x with
  | number x => exact congrArg PointerId.number (x.mapOrigins_fuse fuses h)
  | expression x => exact congrArg PointerId.expression (x.mapOrigins_fuse fuses h)

theorem Pointer.mapOrigins_fuse (h : R s t u) (x : Pointer) :
    (x.mapOrigins p s).mapOrigins q t = x.mapOrigins r u := by
  have hspans : [(x.mapOrigins p s).id.origin.span] = [x.id.origin.span].map φ :=
    congrArg (fun a => [a]) (x.id.span_mapOrigins fuses.span _)
  rw [Pointer.mapOrigins, hspans]
  simp only [Pointer.mapOrigins, fuses.here h, PointerId.mapOrigins_fuse fuses (fuses.below h _ _)]

theorem PointerRef.mapOrigins_fuse (h : R s t u) (x : PointerRef) :
    (x.mapOrigins p s).mapOrigins q t = x.mapOrigins r u := by
  have hspans : [(x.mapOrigins p s).id.origin.span] = [x.id.origin.span].map φ :=
    congrArg (fun a => [a]) (x.id.span_mapOrigins fuses.span _)
  rw [PointerRef.mapOrigins, hspans]
  simp only [PointerRef.mapOrigins, fuses.here h, PointerId.mapOrigins_fuse fuses (fuses.below h _ _)]

theorem Fycoide.mapOrigins_fuse (h : R s t u) (x : Fycoide) :
    (x.mapOrigins p s).mapOrigins q t = x.mapOrigins r u := by
  have hspans : [(x.mapOrigins p s).name.origin.span] = [x.name.origin.span].map φ :=
    congrArg (fun a => [a]) (x.name.span_mapOrigins fuses.span _)
  rw [Fycoide.mapOrigins, hspans]
  simp only [Fycoide.mapOrigins, fuses.here h, StringValue.mapOrigins_fuse fuses (fuses.below h _ _)]

theorem TypeDesc.mapOrigins_fuse (h : R s t u) (x : TypeDesc) :
    (x.mapOrigins p s).mapOrigins q t = x.mapOrigins r u := by
  have hspans : [(x.mapOrigins p s).description.origin.span] = [x.description.origin.span].map φ :=
    congrArg (fun a => [a]) (x.description.span_mapOrigins fuses.span _)
  rw [TypeDesc.mapOrigins, hspans]
  simp only [TypeDesc.mapOrigins, fuses.here h, StringValue.mapOrigins_fuse fuses (fuses.below h _ _)]

theorem GacPrefix.mapOrigins_fuse (h : R s t u) (x : GacPrefix) :
    (x.mapOrigins p s).mapOrigins q t = x.mapOrigins r u := by
  have hspans : [(x.mapOrigins p s).name.origin.span] = [x.name.origin.span].map φ :=
    congrArg (fun a => [a]) (fuses.span _ _ _)
  rw [GacPrefix.mapOrigins, hspans]
  simp only [GacPrefix.mapOrigins, fuses.here h, Identifier.mapOrigins_fuse fuses (fuses.below h _ _)]

theorem GacSuffix.mapOrigins_fuse (h : R s t u) (x : GacSuffix) :
    (x.mapOrigins p s).mapOrigins q t = x.mapOrigins r u := by
  have hspans : [(x.mapOrigins p s).name.origin.span] = [x.name.origin.span].map φ :=
    congrArg (fun a => [a]) (fuses.span _ _ _)
  rw [GacSuffix.mapOrigins, hspans]
  simp only [GacSuffix.mapOrigins, fuses.here h, Identifier.mapOrigins_fuse fuses (fuses.below h _ _)]

theorem GacSynonym.mapOrigins_fuse (h : R s t u) (x : GacSynonym) :
    (x.mapOrigins p s).mapOrigins q t = x.mapOrigins r u := by
  have hspans : [(x.mapOrigins p s).name.origin.span] = [x.name.origin.span].map φ :=
    congrArg (fun a => [a]) (fuses.span _ _ _)
  rw [GacSynonym.mapOrigins, hspans]
  simp only [GacSynonym.mapOrigins, fuses.here h, Identifier.mapOrigins_fuse fuses (fuses.below h _ _)]

theorem GacStem.spans_mapListOrigins (s : σ) (spans : List Span) (i : Nat) (xs : List GacStem) :
    (GacStem.mapListOrigins p s spans i xs).map (·.origin.span) =
      (xs.map (·.origin.span)).map φ := by
  induction xs generalizing i with
  | nil => rw [GacStem.mapListOrigins]; rfl
  | cons x xs ih =>
    rw [GacStem.mapListOrigins]
    exact congrArg₂ List.cons (x.span_mapOrigins fuses.span _) (ih (i + 1))

mutual

theorem GacStem.mapOrigins_fuse {s : σ} {t : τ} {u : υ} (h : R s t u) :
    ∀ x : GacStem, (x.mapOrigins p s).mapOrigins q t = x.mapOrigins r u
  | .fycoide x => by
    simp only [GacStem.mapOrigins, x.mapOrigins_fuse fuses h]
  | .pointerRef x => by
    simp only [GacStem.mapOrigins, x.mapOrigins_fuse fuses h]
  | .operator x => by
    simp only [GacStem.mapOrigins, x.mapOrigins_fuse fuses h]
  | .identifier x => by
    simp only [GacStem.mapOrigins, x.mapOrigins_fuse fuses h]
  | .front x => by
    simp only [GacStem.mapOrigins, x.mapOrigins_fuse fuses h]
  | .ending x => by
    simp only [GacStem.mapOrigins, x.mapOrigins_fuse fuses h]
  | .synonym x => by
    simp only [GacStem.mapOrigins, x.mapOrigins_fuse fuses h]
  | .nested x => by
    simp only [GacStem.mapOrigins, GacNested.mapOrigins_fuse h x]

theorem GacNested.mapOrigins_fuse {s : σ} {t : τ} {u : υ} (h : R s t u) :
    ∀ x : GacNested, (x.mapOrigins p s).mapOrigins q t = x.mapOrigins r u
  | ⟨origin, content⟩ => by
    have hspans (s : σ) : [(content.mapOrigins p s).origin.span] = [content.origin.span].map φ :=
      congrArg (fun a => [a]) (content.span_mapOrigins fuses.span s)
    simp only [GacNested.mapOrigins]
    rw [hspans]
    rw [fuses.here h, GacString.mapOrigins_fuse (fuses.below h _ _) content]

theorem GacString.mapOrigins_fuse {s : σ} {t : τ} {u : υ} (h : R s t u) :
    ∀ x : GacString, (x.mapOrigins p s).mapOrigins q t = x.mapOrigins r u
  | ⟨origin, first, rest⟩ => by
    have hspans (s' : σ) (spans : List Span) :
        (first.mapOrigins p s' :: GacStem.mapListOrigins p s spans 1 rest).map (·.origin.span) =
          ((first :: rest).map (·.origin.span)).map φ :=
      congrArg₂ List.cons (first.span_mapOrigins fuses.span _)
        (GacStem.spans_mapListOrigins fuses _ _ _ _)
    simp only [GacString.mapOrigins]
    rw [hspans, fuses.here h, GacStem.mapOrigins_fuse (fuses.below h _ _) first,
      GacStem.mapListOrigins_fuse h _ 1 rest]

theorem GacStem.mapListOrigins_fuse {s : σ} {t : τ} {u : υ} (h : R s t u) (spans : List Span) :
    ∀ (i : Nat) (xs : List GacStem),
      GacStem.mapListOrigins q t (spans.map φ) i (GacStem.mapListOrigins p s spans i xs) =
        GacStem.mapListOrigins r u spans i xs
  | i, [] => by simp only [GacStem.mapListOrigins]
  | i, x :: xs => by
    simp only [GacStem.mapListOrigins]
    rw [GacStem.mapOrigins_fuse (fuses.below h spans i) x,
      GacStem.mapListOrigins_fuse h spans (i + 1) xs]

end

theorem gacWordSpans_mapOrigins (s s' : σ) (content : GacString) (pointer : Option Pointer) :
    gacWordSpans (content.mapOrigins p s) (pointer.map (·.mapOrigins p s')) =
      (gacWordSpans content pointer).map φ := by
  refine congrArg₂ List.cons (content.span_mapOrigins fuses.span s) ?_
  cases pointer with
  | none => rfl
  | some x => exact congrArg (fun a => [a]) (fuses.span _ _ _)

theorem Pointer.mapOptionOrigins_fuse (h : R s t u) (x : Option Pointer) :
    (x.map (·.mapOrigins p s)).map (·.mapOrigins q t) = x.map (·.mapOrigins r u) := by
  cases x with
  | none => rfl
  | some x => exact congrArg some (x.mapOrigins_fuse fuses h)

theorem ProtoGacWord.mapOrigins_fuse (h : R s t u) (x : ProtoGacWord) :
    (x.mapOrigins p s).mapOrigins q t = x.mapOrigins r u := by
  have hspans (s s' : σ) := gacWordSpans_mapOrigins fuses s s' x.content x.pointer
  simp only [ProtoGacWord.mapOrigins]
  rw [hspans, fuses.here h, x.content.mapOrigins_fuse fuses (fuses.below h _ _),
    Pointer.mapOptionOrigins_fuse fuses (fuses.below h _ _)]

theorem StdGacWord.mapOrigins_fuse (h : R s t u) (x : StdGacWord) :
    (x.mapOrigins p s).mapOrigins q t = x.mapOrigins r u := by
  have hspans (s s' : σ) := gacWordSpans_mapOrigins fuses s s' x.content x.pointer
  simp only [StdGacWord.mapOrigins]
  rw [hspans, fuses.here h, x.content.mapOrigins_fuse fuses (fuses.below h _ _),
    Pointer.mapOptionOrigins_fuse fuses (fuses.below h _ _)]

theorem Expression.mapOrigins_fuse (h : R s t u) (x : Expression) :
    (x.mapOrigins p s).mapOrigins q t = x.mapOrigins r u := by
  cases x with
  | typeDesc x => exact congrArg Expression.typeDesc (x.mapOrigins_fuse fuses h)
  | protoGacWord x => exact congrArg Expression.protoGacWord (x.mapOrigins_fuse fuses h)
  | stdGacWord x => exact congrArg Expression.stdGacWord (x.mapOrigins_fuse fuses h)
  | fycoide x => exact congrArg Expression.fycoide (x.mapOrigins_fuse fuses h)
  | pointerRef x => exact congrArg Expression.pointerRef (x.mapOrigins_fuse fuses h)

/-! ### Relations and statements -/

theorem Include.mapOrigins_fuse (h : R s t u) (x : Include) :
    (x.mapOrigins p s).mapOrigins q t = x.mapOrigins r u := by
  have hspans : [(x.mapOrigins p s).file.origin.span] = [x.file.origin.span].map φ :=
    congrArg (fun a => [a]) (x.file.span_mapOrigins fuses.span _)
  rw [Include.mapOrigins, hspans]
  simp only [Include.mapOrigins, fuses.here h, IncludeFile.mapOrigins_fuse fuses (fuses.below h _ _)]

theorem Element.spans_mapListOrigins (s : σ) (spans : List Span) (i : Nat) (xs : List Element) :
    (Element.mapListOrigins p s spans i xs).map (·.origin.span) =
      (xs.map (·.origin.span)).map φ := by
  induction xs generalizing i with
  | nil => rw [Element.mapListOrigins]; rfl
  | cons x xs ih =>
    rw [Element.mapListOrigins]
    exact congrArg₂ List.cons (x.span_mapOrigins fuses.span _) (ih (i + 1))

mutual

theorem Relation.mapOrigins_fuse {s : σ} {t : τ} {u : υ} (h : R s t u) :
    ∀ x : Relation, (x.mapOrigins p s).mapOrigins q t = x.mapOrigins r u
  | ⟨kind, origin, left, right⟩ => by
    have hspans (s s' : σ) : (left.mapOrigins p s).origin.span :: (right.mapOrigins p s').spans =
        (left.origin.span :: right.spans).map φ :=
      congrArg₂ List.cons (left.span_mapOrigins fuses.span s) (right.spans_mapOrigins fuses.span s')
    simp only [Relation.mapOrigins]
    rw [hspans, fuses.here h, left.mapOrigins_fuse fuses (fuses.below h _ _),
      RightSide.mapOrigins_fuse (fuses.below h _ _) right]

theorem RightSide.mapOrigins_fuse {s : σ} {t : τ} {u : υ} (h : R s t u) :
    ∀ x : RightSide, (x.mapOrigins p s).mapOrigins q t = x.mapOrigins r u
  | .expression x => by
    simp only [RightSide.mapOrigins, x.mapOrigins_fuse fuses h]
  | .emptyBlock => by
    simp only [RightSide.mapOrigins]
  | .block body => by
    simp only [RightSide.mapOrigins, BlockBody.mapOrigins_fuse h body]

theorem BlockBody.mapOrigins_fuse {s : σ} {t : τ} {u : υ} (h : R s t u) :
    ∀ x : BlockBody, (x.mapOrigins p s).mapOrigins q t = x.mapOrigins r u
  | ⟨origin, first, rest, trailingComma⟩ => by
    have hspans (s' : σ) (spans : List Span) :
        (first.mapOrigins p s' :: Element.mapListOrigins p s spans 1 rest).map (·.origin.span) =
          ((first :: rest).map (·.origin.span)).map φ :=
      congrArg₂ List.cons (first.span_mapOrigins fuses.span _)
        (Element.spans_mapListOrigins fuses _ _ _ _)
    simp only [BlockBody.mapOrigins]
    rw [hspans, fuses.here h, Element.mapOrigins_fuse (fuses.below h _ _) first,
      Element.mapListOrigins_fuse h _ 1 rest]

theorem Element.mapOrigins_fuse {s : σ} {t : τ} {u : υ} (h : R s t u) :
    ∀ x : Element, (x.mapOrigins p s).mapOrigins q t = x.mapOrigins r u
  | .expression x => by
    simp only [Element.mapOrigins, x.mapOrigins_fuse fuses h]
  | .inclusion x => by
    simp only [Element.mapOrigins, x.mapOrigins_fuse fuses h]
  | .relation x => by
    simp only [Element.mapOrigins, Relation.mapOrigins_fuse h x]

theorem Element.mapListOrigins_fuse {s : σ} {t : τ} {u : υ} (h : R s t u) (spans : List Span) :
    ∀ (i : Nat) (xs : List Element),
      Element.mapListOrigins q t (spans.map φ) i (Element.mapListOrigins p s spans i xs) =
        Element.mapListOrigins r u spans i xs
  | i, [] => by simp only [Element.mapListOrigins]
  | i, x :: xs => by
    simp only [Element.mapListOrigins]
    rw [Element.mapOrigins_fuse (fuses.below h spans i) x,
      Element.mapListOrigins_fuse h spans (i + 1) xs]

end

theorem FunctionBlock.mapOrigins_fuse (h : R s t u) (x : FunctionBlock) :
    (x.mapOrigins p s).mapOrigins q t = x.mapOrigins r u := by
  cases x with
  | inclusion x => exact congrArg FunctionBlock.inclusion (x.mapOrigins_fuse fuses h)
  | relation x => exact congrArg FunctionBlock.relation (x.mapOrigins_fuse fuses h)

theorem BlockStatement.mapOrigins_fuse (h : R s t u) (x : BlockStatement) :
    (x.mapOrigins p s).mapOrigins q t = x.mapOrigins r u := by
  have hspans : [(x.mapOrigins p s).block.origin.span] = [x.block.origin.span].map φ :=
    congrArg (fun a => [a]) (x.block.span_mapOrigins fuses.span _)
  rw [BlockStatement.mapOrigins, hspans]
  simp only [BlockStatement.mapOrigins, fuses.here h,
    FunctionBlock.mapOrigins_fuse fuses (fuses.below h _ _)]

/-- Two passes over a statement fuse. -/
theorem Statement.mapOrigins_fuse (h : R s t u) (x : Statement) :
    (x.mapOrigins p s).mapOrigins q t = x.mapOrigins r u := by
  cases x with
  | block x => exact congrArg Statement.block (x.mapOrigins_fuse fuses h)
  | dashComment x =>
    exact congrArg (fun o => Statement.dashComment ⟨o, x.text⟩) (fuses.here h [] x.origin)
  | empty x => exact congrArg (fun o => Statement.empty ⟨o⟩) (fuses.here h [] x.origin)
  | error x =>
    exact congrArg (fun o => Statement.error ⟨o, x.message, x.text⟩) (fuses.here h [] x.origin)

/-- Two passes over a document fuse. -/
theorem Document.mapOrigins_fuse (h : R s t u) (x : Document) :
    (x.mapOrigins p s).mapOrigins q t = x.mapOrigins r u := by
  have hspans : (x.mapOrigins p s).statements.map (·.origin.span) =
      (x.statements.map (·.origin.span)).map φ := by
    apply List.ext_getElem (by simp [Document.mapOrigins])
    intro i h₁ h₂
    simp [Document.mapOrigins, Statement.span_mapOrigins fuses.span]
  rw [Document.mapOrigins, hspans]
  refine congrArg₂ Document.mk (fuses.here h _ _) (List.ext_getElem (by simp [mapOrigins]) ?_)
  intro i h₁ h₂
  simp only [Document.mapOrigins, List.getElem_mapIdx]
  exact Statement.mapOrigins_fuse fuses (fuses.below h _ _) _

end

end

/-! ### Canonical text -/

section
variable {σ : Type} (p : OriginMap σ) (s : σ)

theorem StringValue.canonical_mapOrigins (x : StringValue) :
    (x.mapOrigins p s).canonical = x.canonical := by
  cases x <;> rfl

theorem IncludeFile.canonical_mapOrigins (x : IncludeFile) :
    (x.mapOrigins p s).canonical = x.canonical := by
  cases x <;> rfl

theorem PointerTerm.canonical_mapOrigins (x : PointerTerm) :
    (x.mapOrigins p s).canonical = x.canonical := by
  cases x <;> rfl

theorem PointerTerm.canonical_mapListOrigins (spans : List Span) (i : Nat)
    (xs : List PointerTerm) :
    (mapListOrigins p s spans i xs).flatMap (fun y => ' ' :: y.canonical) =
      xs.flatMap fun y => ' ' :: y.canonical := by
  induction xs generalizing i with
  | nil => rfl
  | cons x xs ih =>
    rw [mapListOrigins, List.flatMap_cons, List.flatMap_cons, ih, canonical_mapOrigins]

theorem PointerExpression.canonical_mapOrigins (x : PointerExpression) :
    (x.mapOrigins p s).canonical = x.canonical := by
  simp only [PointerExpression.mapOrigins, PointerExpression.canonical,
    PointerTerm.canonical_mapOrigins, PointerTerm.canonical_mapListOrigins]

theorem PointerId.canonical_mapOrigins (x : PointerId) :
    (x.mapOrigins p s).canonical = x.canonical := by
  cases x with
  | number x => rfl
  | expression x => exact x.canonical_mapOrigins p s

theorem Pointer.canonical_mapOrigins (x : Pointer) :
    (x.mapOrigins p s).canonical = x.canonical :=
  congrArg ('@' :: ·) (x.id.canonical_mapOrigins p _)

theorem PointerRef.canonical_mapOrigins (x : PointerRef) :
    (x.mapOrigins p s).canonical = x.canonical :=
  congrArg ('@' :: ·) (x.id.canonical_mapOrigins p _)

theorem Fycoide.canonical_mapOrigins (x : Fycoide) :
    (x.mapOrigins p s).canonical = x.canonical :=
  congrArg (fun t => '#' :: '(' :: t ++ [')']) (x.name.canonical_mapOrigins p _)

theorem TypeDesc.canonical_mapOrigins (x : TypeDesc) :
    (x.mapOrigins p s).canonical = x.canonical :=
  congrArg (fun t => '\x27' :: t ++ ['\x27']) (x.description.canonical_mapOrigins p _)

mutual

theorem GacStem.canonical_mapOrigins (s : σ) :
    ∀ x : GacStem, (x.mapOrigins p s).canonical = x.canonical
  | .fycoide x => by
    simp only [GacStem.mapOrigins, GacStem.canonical, x.canonical_mapOrigins]
  | .pointerRef x => by
    simp only [GacStem.mapOrigins, GacStem.canonical, x.canonical_mapOrigins]
  | .operator x => by
    simp only [GacStem.mapOrigins, GacStem.canonical]
    rfl
  | .identifier x => by
    simp only [GacStem.mapOrigins, GacStem.canonical]
    rfl
  | .front x => by
    simp only [GacStem.mapOrigins, GacStem.canonical]
    rfl
  | .ending x => by
    simp only [GacStem.mapOrigins, GacStem.canonical]
    rfl
  | .synonym x => by
    simp only [GacStem.mapOrigins, GacStem.canonical]
    rfl
  | .nested x => by
    simp only [GacStem.mapOrigins, GacStem.canonical, GacNested.canonical_mapOrigins s x]

theorem GacNested.canonical_mapOrigins (s : σ) :
    ∀ x : GacNested, (x.mapOrigins p s).canonical = x.canonical
  | ⟨origin, content⟩ => by
    simp only [GacNested.mapOrigins, GacNested.canonical,
      GacString.canonical_mapOrigins _ content]

theorem GacString.canonical_mapOrigins (s : σ) :
    ∀ x : GacString, (x.mapOrigins p s).canonical = x.canonical
  | ⟨origin, first, rest⟩ => by
    simp only [GacString.mapOrigins, GacString.canonical, GacStem.canonical_mapOrigins _ first,
      GacStem.canonicalRest_mapListOrigins s _ _ rest]

theorem GacStem.canonicalRest_mapListOrigins (s : σ) (spans : List Span) :
    ∀ (i : Nat) (xs : List GacStem),
      GacStem.canonicalRest (GacStem.mapListOrigins p s spans i xs) = GacStem.canonicalRest xs
  | i, [] => by simp only [GacStem.mapListOrigins]
  | i, x :: xs => by
    simp only [GacStem.mapListOrigins, GacStem.canonicalRest, GacStem.canonical_mapOrigins _ x,
      GacStem.canonicalRest_mapListOrigins s spans (i + 1) xs]

end

theorem Pointer.canonicalOption_mapOrigins (x : Option Pointer) :
    canonicalOption (x.map (·.mapOrigins p s)) = canonicalOption x := by
  cases x with
  | none => rfl
  | some x => exact x.canonical_mapOrigins p s

theorem Expression.canonical_mapOrigins (x : Expression) :
    (x.mapOrigins p s).canonical = x.canonical := by
  cases x with
  | typeDesc x => exact x.canonical_mapOrigins p s
  | protoGacWord x =>
    simp only [Expression.mapOrigins, ProtoGacWord.mapOrigins, Expression.canonical,
      ProtoGacWord.canonical, GacString.canonical_mapOrigins, Pointer.canonicalOption_mapOrigins]
  | stdGacWord x =>
    simp only [Expression.mapOrigins, StdGacWord.mapOrigins, Expression.canonical,
      StdGacWord.canonical, GacString.canonical_mapOrigins, Pointer.canonicalOption_mapOrigins]
  | fycoide x => exact x.canonical_mapOrigins p s
  | pointerRef x => exact x.canonical_mapOrigins p s

theorem Include.canonical_mapOrigins (x : Include) :
    (x.mapOrigins p s).canonical = x.canonical :=
  congrArg (fun t => '#' :: '[' :: t ++ [']']) (x.file.canonical_mapOrigins p _)

mutual

theorem Relation.canonical_mapOrigins (s : σ) :
    ∀ x : Relation, (x.mapOrigins p s).canonical = x.canonical
  | ⟨kind, origin, left, right⟩ => by
    simp only [Relation.mapOrigins, Relation.canonical, left.canonical_mapOrigins,
      RightSide.canonical_mapOrigins _ right]

theorem RightSide.canonical_mapOrigins (s : σ) :
    ∀ x : RightSide, (x.mapOrigins p s).canonical = x.canonical
  | .expression x => by
    simp only [RightSide.mapOrigins, RightSide.canonical, x.canonical_mapOrigins]
  | .emptyBlock => by
    simp only [RightSide.mapOrigins]
  | .block body => by
    simp only [RightSide.mapOrigins, RightSide.canonical, BlockBody.canonical_mapOrigins s body]

theorem BlockBody.canonical_mapOrigins (s : σ) :
    ∀ x : BlockBody, (x.mapOrigins p s).canonical = x.canonical
  | ⟨origin, first, rest, trailingComma⟩ => by
    simp only [BlockBody.mapOrigins, BlockBody.canonical, Element.canonical_mapOrigins _ first,
      Element.canonicalRest_mapListOrigins s _ _ rest]

theorem Element.canonical_mapOrigins (s : σ) :
    ∀ x : Element, (x.mapOrigins p s).canonical = x.canonical
  | .expression x => by
    simp only [Element.mapOrigins, Element.canonical, x.canonical_mapOrigins]
  | .inclusion x => by
    simp only [Element.mapOrigins, Element.canonical, x.canonical_mapOrigins]
  | .relation x => by
    simp only [Element.mapOrigins, Element.canonical, Relation.canonical_mapOrigins s x]

theorem Element.canonicalRest_mapListOrigins (s : σ) (spans : List Span) :
    ∀ (i : Nat) (xs : List Element),
      Element.canonicalRest (Element.mapListOrigins p s spans i xs) = Element.canonicalRest xs
  | i, [] => by simp only [Element.mapListOrigins]
  | i, x :: xs => by
    simp only [Element.mapListOrigins, Element.canonicalRest, Element.canonical_mapOrigins _ x,
      Element.canonicalRest_mapListOrigins s spans (i + 1) xs]

end

theorem FunctionBlock.canonical_mapOrigins (x : FunctionBlock) :
    (x.mapOrigins p s).canonical = x.canonical := by
  cases x with
  | inclusion x => exact x.canonical_mapOrigins p s
  | relation x => exact x.canonical_mapOrigins p s

/-- A pass leaves the canonical text of a statement as it is. -/
theorem Statement.canonical_mapOrigins (x : Statement) :
    (x.mapOrigins p s).canonical = x.canonical := by
  cases x with
  | block x => exact congrArg (· ++ [';']) (x.block.canonical_mapOrigins p _)
  | dashComment x => rfl
  | empty x => rfl
  | error x => rfl

theorem Document.canonical_mapOrigins (d : Document) :
    (d.mapOrigins p s).canonical = d.canonical := by
  have texts : (d.mapOrigins p s).statements.map (·.canonical) = d.statements.map (·.canonical) := by
    simp only [Document.mapOrigins]
    apply List.ext_getElem (by simp)
    intro i h₁ h₂
    simp [Statement.canonical_mapOrigins]
  rw [Document.canonical, texts, Document.canonical]

end

end RelationNotation
