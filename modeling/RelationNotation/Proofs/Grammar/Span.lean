import Mathlib.Data.List.Forall2
import RelationNotation.Proofs.Grammar.Production
import RelationNotation.Proofs.Parse.Account
import RelationNotation.Proofs.Tree.Node

/-!
Trees over tokens. A node stands over the tokens that spell it, and its children, in their order,
over parts of these. So where tokens stand in sequence, nodes do: `Node.Over.neat`.
-/

namespace RelationNotation

open Token

/-- Parts of a list of tokens, in order, each of which is related to one of some things. -/
def InParts {α : Type} (R : α → List Token → Prop) (xs : List α) (ts : List Token) : Prop :=
  ∃ parts, List.Forall₂ R xs parts ∧ parts.flatten.Sublist ts

/-- A node stands over tokens, and its children over parts of them. -/
inductive Node.Over : Node → List Token → Prop where
  | intro {n : Node} {ts : List Token} (parts : List (List Token)) (nonempty : ts ≠ [])
      (origin : n.origin = originOver ts)
      (count : (n.children.map (·.2)).length = parts.length)
      (children : ∀ {m us}, (m, us) ∈ (n.children.map (·.2)).zip parts → Over m us)
      (within : parts.flatten.Sublist ts) : Over n ts

namespace InParts
variable {α : Type} {R : α → List Token → Prop} {x : α} {xs : List α} {ts us vs : List Token}

theorem nil (R : α → List Token → Prop) (ts : List Token) : InParts R [] ts :=
  ⟨[], .nil, List.nil_sublist ts⟩

theorem cons (hx : R x us) (hxs : InParts R xs vs) (h : (us ++ vs).Sublist ts) :
    InParts R (x :: xs) ts := by
  obtain ⟨parts, hparts, hsub⟩ := hxs
  exact ⟨us :: parts, .cons hx hparts, ((List.Sublist.refl us).append hsub).trans h⟩

theorem single (hx : R x us) (h : us.Sublist ts) : InParts R [x] ts :=
  cons hx (nil R []) (by rwa [List.append_nil])

theorem sublist (h : InParts R xs us) (hsub : us.Sublist ts) : InParts R xs ts := by
  obtain ⟨parts, hparts, hwithin⟩ := h
  exact ⟨parts, hparts, hwithin.trans hsub⟩

theorem map {β : Type} {S : β → List Token → Prop} {f : α → β} (h : InParts R xs ts)
    (hf : ∀ x us, R x us → S (f x) us) : InParts S (xs.map f) ts := by
  obtain ⟨parts, hparts, hwithin⟩ := h
  exact ⟨parts, List.forall₂_map_left_iff.2 (hparts.imp hf), hwithin⟩

end InParts

namespace Node
variable {n : Node} {ts : List Token}

theorem over_of_parts (nonempty : ts ≠ []) (origin : n.origin = originOver ts)
    (children : InParts Over (n.children.map (·.2)) ts) : n.Over ts := by
  obtain ⟨parts, hparts, within⟩ := children
  obtain ⟨count, hover⟩ := List.forall₂_iff_zip.1 hparts
  exact .intro parts nonempty origin count hover within

theorem Over.parts (h : n.Over ts) : InParts Over (n.children.map (·.2)) ts := by
  cases h with
  | intro parts nonempty origin count children within =>
    exact ⟨parts, List.forall₂_iff_zip.2 ⟨count, children⟩, within⟩

theorem Over.ne_nil (h : n.Over ts) : ts ≠ [] := by
  cases h; assumption

theorem Over.origin_eq (h : n.Over ts) : n.origin = originOver ts := by
  cases h; assumption

theorem over_leaf (hn : n.children = []) (nonempty : ts ≠ []) (origin : n.origin = originOver ts) :
    n.Over ts :=
  over_of_parts nonempty origin (by rw [hn]; exact .nil _ _)

theorem over_single {m : Node} {us : List Token} {field : String} (hn : n.children = [(field, m)])
    (origin : n.origin = originOver ts) (hm : m.Over us) (hsub : us.Sublist ts) : n.Over ts := by
  refine over_of_parts (fun hts => hm.ne_nil ?_) origin (by rw [hn]; exact .single hm hsub)
  exact List.sublist_nil.1 (hts ▸ hsub)

theorem over_row {α : Type} {toNode : α → Node} {field : String} {xs : List α}
    (hn : n.children = xs.map fun x => (field, toNode x)) (nonempty : ts ≠ [])
    (origin : n.origin = originOver ts) (row : InParts (fun x us => (toNode x).Over us) xs ts) :
    n.Over ts := by
  refine over_of_parts nonempty origin ?_
  rw [hn, List.map_map]
  exact row.map fun _ _ h => h

end Node

/-! ### What spells a part of a tree -/

theorem StringValue.SpelledBy.over {x : StringValue} {t : Token} (h : x.SpelledBy t) :
    x.toNode.Over [t] := by
  cases h with
  | identifier => exact Node.over_leaf rfl (by simp) rfl
  | unicodeString => exact Node.over_leaf rfl (by simp) rfl

theorem TypeDesc.SpelledBy.over {x : TypeDesc} {ts : List Token} (h : x.SpelledBy ts) :
    (Node.typeDesc x).Over ts := by
  cases h with
  | intro opener string closer => exact Node.over_single rfl rfl string.over (by simp)

theorem Fycoide.SpelledBy.over {x : Fycoide} {ts : List Token} (h : x.SpelledBy ts) :
    (Node.fycoide x).Over ts := by
  cases h with
  | intro opener string closer => exact Node.over_single rfl rfl string.over (by simp)

theorem Token.over_toPointerTerm (t : Token) : t.toPointerTerm.toNode.Over [t] := by
  unfold toPointerTerm
  split
  · exact Node.over_leaf rfl (by simp) rfl
  · split
    · exact Node.over_leaf rfl (by simp) rfl
    · exact Node.over_leaf rfl (by simp) rfl

theorem PointerExpression.SpelledBy.over {x : PointerExpression} {ts : List Token}
    (h : x.SpelledBy ts) : (Node.pointerExpression x).Over ts := by
  cases h with
  | @intro o t c ts opener terms closer =>
    have row (us : List Token) :
        InParts (fun y us => Node.Over y.toNode us) (us.map toPointerTerm) us := by
      induction us with
      | nil => exact .nil _ _
      | cons u us ih => exact .cons u.over_toPointerTerm ih (List.Sublist.refl _)
    refine Node.over_row rfl (by simp) rfl ((row (t :: ts)).sublist ?_)
    exact (List.sublist_append_left _ [c]).cons o

theorem PointerId.SpelledBy.over {x : PointerId} {ts : List Token} (h : x.SpelledBy ts) :
    x.toNode.Over ts := by
  cases h with
  | number => exact Node.over_leaf rfl (by simp) rfl
  | expression spelled => exact spelled.over

theorem Pointer.SpelledBy.over {x : Pointer} {ts : List Token} (h : x.SpelledBy ts) :
    (Node.pointer x).Over ts := by
  cases h with
  | intro sign id => exact Node.over_single rfl rfl id.over (List.sublist_cons_self _ _)

theorem PointerRef.SpelledBy.over {x : PointerRef} {ts : List Token} (h : x.SpelledBy ts) :
    (Node.pointerRef x).Over ts := by
  cases h with
  | intro sign id => exact Node.over_single rfl rfl id.over (List.sublist_cons_self _ _)

theorem Pointer.OptionSpelledBy.over {x : Option Pointer} {ts : List Token}
    (h : Pointer.OptionSpelledBy x ts) :
    InParts (fun y us => (Node.pointer y).Over us) x.toList ts := by
  cases h with
  | none => exact .nil _ _
  | some spelled => exact .single spelled.over (List.Sublist.refl _)

/-! ### Gac strings -/

section
variable {bracketed : GacString → List Token → Token → Prop}
  (inner : ∀ {x ts c}, bracketed x ts c → (Node.gacString x).Over ts)
include inner

theorem GacStem.SpelledWith.over {next : Token} {x : GacStem} {ts : List Token}
    (h : x.SpelledWith bracketed next ts) : x.toNode.Over ts := by
  have name (t : Token) : (Node.identifier t.toIdentifier).Over [t] :=
    Node.over_leaf rfl (by simp) rfl
  cases h with
  | fycoide spelled => exact spelled.over
  | pointerRef spelled => exact spelled.over
  | identifier kind longest => exact name _
  | front kind mark touches => exact Node.over_single rfl rfl (name _) (by simp)
  | ending mark kind touches => exact Node.over_single rfl rfl (name _) (by simp)
  | sign mark longest => exact Node.over_leaf rfl (by simp) rfl
  | synonym mark kind => exact Node.over_single rfl rfl (name _) (by simp)
  | @nested o c x ts opener content closer =>
    exact Node.over_single rfl rfl (inner content) ((List.sublist_append_left ts [c]).cons o)
  | operator kind => exact Node.over_leaf rfl (by simp) rfl

theorem GacStem.RowSpelledWith.over {next : Token} {xs : List GacStem} {ts : List Token}
    (h : GacStem.RowSpelledWith bracketed next xs ts) :
    InParts (fun x us => Node.Over x.toNode us) xs ts := by
  induction h with
  | last stem => exact .single (stem.over inner) (List.Sublist.refl _)
  | cons stem stems ih => exact .cons (stem.over inner) ih (List.Sublist.refl _)

theorem GacString.SpelledWith.over {x : GacString} {ts : List Token} {next : Token}
    (h : x.SpelledWith bracketed ts next) : (Node.gacString x).Over ts := by
  cases h with
  | intro stems => exact Node.over_row rfl stems.ne_nil rfl (stems.over inner)

end

theorem GacString.SpelledIn.over {d : Nat} {x : GacString} {ts : List Token} {next : Token}
    (h : x.SpelledIn d ts next) : (Node.gacString x).Over ts := by
  induction d generalizing x ts next with
  | zero => exact h.elim
  | succ d ih => exact GacString.SpelledWith.over ih h

/-! ### Expressions and includes -/

/-- The content of a gac word and the pointer behind it. -/
theorem gacWord_over {o c : Token} {x : GacString} {pointer : Option Pointer}
    {ts us : List Token} (content : (Node.gacString x).Over ts)
    (target : Pointer.OptionSpelledBy pointer us) :
    InParts Node.Over (.gacString x :: pointer.toList.map .pointer) (o :: ts ++ c :: us) := by
  refine .cons content (target.over.map fun _ _ h => h) ?_
  exact ((List.Sublist.refl ts).append (List.sublist_cons_self c us)).cons o

theorem Expression.SpelledBy.over {d : Nat} {x : Expression} {ts : List Token}
    (h : x.SpelledBy d ts) : x.toNode.Over ts := by
  cases h with
  | typeDesc spelled => exact spelled.over
  | protoGacWord opener content closer target =>
    refine Node.over_of_parts (by simp) rfl ?_
    simpa [Node.children, Expression.toNode, Function.comp_def] using gacWord_over content.over target
  | stdGacWord opener content closer target =>
    refine Node.over_of_parts (by simp) rfl ?_
    simpa [Node.children, Expression.toNode, Function.comp_def] using gacWord_over content.over target
  | fycoide spelled => exact spelled.over
  | pointerRef spelled => exact spelled.over

theorem IncludeFile.SpelledBy.over {x : IncludeFile} {t : Token} (h : x.SpelledBy t) :
    x.toNode.Over [t] := by
  cases h with
  | identifier => exact Node.over_leaf rfl (by simp) rfl
  | unicodeString => exact Node.over_leaf rfl (by simp) rfl
  | quotedString => exact Node.over_leaf rfl (by simp) rfl

theorem Include.SpelledBy.over {x : Include} {ts : List Token} (h : x.SpelledBy ts) :
    (Node.inclusion x).Over ts := by
  cases h with
  | intro opener file closer => exact Node.over_single rfl rfl file.over (by simp)

/-! ### Relations -/

/-- Tokens that take a character at least and do not reach into one another. -/
structure Token.StandApart (ts : List Token) : Prop where
  filled : ∀ t ∈ ts, t.span.start.offset < t.span.stop.offset
  apart : ts.Pairwise fun t u => t.span.stop.offset ≤ u.span.start.offset

namespace Token.StandApart
variable {ts us vs : List Token}

theorem sublist (h : StandApart ts) (hsub : us.Sublist ts) : StandApart us :=
  ⟨fun t ht => h.filled t (hsub.subset ht), h.apart.sublist hsub⟩

theorem inSequence (h : StandApart ts) : InSequence Token.span ts :=
  ⟨fun t ht => Int.le_of_lt (h.filled t ht), h.apart⟩

/-- What stands over the first tokens ends before what stands over the rest begins. -/
theorem stop_le_start (h : StandApart (ts ++ us)) (hts : ts ≠ []) (hus : us ≠ []) :
    (originOver ts).span.stop.offset ≤ (originOver us).span.start.offset := by
  obtain ⟨-, t, ht, hstop⟩ := originOver_ends hts
  obtain ⟨⟨u, hu, hstart⟩, -⟩ := originOver_ends hus
  rw [hstop, hstart]
  exact (List.pairwise_append.1 h.apart).2.2 t ht u hu

theorem start_lt_stop (h : StandApart ts) (hts : ts ≠ []) :
    (originOver ts).span.start.offset < (originOver ts).span.stop.offset := by
  obtain ⟨⟨t, ht, hstart⟩, -⟩ := originOver_ends hts
  have hcontains := (Span.contains_iff.1 (contains_originOver h.inSequence ht)).2
  have hfilled := h.filled t ht
  rw [hstart]
  omega

/-- The span that covers the first and the last of some tokens is the span over all. -/
theorem cover_originOver (h : StandApart (ts ++ us ++ vs)) (hts : ts ≠ []) (hvs : vs ≠ []) :
    (originOver ts).span.cover (originOver vs).span = (originOver (ts ++ us ++ vs)).span := by
  have ends : StandApart (ts ++ vs) := by
    refine h.sublist ?_
    exact (List.sublist_append_left ts us).append (List.Sublist.refl vs)
  have first := (ends.sublist (List.sublist_append_left ts vs)).start_lt_stop hts
  have last := (ends.sublist (List.sublist_append_right ts vs)).start_lt_stop hvs
  have between := ends.stop_le_start hts hvs
  have hstart : (originOver (ts ++ us ++ vs)).span.start = (originOver ts).span.start := by
    cases ts with
    | nil => exact absurd rfl hts
    | cons t ts => rfl
  have hstop : (originOver (ts ++ us ++ vs)).span.stop = (originOver vs).span.stop := by
    obtain ⟨ws, v, rfl⟩ := vs.eq_nil_or_concat.resolve_left hvs
    rw [List.concat_eq_append, ← List.append_assoc]
    simp [originOver, spanTo]
  rw [Span.cover, if_pos (by omega), if_neg (by omega), ← hstart, ← hstop]

end Token.StandApart

theorem Expression.SpelledBy.origin_eq {d : Nat} {x : Expression} {ts : List Token}
    (h : x.SpelledBy d ts) : x.origin = originOver ts := by
  rw [← x.origin_toNode, h.over.origin_eq]

section
variable {braced : RightSide → List Token → Prop} {d : Nat}
  (inner : ∀ {x ts}, braced x ts → StandApart ts → InParts Node.Over (x.children.map (·.2)) ts)
include inner

theorem Relation.SpelledWith.over {x : Relation} {ts : List Token} (h : x.SpelledWith braced d ts)
    (apart : StandApart ts) : (Node.relation x).Over ts := by
  cases h with
  | @pure o kind x y ts us left operator right =>
    rw [List.append_cons] at apart ⊢
    refine Node.over_of_parts (by simp [left.ne_nil]) ?_ ?_
    · have cover := apart.cover_originOver left.ne_nil right.ne_nil
      rw [← left.origin_eq, ← right.origin_eq] at cover
      exact congrArg (fun span => (⟨span, []⟩ : Origin)) cover
    · refine .cons left.over (.single right.over (List.Sublist.refl us)) ?_
      exact (List.sublist_append_left ts [o]).append (List.Sublist.refl us)
  | @block o b c kind x y ts us left operator opener content closer =>
    have split : ts ++ o :: b :: (us ++ [c]) = ts ++ (o :: b :: us) ++ [c] := by simp
    have within : us.Sublist (o :: b :: (us ++ [c])) :=
      ((List.sublist_append_left us [c]).cons b).cons o
    rw [split] at apart ⊢
    refine Node.over_of_parts (by simp) ?_ ?_
    · have cover := apart.cover_originOver left.ne_nil (List.cons_ne_nil c [])
      rw [← left.origin_eq] at cover
      exact congrArg (fun span => (⟨span, []⟩ : Origin)) cover
    · rw [← split] at apart ⊢
      have inside := apart.sublist (within.trans (List.sublist_append_right ts _))
      exact .cons left.over (inner content inside) ((List.Sublist.refl ts).append within)

theorem Element.SpelledWith.over {x : Element} {ts : List Token} (h : x.SpelledWith braced d ts)
    (apart : StandApart ts) : x.toNode.Over ts := by
  cases h with
  | expression spelled => exact spelled.over
  | inclusion spelled => exact spelled.over
  | relation spelled => exact spelled.over inner apart

theorem Element.RowSpelledWith.over {xs : List Element} {trailingComma : Bool} {ts : List Token}
    (h : Element.RowSpelledWith braced d xs trailingComma ts) (apart : StandApart ts) :
    InParts (fun x us => Node.Over x.toNode us) xs ts := by
  induction h with
  | last element => exact .single (element.over inner apart) (List.Sublist.refl _)
  | @trailing c x ts element comma =>
    have within := List.sublist_append_left ts [c]
    exact .single (element.over inner (apart.sublist within)) within
  | @cons c x xs trailingComma ts us element comma elements ih =>
    have first := List.sublist_append_left ts (c :: us)
    have rest := (List.sublist_cons_self c us).trans (List.sublist_append_right ts _)
    refine .cons (element.over inner (apart.sublist first)) (ih (apart.sublist rest)) ?_
    exact (List.Sublist.refl ts).append (List.sublist_cons_self c us)

theorem BlockBody.SpelledWith.over {x : BlockBody} {ts : List Token}
    (h : x.SpelledWith braced d ts) (apart : StandApart ts) : (Node.blockBody x).Over ts := by
  cases h with
  | intro elements => exact Node.over_row rfl elements.ne_nil rfl (elements.over inner apart)

theorem RightSide.BracesSpelledWith.over {x : RightSide} {ts : List Token}
    (h : x.BracesSpelledWith braced d ts) (apart : StandApart ts) :
    InParts Node.Over (x.children.map (·.2)) ts := by
  cases h with
  | empty => exact .nil _ _
  | body spelled => exact .single (spelled.over inner apart) (List.Sublist.refl ts)

end

theorem RightSide.SpelledIn.over {d : Nat} {x : RightSide} {ts : List Token}
    (h : x.SpelledIn d ts) (apart : StandApart ts) :
    InParts Node.Over (x.children.map (·.2)) ts := by
  induction d generalizing x ts with
  | zero => exact h.elim
  | succ d ih => exact RightSide.BracesSpelledWith.over ih h apart

theorem FunctionBlock.SpelledBy.over {d : Nat} {x : FunctionBlock} {ts : List Token}
    (h : x.SpelledBy d ts) (apart : StandApart ts) : x.toNode.Over ts := by
  cases h with
  | inclusion spelled => exact spelled.over
  | relation spelled => exact spelled.over RightSide.SpelledIn.over apart

theorem Statement.SpelledBy.over {d : Nat} {x : Statement} {ts : List Token}
    (h : x.SpelledBy d ts) (apart : StandApart ts) : x.toNode.Over ts := by
  cases h with
  | empty kind => exact Node.over_leaf rfl (by simp) rfl
  | dashComment kind => exact Node.over_leaf rfl (by simp) rfl
  | @block s x ts spelled semicolon =>
    have within := List.sublist_append_left ts [s]
    exact Node.over_single rfl rfl (spelled.over (apart.sublist within)) within

/-! ### Nodes stand where their tokens stand -/

theorem Token.StandApart.contains_of_sublist {ts us : List Token} (h : StandApart ts)
    (hus : us ≠ []) (hsub : us.Sublist ts) : (originOver ts).span.contains (originOver us).span := by
  obtain ⟨⟨t, ht, hstart⟩, u, hu, hstop⟩ := originOver_ends hus
  have first := Span.contains_iff.1 (contains_originOver h.inSequence (hsub.subset ht))
  have last := Span.contains_iff.1 (contains_originOver h.inSequence (hsub.subset hu))
  rw [Span.contains_iff, hstart, hstop]
  exact ⟨first.1, last.2⟩

namespace Node
variable {n : Node} {ts : List Token}

theorem Over.span_eq (h : n.Over ts) : n.span = (originOver ts).span :=
  congrArg Origin.span h.origin_eq

/-- Nodes over parts of tokens that stand apart stand apart themselves. -/
theorem pairwise_of_parts {ns : List Node} {parts : List (List Token)}
    (h : List.Forall₂ Over ns parts) (apart : StandApart parts.flatten) :
    ns.Pairwise fun n m => n.span.stop.offset ≤ m.span.start.offset := by
  induction h with
  | nil => exact .nil
  | @cons n us ns parts hn hns ih =>
    refine List.pairwise_cons.2 ⟨fun m hm => ?_, ih (apart.sublist (List.sublist_append_right us _))⟩
    obtain ⟨i, hi, rfl⟩ := List.mem_iff_getElem.1 hm
    have hi' : i < parts.length := hns.length_eq ▸ hi
    have hmem := List.getElem_mem hi'
    have hover : ns[i].Over parts[i] := hns.get hi hi'
    have pair : StandApart (us ++ parts[i]) :=
      apart.sublist ((List.Sublist.refl us).append (List.sublist_flatten_of_mem hmem))
    rw [hn.span_eq, hover.span_eq]
    exact pair.stop_le_start hn.ne_nil hover.ne_nil

/-- What a node over tokens is like: it is orderly, its children are not empty, and its origin is
that of some of the tokens. -/
structure StandsOver (ts : List Token) (n : Node) : Prop where
  orderly : n.Orderly
  filled : ∀ c ∈ n.children, c.2.span.start.offset < c.2.span.stop.offset
  origin : ∃ us, us ≠ [] ∧ us.Sublist ts ∧ n.origin = originOver us

theorem StandsOver.mono {us : List Token} (h : n.StandsOver us) (hsub : us.Sublist ts) :
    n.StandsOver ts where
  orderly := h.orderly
  filled := h.filled
  origin := by
    obtain ⟨vs, hvs, hvsub, origin⟩ := h.origin
    exact ⟨vs, hvs, hvsub.trans hsub, origin⟩

/-- Every child of a node over tokens stands over a part of them. -/
theorem exists_part {parts : List (List Token)}
    (count : (n.children.map (·.2)).length = parts.length) (within : parts.flatten.Sublist ts)
    {c : String × Node} (hc : c ∈ n.children) :
    ∃ us, (c.2, us) ∈ (n.children.map (·.2)).zip parts ∧ us.Sublist ts := by
  obtain ⟨i, hi, hci⟩ := List.mem_iff_getElem.1 (List.mem_map_of_mem (f := (·.2)) hc)
  have hi' : i < parts.length := count ▸ hi
  refine ⟨parts[i], ?_, (List.sublist_flatten_of_mem (List.getElem_mem hi')).trans within⟩
  rw [List.mem_iff_getElem]
  exact ⟨i, by rw [List.length_zip]; omega, by rw [List.getElem_zip, hci]⟩

theorem Over.standsOver_self (h : n.Over ts) (apart : StandApart ts) : n.StandsOver ts := by
  obtain ⟨parts, hparts, hwithin⟩ := h.parts
  obtain ⟨count, hover⟩ := List.forall₂_iff_zip.1 hparts
  have hspan := h.span_eq
  refine ⟨⟨?_, fun c hc => ?_, ?_⟩, fun c hc => ?_, ts, h.ne_nil, List.Sublist.refl ts, h.origin_eq⟩
  · rw [hspan]
    exact Int.le_of_lt (apart.start_lt_stop h.ne_nil)
  · obtain ⟨us, hus, hsub⟩ := exists_part count hwithin hc
    rw [hspan, (hover hus).span_eq]
    exact apart.contains_of_sublist (hover hus).ne_nil hsub
  · exact List.pairwise_map.1 (pairwise_of_parts hparts (apart.sublist hwithin))
  · obtain ⟨us, hus, hsub⟩ := exists_part count hwithin hc
    rw [(hover hus).span_eq]
    exact (apart.sublist hsub).start_lt_stop (hover hus).ne_nil

/-- Where tokens stand apart, every node of a tree over them stands over some of them. -/
theorem Over.standsOver (h : n.Over ts) (apart : StandApart ts) :
    ∀ m ∈ n.walk, m.StandsOver ts := by
  induction h with
  | @intro n ts parts nonempty origin count children within ih =>
    intro m hm
    rcases mem_walk_cases hm with rfl | ⟨c, hc, hm⟩
    · exact (Over.intro parts nonempty origin count children within).standsOver_self apart
    · obtain ⟨us, hus, hsub⟩ := exists_part count within hc
      exact (ih hus (apart.sublist hsub) m hm).mono hsub

end Node

end RelationNotation
