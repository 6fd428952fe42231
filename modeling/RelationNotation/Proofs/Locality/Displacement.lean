import RelationNotation.Proofs.Grammar.Production
import RelationNotation.Proofs.Token.Significant
import RelationNotation.Proofs.Tree.Pass

/-!
Text moved by whole lines. Text put before a text, up to the end of a line, moves every position by
the same number of characters and lines and leaves columns as they are; tokens, and the parts of a
tree that they spell, move along.
-/

namespace RelationNotation

open Token

/-- How far a text is moved: a number of characters and a number of lines. -/
structure Displacement where
  offset : Nat
  lines : Nat

/-- No way at all. -/
def Displacement.still : Displacement := ⟨0, 0⟩

/-- How far a line, or several, moves the text behind its newline. -/
def Displacement.behind (lines : Text) : Displacement := ⟨lines.length + 1, 1 + lines.count '\n'⟩

section
variable (d : Displacement)

def Position.displace (p : Position) : Position := ⟨p.offset + d.offset, p.line + d.lines, p.column⟩

def Span.displace (s : Span) : Span := ⟨s.start.displace d, s.stop.displace d⟩

def Token.displace (t : Token) : Token := { t with span := t.span.displace d }

def Trivia.displace (x : Trivia) : Trivia := { x with span := x.span.displace d }

/-- A node's origin moved, its trivia included. -/
def Origin.displace (o : Origin) : Origin :=
  ⟨o.span.displace d, o.trivia.map (Trivia.displace d)⟩

def Diagnostic.displace (x : Diagnostic) : Diagnostic := { x with span := x.span.displace d }

/-- A statement moved, and every node in it. -/
def Statement.displace (x : Statement) : Statement := x.mapOrigins (.each (Origin.displace d)) ()

/-! ### Positions and spans -/

@[simp] theorem Position.displace_still (p : Position) : p.displace .still = p := by
  simp [Position.displace, Displacement.still]

theorem Position.displace_next (p : Position) (c : Char) :
    (p.displace d).next c = (p.next c).displace d := by
  simp only [Position.next, Position.displace]
  split
  · simp only [Position.mk.injEq, and_true]
    omega
  · simp only [Position.mk.injEq, and_true]
    omega

theorem Position.displace_after (p : Position) (t : Text) :
    (p.displace d).after t = (p.after t).displace d := by
  induction t generalizing p with
  | nil => rfl
  | cons c t ih => rw [Position.after_cons, Position.after_cons, displace_next, ih]

/-- Behind a newline the text starts as a text of its own does, moved. -/
theorem Position.start_after_line (t : Text) :
    Position.start.after (t ++ ['\n']) = Position.start.displace (.behind t) := by
  have hline := Position.line_after .start (t ++ ['\n'])
  have hoffset := Position.offset_after .start (t ++ ['\n'])
  have hcolumn : (Position.start.after (t ++ ['\n'])).column = 1 := by
    rw [Position.after_append, Position.after_cons, Position.after_nil]
    simp [Position.next]
  generalize Position.start.after (t ++ ['\n']) = p at *
  cases p
  simp only [Position.displace, Displacement.behind, Position.start, Position.mk.injEq] at *
  simp only [List.length_append, List.length_singleton, List.count_append, List.count_singleton_self]
    at hline hoffset
  omega

theorem Span.contains_displace (s t : Span) :
    (s.displace d).contains (t.displace d) = s.contains t := by
  rw [Bool.eq_iff_iff, Span.contains_iff, Span.contains_iff]
  simp only [Span.displace, Position.displace]
  omega

theorem Span.cover_displace (s t : Span) :
    (s.displace d).cover (t.displace d) = (s.cover t).displace d := by
  have hstart : (s.displace d).start.offset ≤ (t.displace d).start.offset ↔
      s.start.offset ≤ t.start.offset := by
    simp only [Span.displace, Position.displace]
    omega
  have hstop : (s.displace d).stop.offset ≥ (t.displace d).stop.offset ↔
      s.stop.offset ≥ t.stop.offset := by
    simp only [Span.displace, Position.displace]
    omega
  simp only [Span.cover, hstart, hstop]
  split <;> split <;> rfl

/-- A moved span marks in a longer text what it marked in the text that was moved. -/
theorem Span.slice_displace {s : Span} {u t : Text} (v : Text) (hu : u.length = d.offset)
    (hstart : 0 ≤ s.start.offset) (hstop : 0 ≤ s.stop.offset) (hle : s.stop.offset ≤ t.length) :
    (s.displace d).slice (u ++ t ++ v) = s.slice t := by
  have toNat {n : Int} (h : 0 ≤ n) : (n + d.offset).toNat = u.length + n.toNat := by omega
  have short : s.stop.offset.toNat ≤ t.length := by omega
  rw [Span.slice, Span.slice, Text.slice, Text.slice]
  simp only [Span.displace, Position.displace]
  rw [toNat hstart, toNat hstop, List.append_assoc, List.take_length_add_append,
    List.drop_length_add_append, List.take_append_of_le_length short]

/-! ### Tokens -/

@[simp] theorem Token.kind_displace (t : Token) : (t.displace d).kind = t.kind := rfl

@[simp] theorem Token.displace_still (t : Token) : t.displace .still = t := by
  simp [Token.displace, Span.displace]

@[simp] theorem Diagnostic.displace_still (x : Diagnostic) : x.displace .still = x := by
  simp [Diagnostic.displace, Span.displace]

theorem Token.touches_displace (t u : Token) :
    (t.displace d).touches (u.displace d) = t.touches u := by
  rw [Bool.eq_iff_iff, touches, touches, beq_iff_eq, beq_iff_eq]
  simp only [Token.displace, Span.displace, Position.displace]
  omega

theorem Lexeme.toToken_displace (l : Lexeme) (p : Position) :
    l.toToken (p.displace d) = (l.toToken p).displace d := by
  simp only [Lexeme.toToken, Token.displace, Span.displace, Position.displace_after]

/-- A moved text is scanned as its tokens, moved. -/
theorem scanFrom_displace {m : ScanMode} {p : Position} {t : Text} (hp : 0 ≤ p.offset)
    (hd : 0 < d.offset) (ht : p.offset = 0 → ∀ c ∈ t.head?, c ≠ byteOrderMark) :
    scanFrom m (p.displace d) t = (scanFrom m p t).map (Token.displace d) := by
  fun_induction scanFrom m p t with
  | case1 m p => simp [scanFrom, Token.endOfInput, Token.displace, Span.displace]
  | case2 m p c cs l ih =>
    have hl : lexeme m.awaited ((p.displace d).offset == 0) c cs = l := by
      by_cases hc : c = byteOrderMark
      · have hp : p.offset ≠ 0 := fun h => ht h c rfl hc
        have hp' : (p.displace d).offset ≠ 0 := by simp only [Position.displace]; omega
        rw [beq_eq_false_iff_ne.2 hp']
        change _ = lexeme m.awaited (p.offset == 0) c cs
        rw [beq_eq_false_iff_ne.2 hp]
      · exact lexeme_first hc ..
    have hpos : 0 < (p.after l.text).offset := by
      have : 0 < l.text.length := Lexeme.length_lexeme_pos ..
      rw [Position.offset_after]
      omega
    rw [scanFrom, hl, List.map_cons, Lexeme.toToken_displace, Position.displace_after,
      ih (Int.le_of_lt hpos) (fun h => absurd h (by omega))]

/-! ### Trees -/

/-- The pass that moves every node. -/
abbrev Displacement.pass : OriginMap Unit := .each (Origin.displace d)

theorem spansBy_pass : d.pass.SpansBy (Span.displace d) := fun _ _ _ => rfl

theorem originOver_displace {ts : List Token} (hts : ts ≠ []) :
    (originOver ts).displace d = originOver (ts.map (Token.displace d)) := by
  obtain ⟨us, u, rfl⟩ := ts.eq_nil_or_concat.resolve_left hts
  have hlast (us : List Token) (u : Token) : (us ++ [u]).getLastD default = u := by simp
  rw [List.concat_eq_append, List.map_append, List.map_singleton, originOver, originOver, hlast,
    hlast]
  cases us <;> rfl

section
variable {d}

theorem StringValue.SpelledBy.displace {x : StringValue} {t : Token} (h : x.SpelledBy t) :
    (x.mapOrigins d.pass ()).SpelledBy (t.displace d) := by
  cases h with
  | identifier kind => exact .identifier (t := t.displace d) kind
  | unicodeString kind => exact .unicodeString (t := t.displace d) kind

theorem IncludeFile.SpelledBy.displace {x : IncludeFile} {t : Token} (h : x.SpelledBy t) :
    (x.mapOrigins d.pass ()).SpelledBy (t.displace d) := by
  cases h with
  | identifier kind => exact .identifier (t := t.displace d) kind
  | unicodeString kind => exact .unicodeString (t := t.displace d) kind
  | quotedString kind => exact .quotedString (t := t.displace d) kind

theorem TypeDesc.SpelledBy.displace {x : TypeDesc} {ts : List Token} (h : x.SpelledBy ts) :
    (x.mapOrigins d.pass ()).SpelledBy (ts.map (Token.displace d)) := by
  cases h with
  | @intro o s c x opener string closer =>
    exact .intro (o := o.displace d) (c := c.displace d) opener string.displace closer

theorem Fycoide.SpelledBy.displace {x : Fycoide} {ts : List Token} (h : x.SpelledBy ts) :
    (x.mapOrigins d.pass ()).SpelledBy (ts.map (Token.displace d)) := by
  cases h with
  | @intro o s c x opener string closer =>
    exact .intro (o := o.displace d) (c := c.displace d) opener string.displace closer

theorem Include.SpelledBy.displace {x : Include} {ts : List Token} (h : x.SpelledBy ts) :
    (x.mapOrigins d.pass ()).SpelledBy (ts.map (Token.displace d)) := by
  cases h with
  | @intro o f c x opener file closer =>
    exact .intro (o := o.displace d) (c := c.displace d) opener file.displace closer

theorem toPointerTerm_displace (t : Token) :
    t.toPointerTerm.mapOrigins d.pass () = (t.displace d).toPointerTerm := by
  unfold toPointerTerm
  rw [kind_displace]
  split
  · rfl
  · split <;> rfl

theorem map_toPointerTerm_displace (ts : List Token) :
    (ts.map toPointerTerm).map (PointerTerm.mapOrigins d.pass ()) =
      (ts.map (Token.displace d)).map toPointerTerm := by
  rw [List.map_map, List.map_map]
  exact List.map_congr_left fun t _ => toPointerTerm_displace t

theorem PointerExpression.SpelledBy.displace {x : PointerExpression} {ts : List Token}
    (h : x.SpelledBy ts) : (x.mapOrigins d.pass ()).SpelledBy (ts.map (Token.displace d)) := by
  cases h with
  | @intro o t c ts opener terms closer =>
    have kinds : ∀ u ∈ t.displace d :: ts.map (Token.displace d), u.kind ∈ TokenKind.pointerTerms := by
      rw [← List.map_cons (f := Token.displace d), List.forall_mem_map]
      exact terms
    have spelled := PointerExpression.SpelledBy.intro (o := o.displace d) (c := c.displace d) opener
      kinds closer
    change PointerExpression.SpelledBy ⟨(originOver (o :: (t :: ts ++ [c]))).displace d,
      t.toPointerTerm.mapOrigins d.pass (),
      PointerTerm.mapListOrigins d.pass () _ 1 (ts.map toPointerTerm)⟩ _
    rw [originOver_displace d (List.cons_ne_nil o _), toPointerTerm_displace,
      PointerTerm.mapListOrigins_each, map_toPointerTerm_displace]
    simpa using spelled

theorem PointerId.SpelledBy.displace {x : PointerId} {ts : List Token} (h : x.SpelledBy ts) :
    (x.mapOrigins d.pass ()).SpelledBy (ts.map (Token.displace d)) := by
  cases h with
  | @number t kind => exact .number (t := t.displace d) kind
  | expression spelled => exact .expression spelled.displace

theorem Pointer.SpelledBy.displace {x : Pointer} {ts : List Token} (h : x.SpelledBy ts) :
    (x.mapOrigins d.pass ()).SpelledBy (ts.map (Token.displace d)) := by
  cases h with
  | @intro a x ts sign id =>
    have spelled := Pointer.SpelledBy.intro (a := a.displace d) sign (id.displace (d := d))
    rw [← List.map_cons, ← originOver_displace d (List.cons_ne_nil a ts)] at spelled
    exact spelled

theorem PointerRef.SpelledBy.displace {x : PointerRef} {ts : List Token} (h : x.SpelledBy ts) :
    (x.mapOrigins d.pass ()).SpelledBy (ts.map (Token.displace d)) := by
  cases h with
  | @intro a x ts sign id =>
    have spelled := PointerRef.SpelledBy.intro (a := a.displace d) sign (id.displace (d := d))
    rw [← List.map_cons, ← originOver_displace d (List.cons_ne_nil a ts)] at spelled
    exact spelled

theorem Pointer.OptionSpelledBy.displace {x : Option Pointer} {ts : List Token}
    (h : Pointer.OptionSpelledBy x ts) :
    Pointer.OptionSpelledBy (x.map (·.mapOrigins d.pass ())) (ts.map (Token.displace d)) := by
  cases h with
  | none => exact .none
  | some spelled => exact .some spelled.displace

theorem marksFront_displace (t u : Token) :
    (t.displace d).MarksFront (u.displace d) ↔ t.MarksFront u := by
  rw [MarksFront, MarksFront, touches_displace, kind_displace]

theorem namesEnding_displace (t u : Token) :
    (t.displace d).NamesEnding (u.displace d) ↔ t.NamesEnding u := by
  rw [NamesEnding, NamesEnding, touches_displace, kind_displace]

section
variable {bracketed : GacString → List Token → Token → Prop}
  (hin : ∀ ⦃x ts c⦄, bracketed x ts c →
    bracketed (x.mapOrigins d.pass ()) (ts.map (Token.displace d)) (c.displace d))
include hin

theorem GacStem.SpelledWith.displace {next : Token} {x : GacStem} {ts : List Token}
    (h : x.SpelledWith bracketed next ts) :
    (x.mapOrigins d.pass ()).SpelledWith bracketed (next.displace d)
      (ts.map (Token.displace d)) := by
  cases h with
  | fycoide spelled =>
    rw [GacStem.mapOrigins]
    exact .fycoide spelled.displace
  | pointerRef spelled =>
    rw [GacStem.mapOrigins]
    exact .pointerRef spelled.displace
  | @identifier t kind longest =>
    rw [GacStem.mapOrigins]
    exact .identifier (t := t.displace d) kind (mt (marksFront_displace t next).1 longest)
  | @front t m marker kind mark touches =>
    rw [GacStem.mapOrigins]
    exact .front (t := t.displace d) (m := m.displace d) kind mark
      ((touches_displace d t m).trans touches)
  | @ending m t marker mark kind touches =>
    rw [GacStem.mapOrigins]
    exact .ending (m := m.displace d) (t := t.displace d) mark kind
      ((touches_displace d m t).trans touches)
  | @sign t mark longest =>
    rw [GacStem.mapOrigins]
    exact .sign (t := t.displace d) mark (mt (namesEnding_displace t next).1 longest)
  | @synonym s t mark kind =>
    rw [GacStem.mapOrigins]
    exact .synonym (s := s.displace d) (t := t.displace d) mark kind
  | @nested o c x ts opener content closer =>
    have spelled := @GacStem.SpelledWith.nested _ (next.displace d) (o.displace d) (c.displace d) _ _
      opener (hin content) closer
    have origin := originOver_displace d (List.cons_ne_nil o (ts ++ [c]))
    rw [GacStem.mapOrigins, GacNested.mapOrigins]
    simp only [List.cons_append, List.map_cons, List.map_append, List.map_nil] at spelled origin ⊢
    rw [← origin] at spelled
    exact spelled
  | @operator t kind =>
    rw [GacStem.mapOrigins]
    exact .operator (t := t.displace d) kind

theorem GacStem.RowSpelledWith.displace {next : Token} {xs : List GacStem} {ts : List Token}
    (h : GacStem.RowSpelledWith bracketed next xs ts) :
    GacStem.RowSpelledWith bracketed (next.displace d) (xs.map (GacStem.mapOrigins d.pass ()))
      (ts.map (Token.displace d)) := by
  induction h with
  | last stem => exact .last (stem.displace hin)
  | @cons x xs t ts us stem stems ih =>
    rw [List.map_append]
    exact .cons (stem.displace hin) ih

theorem GacString.SpelledWith.displace {x : GacString} {ts : List Token} {next : Token}
    (h : x.SpelledWith bracketed ts next) :
    (x.mapOrigins d.pass ()).SpelledWith bracketed (ts.map (Token.displace d))
      (next.displace d) := by
  cases h with
  | @intro x xs ts next stems =>
    have spelled := GacString.SpelledWith.intro (stems.displace hin)
    rw [← originOver_displace d stems.ne_nil] at spelled
    rw [GacString.mapOrigins, GacStem.mapListOrigins_each]
    exact spelled

end

theorem GacString.SpelledIn.displace {n : Nat} {x : GacString} {ts : List Token} {next : Token}
    (h : x.SpelledIn n ts next) :
    (x.mapOrigins d.pass ()).SpelledIn n (ts.map (Token.displace d)) (next.displace d) := by
  induction n generalizing x ts next with
  | zero => exact h.elim
  | succ n ih => exact GacString.SpelledWith.displace (fun _ _ _ h => ih h) h

theorem Expression.SpelledBy.displace {n : Nat} {x : Expression} {ts : List Token}
    (h : x.SpelledBy n ts) :
    (x.mapOrigins d.pass ()).SpelledBy n (ts.map (Token.displace d)) := by
  cases h with
  | typeDesc spelled => exact .typeDesc spelled.displace
  | @protoGacWord o c x pointer ts us opener content closer target =>
    have spelled := Expression.SpelledBy.protoGacWord (o := o.displace d) (c := c.displace d)
      opener content.displace closer (target.displace (d := d))
    have origin := originOver_displace d (List.cons_ne_nil o (ts ++ c :: us))
    simp only [List.cons_append, List.map_cons, List.map_append] at spelled origin ⊢
    rw [← origin] at spelled
    exact spelled
  | @stdGacWord o c x pointer ts us opener content closer target =>
    have spelled := Expression.SpelledBy.stdGacWord (o := o.displace d) (c := c.displace d)
      opener content.displace closer (target.displace (d := d))
    have origin := originOver_displace d (List.cons_ne_nil o (ts ++ c :: us))
    simp only [List.cons_append, List.map_cons, List.map_append] at spelled origin ⊢
    rw [← origin] at spelled
    exact spelled
  | fycoide spelled => exact .fycoide spelled.displace
  | pointerRef spelled => exact .pointerRef spelled.displace

section
variable {braced : RightSide → List Token → Prop} {n : Nat}
  (hin : ∀ ⦃x ts⦄, braced x ts →
    braced (x.mapOrigins d.pass ()) (ts.map (Token.displace d)))
include hin

theorem Relation.SpelledWith.displace {x : Relation} {ts : List Token}
    (h : x.SpelledWith braced n ts) :
    (x.mapOrigins d.pass ()).SpelledWith braced n (ts.map (Token.displace d)) := by
  have origin (s : Span) (x : Expression) :
      Origin.displace d ⟨x.origin.span.cover s, []⟩ =
        ⟨(x.mapOrigins d.pass ()).origin.span.cover (s.displace d), []⟩ := by
    rw [x.span_mapOrigins (spansBy_pass d), Span.cover_displace]
    rfl
  cases h with
  | @pure o kind x y ts us left operator right =>
    have spelled := @Relation.SpelledWith.pure braced _ (o.displace d) _ _ _ _ _
      (left.displace (d := d)) operator (right.displace (d := d))
    rw [y.span_mapOrigins (spansBy_pass d), ← origin] at spelled
    rw [Relation.mapOrigins, RightSide.mapOrigins, List.map_append]
    exact spelled
  | @block o b c kind x y ts us left operator opener content closer =>
    have spelled := Relation.SpelledWith.block (o := o.displace d) (b := b.displace d)
      (c := c.displace d) (left.displace (d := d)) operator opener (hin content) closer
    rw [show (c.displace d).span = c.span.displace d from rfl, ← origin] at spelled
    rw [Relation.mapOrigins]
    simp only [List.map_append, List.map_cons, List.map_nil]
    exact spelled

theorem Element.SpelledWith.displace {x : Element} {ts : List Token}
    (h : x.SpelledWith braced n ts) :
    (x.mapOrigins d.pass ()).SpelledWith braced n (ts.map (Token.displace d)) := by
  cases h with
  | expression spelled =>
    rw [Element.mapOrigins]
    exact .expression spelled.displace
  | inclusion spelled =>
    rw [Element.mapOrigins]
    exact .inclusion spelled.displace
  | relation spelled =>
    rw [Element.mapOrigins]
    exact .relation (spelled.displace hin)

theorem Element.RowSpelledWith.displace {xs : List Element} {trailingComma : Bool}
    {ts : List Token} (h : Element.RowSpelledWith braced n xs trailingComma ts) :
    Element.RowSpelledWith braced n (xs.map (Element.mapOrigins d.pass ())) trailingComma
      (ts.map (Token.displace d)) := by
  induction h with
  | last element => exact .last (element.displace hin)
  | @trailing c x ts element comma =>
    rw [List.map_append]
    exact .trailing (c := c.displace d) (element.displace hin) comma
  | @cons c x xs trailingComma ts us element comma elements ih =>
    rw [List.map_append]
    exact .cons (c := c.displace d) (element.displace hin) comma ih

theorem BlockBody.SpelledWith.displace {x : BlockBody} {ts : List Token}
    (h : x.SpelledWith braced n ts) :
    (x.mapOrigins d.pass ()).SpelledWith braced n (ts.map (Token.displace d)) := by
  cases h with
  | @intro x xs trailingComma ts elements =>
    have spelled := BlockBody.SpelledWith.intro (elements.displace hin)
    rw [← originOver_displace d elements.ne_nil] at spelled
    rw [BlockBody.mapOrigins, Element.mapListOrigins_each]
    exact spelled

theorem RightSide.BracesSpelledWith.displace {x : RightSide} {ts : List Token}
    (h : RightSide.BracesSpelledWith braced n x ts) :
    RightSide.BracesSpelledWith braced n (x.mapOrigins d.pass ())
      (ts.map (Token.displace d)) := by
  cases h with
  | empty =>
    rw [RightSide.mapOrigins]
    exact .empty
  | body spelled =>
    rw [RightSide.mapOrigins]
    exact .body (spelled.displace hin)

end

theorem RightSide.SpelledIn.displace {n : Nat} {x : RightSide} {ts : List Token}
    (h : x.SpelledIn n ts) :
    (x.mapOrigins d.pass ()).SpelledIn n (ts.map (Token.displace d)) := by
  induction n generalizing x ts with
  | zero => exact h.elim
  | succ n ih => exact RightSide.BracesSpelledWith.displace (fun _ _ h => ih h) h

theorem FunctionBlock.SpelledBy.displace {n : Nat} {x : FunctionBlock} {ts : List Token}
    (h : x.SpelledBy n ts) :
    (x.mapOrigins d.pass ()).SpelledBy n (ts.map (Token.displace d)) := by
  cases h with
  | inclusion spelled => exact .inclusion spelled.displace
  | relation spelled => exact .relation (spelled.displace fun _ _ h => h.displace)

/-- Moved tokens spell the moved statement. -/
theorem Statement.SpelledBy.displace {n : Nat} {x : Statement} {ts : List Token}
    (h : x.SpelledBy n ts) : (x.displace d).SpelledBy n (ts.map (Token.displace d)) := by
  cases h with
  | @empty t kind => exact .empty (t := t.displace d) kind
  | @dashComment t kind => exact .dashComment (t := t.displace d) kind
  | @block s x ts spelled semicolon =>
    have moved := Statement.SpelledBy.block (s := s.displace d) (spelled.displace (d := d)) semicolon
    have origin := originOver_displace d (show ts ++ [s] ≠ [] by simp)
    rw [List.map_append] at origin ⊢
    rw [List.map_singleton] at origin ⊢
    rw [← origin] at moved
    exact moved

end

end

end RelationNotation
