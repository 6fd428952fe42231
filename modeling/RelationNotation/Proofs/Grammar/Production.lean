import RelationNotation.Parse.Statement

/-!
The grammar of the notation. `SpelledBy` relates every part of a syntax tree to the token lists that
spell it, one rule for each alternative of a production. What may stand between brackets or braces
is given level by level: `SpelledIn d` allows `d` more levels of nesting, so nothing is spelled
in level 0.

Where two tokens touch, the longer stem is read: a name that touches a marker behind it is no
identifier of its own, and a sign that touches a name behind it is no operator of its own.
-/

namespace RelationNotation

namespace Token

/-- The origin of a node that a list of tokens spells. -/
def originOver (ts : List Token) : Origin :=
  ⟨(ts.headD default).spanTo (ts.getLastD default), []⟩

/-- Whether a token, behind a name, makes the name a front part. -/
def MarksFront (t next : Token) : Prop :=
  (PrefixMarker.ofKind? next.kind).isSome ∧ t.touches next

instance (t next : Token) : Decidable (t.MarksFront next) := inferInstanceAs (Decidable (_ ∧ _))

/-- Whether a token, behind a sign, makes the sign part of a name. -/
def NamesEnding (t next : Token) : Prop := next.kind = .identifier ∧ t.touches next

instance (t next : Token) : Decidable (t.NamesEnding next) := inferInstanceAs (Decidable (_ ∧ _))

end Token

open Token

/-- How many more levels of nesting a parser may enter. -/
def Nesting.levels (n : Nesting) : Nat := (n.limit - n.depth).toNat

/-! ### Strings, descriptions and references -/

/-- string = IDENTIFIER | UNICODE_STRING -/
inductive StringValue.SpelledBy : StringValue → Token → Prop where
  | identifier {t : Token} (kind : t.kind = .identifier) :
      SpelledBy (.identifier t.toIdentifier) t
  | unicodeString {t : Token} (kind : t.kind = .unicodeString) :
      SpelledBy (.unicodeString ⟨t.origin, t.text⟩) t

/-- description = QUOTE string QUOTE -/
inductive TypeDesc.SpelledBy : TypeDesc → List Token → Prop where
  | intro {o s c : Token} {x : StringValue} (opener : o.kind = .quote) (string : x.SpelledBy s)
      (closer : c.kind = .quote) : SpelledBy ⟨originOver [o, s, c], x⟩ [o, s, c]

/-- fycoide = '#(' string ')' -/
inductive Fycoide.SpelledBy : Fycoide → List Token → Prop where
  | intro {o s c : Token} {x : StringValue} (opener : o.kind = .fycoideOpen)
      (string : x.SpelledBy s) (closer : c.kind = .rightParen) :
      SpelledBy ⟨originOver [o, s, c], x⟩ [o, s, c]

/-- pointer expression = '[' (number | bare operator | arithmetic operator)+ ']' -/
inductive PointerExpression.SpelledBy : PointerExpression → List Token → Prop where
  | intro {o t c : Token} {ts : List Token} (opener : o.kind = .leftBracket)
      (terms : ∀ u ∈ t :: ts, u.kind ∈ TokenKind.pointerTerms) (closer : c.kind = .rightBracket) :
      SpelledBy ⟨originOver (o :: t :: ts ++ [c]), t.toPointerTerm, ts.map toPointerTerm⟩
        (o :: t :: ts ++ [c])

/-- pointer id = number | pointer expression -/
inductive PointerId.SpelledBy : PointerId → List Token → Prop where
  | number {t : Token} (kind : t.kind ∈ TokenKind.numbers) : SpelledBy (.number t.toNumber) [t]
  | expression {x : PointerExpression} {ts : List Token} (spelled : x.SpelledBy ts) :
      SpelledBy (.expression x) ts

/-- pointer = '@' pointer id, behind a gac word -/
inductive Pointer.SpelledBy : Pointer → List Token → Prop where
  | intro {a : Token} {x : PointerId} {ts : List Token} (sign : a.kind = .atSign)
      (id : x.SpelledBy ts) : SpelledBy ⟨originOver (a :: ts), x⟩ (a :: ts)

/-- pointer reference = '@' pointer id, standing by itself -/
inductive PointerRef.SpelledBy : PointerRef → List Token → Prop where
  | intro {a : Token} {x : PointerId} {ts : List Token} (sign : a.kind = .atSign)
      (id : x.SpelledBy ts) : SpelledBy ⟨originOver (a :: ts), x⟩ (a :: ts)

/-- A pointer or nothing. -/
inductive Pointer.OptionSpelledBy : Option Pointer → List Token → Prop where
  | none : OptionSpelledBy none []
  | some {x : Pointer} {ts : List Token} (spelled : x.SpelledBy ts) : OptionSpelledBy (some x) ts

/-! ### Gac strings -/

section
variable (bracketed : GacString → List Token → Token → Prop)

/-- stem = fycoide | pointer reference | IDENTIFIER | IDENTIFIER ('=' | '<|') |
('-' | '+') IDENTIFIER | '-' | '+' | '|>' IDENTIFIER | '[' stem+ ']' | bare operator,
given what stands between brackets and the token behind the stem -/
inductive GacStem.SpelledWith (next : Token) : GacStem → List Token → Prop where
  | fycoide {x : Fycoide} {ts : List Token} (spelled : x.SpelledBy ts) :
      SpelledWith next (.fycoide x) ts
  | pointerRef {x : PointerRef} {ts : List Token} (spelled : x.SpelledBy ts) :
      SpelledWith next (.pointerRef x) ts
  | identifier {t : Token} (kind : t.kind = .identifier) (longest : ¬ t.MarksFront next) :
      SpelledWith next (.identifier t.toIdentifier) [t]
  | front {t m : Token} {marker : PrefixMarker} (kind : t.kind = .identifier)
      (mark : PrefixMarker.ofKind? m.kind = some marker) (touches : t.touches m) :
      SpelledWith next (.front ⟨originOver [t, m], t.toIdentifier, marker⟩) [t, m]
  | ending {m t : Token} {marker : SuffixMarker} (mark : SuffixMarker.ofKind? m.kind = some marker)
      (kind : t.kind = .identifier) (touches : m.touches t) :
      SpelledWith next (.ending ⟨originOver [m, t], marker, t.toIdentifier⟩) [m, t]
  | sign {t : Token} (mark : (SuffixMarker.ofKind? t.kind).isSome)
      (longest : ¬ t.NamesEnding next) : SpelledWith next (.operator t.toOperator) [t]
  | synonym {s t : Token} (mark : s.kind = .synonym) (kind : t.kind = .identifier) :
      SpelledWith next (.synonym ⟨originOver [s, t], t.toIdentifier⟩) [s, t]
  | nested {o c : Token} {x : GacString} {ts : List Token} (opener : o.kind = .leftBracket)
      (content : bracketed x ts c) (closer : c.kind = .rightBracket) :
      SpelledWith next (.nested ⟨originOver (o :: ts ++ [c]), x⟩) (o :: ts ++ [c])
  | operator {t : Token} (kind : t.kind ∈ TokenKind.bareOperators) :
      SpelledWith next (.operator t.toOperator) [t]

/-- stem+, given the token behind the last stem -/
inductive GacStem.RowSpelledWith (next : Token) : List GacStem → List Token → Prop where
  | last {x : GacStem} {ts : List Token} (stem : x.SpelledWith bracketed next ts) :
      RowSpelledWith next [x] ts
  | cons {x : GacStem} {xs : List GacStem} {t : Token} {ts us : List Token}
      (stem : x.SpelledWith bracketed t ts) (stems : RowSpelledWith next xs (t :: us)) :
      RowSpelledWith next (x :: xs) (ts ++ t :: us)

/-- gac string = stem+ -/
inductive GacString.SpelledWith : GacString → List Token → Token → Prop where
  | intro {x : GacStem} {xs : List GacStem} {ts : List Token} {next : Token}
      (stems : GacStem.RowSpelledWith bracketed next (x :: xs) ts) :
      SpelledWith ⟨originOver ts, x, xs⟩ ts next

end

/-- The gac strings that may stand between brackets, a number of levels being left, given the token
behind. -/
def GacString.SpelledIn : Nat → GacString → List Token → Token → Prop
  | 0 => fun _ _ _ => False
  | d + 1 => SpelledWith (SpelledIn d)

/-! ### Expressions -/

/-- expression = description | ('[' | '*[') stem+ ']' ['@' pointer id] | fycoide |
pointer reference -/
inductive Expression.SpelledBy (d : Nat) : Expression → List Token → Prop where
  | typeDesc {x : TypeDesc} {ts : List Token} (spelled : x.SpelledBy ts) :
      SpelledBy d (.typeDesc x) ts
  | protoGacWord {o c : Token} {x : GacString} {pointer : Option Pointer} {ts us : List Token}
      (opener : o.kind = .protoOpen) (content : x.SpelledIn d ts c)
      (closer : c.kind = .rightBracket) (target : Pointer.OptionSpelledBy pointer us) :
      SpelledBy d (.protoGacWord ⟨originOver (o :: ts ++ c :: us), x, pointer⟩)
        (o :: ts ++ c :: us)
  | stdGacWord {o c : Token} {x : GacString} {pointer : Option Pointer} {ts us : List Token}
      (opener : o.kind = .leftBracket) (content : x.SpelledIn d ts c)
      (closer : c.kind = .rightBracket) (target : Pointer.OptionSpelledBy pointer us) :
      SpelledBy d (.stdGacWord ⟨originOver (o :: ts ++ c :: us), x, pointer⟩)
        (o :: ts ++ c :: us)
  | fycoide {x : Fycoide} {ts : List Token} (spelled : x.SpelledBy ts) :
      SpelledBy d (.fycoide x) ts
  | pointerRef {x : PointerRef} {ts : List Token} (spelled : x.SpelledBy ts) :
      SpelledBy d (.pointerRef x) ts

/-! ### Includes, relations and blocks -/

/-- file = IDENTIFIER | UNICODE_STRING | QUOTED_STRING -/
inductive IncludeFile.SpelledBy : IncludeFile → Token → Prop where
  | identifier {t : Token} (kind : t.kind = .identifier) :
      SpelledBy (.identifier t.toIdentifier) t
  | unicodeString {t : Token} (kind : t.kind = .unicodeString) :
      SpelledBy (.unicodeString ⟨t.origin, t.text⟩) t
  | quotedString {t : Token} (kind : t.kind = .quotedString) :
      SpelledBy (.quotedString ⟨t.origin, t.text.tail.dropLast⟩) t

/-- include = '#[' file ']' -/
inductive Include.SpelledBy : Include → List Token → Prop where
  | intro {o f c : Token} {x : IncludeFile} (opener : o.kind = .includeOpen)
      (file : x.SpelledBy f) (closer : c.kind = .rightBracket) :
      SpelledBy ⟨originOver [o, f, c], x⟩ [o, f, c]

section
variable (braced : RightSide → List Token → Prop) (d : Nat)

/-- relation = expression OP (expression | '{' [body] '}'), given what stands between braces -/
inductive Relation.SpelledWith : Relation → List Token → Prop where
  | pure {o : Token} {kind : RelationKind} {x y : Expression} {ts us : List Token}
      (left : x.SpelledBy d ts) (operator : RelationKind.ofToken? o.kind = some kind)
      (right : y.SpelledBy d us) :
      SpelledWith ⟨kind, ⟨x.origin.span.cover y.origin.span, []⟩, x, .expression y⟩
        (ts ++ o :: us)
  | block {o b c : Token} {kind : RelationKind} {x : Expression} {y : RightSide}
      {ts us : List Token} (left : x.SpelledBy d ts)
      (operator : RelationKind.ofToken? o.kind = some kind) (opener : b.kind = .leftBrace)
      (content : braced y us) (closer : c.kind = .rightBrace) :
      SpelledWith ⟨kind, ⟨x.origin.span.cover c.span, []⟩, x, y⟩ (ts ++ o :: b :: (us ++ [c]))

/-- element = expression | include | relation -/
inductive Element.SpelledWith : Element → List Token → Prop where
  | expression {x : Expression} {ts : List Token} (spelled : x.SpelledBy d ts) :
      SpelledWith (.expression x) ts
  | inclusion {x : Include} {ts : List Token} (spelled : x.SpelledBy ts) :
      SpelledWith (.inclusion x) ts
  | relation {x : Relation} {ts : List Token} (spelled : x.SpelledWith braced d ts) :
      SpelledWith (.relation x) ts

/-- element (',' element)* [','], and whether the last comma is there -/
inductive Element.RowSpelledWith : List Element → Bool → List Token → Prop where
  | last {x : Element} {ts : List Token} (element : x.SpelledWith braced d ts) :
      RowSpelledWith [x] false ts
  | trailing {c : Token} {x : Element} {ts : List Token} (element : x.SpelledWith braced d ts)
      (comma : c.kind = .comma) : RowSpelledWith [x] true (ts ++ [c])
  | cons {c : Token} {x : Element} {xs : List Element} {trailingComma : Bool}
      {ts us : List Token} (element : x.SpelledWith braced d ts) (comma : c.kind = .comma)
      (elements : RowSpelledWith xs trailingComma us) :
      RowSpelledWith (x :: xs) trailingComma (ts ++ c :: us)

/-- body = element (',' element)* [','] -/
inductive BlockBody.SpelledWith : BlockBody → List Token → Prop where
  | intro {x : Element} {xs : List Element} {trailingComma : Bool} {ts : List Token}
      (elements : Element.RowSpelledWith braced d (x :: xs) trailingComma ts) :
      SpelledWith ⟨originOver ts, x, xs, trailingComma⟩ ts

/-- [body] -/
inductive RightSide.BracesSpelledWith : RightSide → List Token → Prop where
  | empty : BracesSpelledWith .emptyBlock []
  | body {x : BlockBody} {ts : List Token} (spelled : x.SpelledWith braced d ts) :
      BracesSpelledWith (.block x) ts

end

/-- What may stand between braces, a number of levels being left. -/
def RightSide.SpelledIn : Nat → RightSide → List Token → Prop
  | 0 => fun _ _ => False
  | d + 1 => BracesSpelledWith (SpelledIn d) d

/-! ### Statements -/

/-- block = include | relation -/
inductive FunctionBlock.SpelledBy (d : Nat) : FunctionBlock → List Token → Prop where
  | inclusion {x : Include} {ts : List Token} (spelled : x.SpelledBy ts) :
      SpelledBy d (.inclusion x) ts
  | relation {x : Relation} {ts : List Token}
      (spelled : x.SpelledWith (RightSide.SpelledIn d) d ts) : SpelledBy d (.relation x) ts

/-- statement = block ';' | DASH_COMMENT | ';', nested to a number of levels at most -/
inductive Statement.SpelledBy (d : Nat) : Statement → List Token → Prop where
  | empty {t : Token} (kind : t.kind = .semicolon) : SpelledBy d (.empty ⟨t.origin⟩) [t]
  | dashComment {t : Token} (kind : t.kind = .dashComment) :
      SpelledBy d (.dashComment ⟨t.origin, t.text⟩) [t]
  | block {s : Token} {x : FunctionBlock} {ts : List Token} (spelled : x.SpelledBy d ts)
      (semicolon : s.kind = .semicolon) :
      SpelledBy d (.block ⟨originOver (ts ++ [s]), x⟩) (ts ++ [s])

/-- document = statement* -/
inductive Statement.RowSpelledBy (d : Nat) : List Statement → List Token → Prop where
  | nil : RowSpelledBy d [] []
  | cons {x : Statement} {xs : List Statement} {ts us : List Token} (statement : x.SpelledBy d ts)
      (statements : RowSpelledBy d xs us) : RowSpelledBy d (x :: xs) (ts ++ us)

/-! ### Nothing is spelled by no tokens -/

theorem PointerId.SpelledBy.ne_nil {x : PointerId} {ts : List Token} (h : x.SpelledBy ts) :
    ts ≠ [] := by
  cases h with
  | number _ => simp
  | expression spelled => cases spelled; simp

theorem GacStem.SpelledWith.ne_nil {bracketed : GacString → List Token → Token → Prop}
    {next : Token} {x : GacStem} {ts : List Token} (h : x.SpelledWith bracketed next ts) :
    ts ≠ [] := by
  cases h with
  | fycoide spelled => cases spelled; simp
  | pointerRef spelled => cases spelled; simp
  | _ => simp

theorem GacStem.RowSpelledWith.ne_nil {bracketed : GacString → List Token → Token → Prop}
    {next : Token} {xs : List GacStem} {ts : List Token}
    (h : GacStem.RowSpelledWith bracketed next xs ts) : ts ≠ [] := by
  cases h with
  | last stem => exact stem.ne_nil
  | cons stem _ => simp

theorem Expression.SpelledBy.ne_nil {d : Nat} {x : Expression} {ts : List Token}
    (h : x.SpelledBy d ts) : ts ≠ [] := by
  cases h with
  | typeDesc spelled => cases spelled; simp
  | fycoide spelled => cases spelled; simp
  | pointerRef spelled => cases spelled; simp
  | _ => simp

theorem Element.SpelledWith.ne_nil {braced : RightSide → List Token → Prop} {d : Nat}
    {x : Element} {ts : List Token} (h : x.SpelledWith braced d ts) : ts ≠ [] := by
  cases h with
  | expression spelled => exact spelled.ne_nil
  | inclusion spelled => cases spelled; simp
  | relation spelled => cases spelled <;> simp

theorem Element.RowSpelledWith.ne_nil {braced : RightSide → List Token → Prop} {d : Nat}
    {xs : List Element} {trailingComma : Bool} {ts : List Token}
    (h : Element.RowSpelledWith braced d xs trailingComma ts) : ts ≠ [] := by
  cases h with
  | last element => exact element.ne_nil
  | _ => simp

theorem FunctionBlock.SpelledBy.ne_nil {d : Nat} {x : FunctionBlock} {ts : List Token}
    (h : x.SpelledBy d ts) : ts ≠ [] := by
  cases h with
  | inclusion spelled => cases spelled; simp
  | relation spelled => cases spelled <;> simp

theorem Statement.SpelledBy.ne_nil {d : Nat} {x : Statement} {ts : List Token}
    (h : x.SpelledBy d ts) : ts ≠ [] := by
  cases h <;> simp

end RelationNotation
