import RelationNotation.Tree.Leaf

/-!
Expressions: type descriptions, gac words, fycoides and pointer references. A gac word holds a gac
string, which is one or more stems; a stem may hold a gac string of its own.
-/

namespace RelationNotation

/-- `[ … ]`: one or more terms in a row, without precedence. -/
structure PointerExpression where
  origin : Origin
  first : PointerTerm
  rest : List PointerTerm

/-- What a pointer points to. -/
inductive PointerId where
  | number (x : Number)
  | expression (x : PointerExpression)

/-- `@` and a target, behind a gac word. -/
structure Pointer where
  origin : Origin
  id : PointerId

/-- `@` and a target, standing by itself. -/
structure PointerRef where
  origin : Origin
  id : PointerId

/-- `#(name)`. -/
structure Fycoide where
  origin : Origin
  name : StringValue

/-- A description between single quotes. -/
structure TypeDesc where
  origin : Origin
  description : StringValue

/-- What marks a name as a stem's front part. -/
inductive PrefixMarker where
  | equals | arrow
  deriving DecidableEq

/-- What marks a name as a stem's end part. -/
inductive SuffixMarker where
  | minus | plus
  deriving DecidableEq

/-- `name=` or `name<|`. -/
structure GacPrefix where
  origin : Origin
  name : Identifier
  marker : PrefixMarker

/-- `-name` or `+name`. -/
structure GacSuffix where
  origin : Origin
  marker : SuffixMarker
  name : Identifier

/-- `|>name`. -/
structure GacSynonym where
  origin : Origin
  name : Identifier

mutual

/-- A stem of a gac string. -/
inductive GacStem where
  | fycoide (x : Fycoide)
  | pointerRef (x : PointerRef)
  | operator (x : Operator)
  | identifier (x : Identifier)
  | front (x : GacPrefix)
  | ending (x : GacSuffix)
  | synonym (x : GacSynonym)
  | nested (x : GacNested)

/-- `[ … ]` inside a gac string. -/
structure GacNested where
  origin : Origin
  content : GacString

/-- One or more stems. -/
structure GacString where
  origin : Origin
  first : GacStem
  rest : List GacStem

end

/-- `*[ … ]`, with a pointer or without. -/
structure ProtoGacWord where
  origin : Origin
  content : GacString
  pointer : Option Pointer

/-- `[ … ]`, with a pointer or without. -/
structure StdGacWord where
  origin : Origin
  content : GacString
  pointer : Option Pointer

/-- An expression. -/
inductive Expression where
  | typeDesc (x : TypeDesc)
  | protoGacWord (x : ProtoGacWord)
  | stdGacWord (x : StdGacWord)
  | fycoide (x : Fycoide)
  | pointerRef (x : PointerRef)

namespace PrefixMarker

def text : PrefixMarker → String
  | .equals => "="
  | .arrow => "<|"

def ofText? : String → Option PrefixMarker
  | "=" => some .equals
  | "<|" => some .arrow
  | _ => none

theorem ofText?_text (m : PrefixMarker) : ofText? m.text = some m := by cases m <;> decide

end PrefixMarker

namespace SuffixMarker

def text : SuffixMarker → String
  | .minus => "-"
  | .plus => "+"

def ofText? : String → Option SuffixMarker
  | "-" => some .minus
  | "+" => some .plus
  | _ => none

theorem ofText?_text (m : SuffixMarker) : ofText? m.text = some m := by cases m <;> decide

end SuffixMarker

namespace PointerExpression

def terms (x : PointerExpression) : List PointerTerm := x.first :: x.rest

end PointerExpression

namespace GacString

def stems (x : GacString) : List GacStem := x.first :: x.rest

end GacString

def PointerId.origin : PointerId → Origin
  | .number x => x.origin
  | .expression x => x.origin

def GacStem.origin : GacStem → Origin
  | .fycoide x => x.origin
  | .pointerRef x => x.origin
  | .operator x => x.origin
  | .identifier x => x.origin
  | .front x => x.origin
  | .ending x => x.origin
  | .synonym x => x.origin
  | .nested x => x.origin

def Expression.origin : Expression → Origin
  | .typeDesc x => x.origin
  | .protoGacWord x => x.origin
  | .stdGacWord x => x.origin
  | .fycoide x => x.origin
  | .pointerRef x => x.origin

/-! ### Passes over expressions -/

section
variable {σ : Type} (p : OriginMap σ)

/-- Terms from an index on, under a node whose children have the given spans. -/
def PointerTerm.mapListOrigins (s : σ) (spans : List Span) (i : Nat) :
    List PointerTerm → List PointerTerm
  | [] => []
  | x :: xs => x.mapOrigins p (p.below s spans i) :: mapListOrigins s spans (i + 1) xs

def PointerExpression.mapOrigins (s : σ) (x : PointerExpression) : PointerExpression :=
  let spans := x.terms.map (·.origin.span)
  { origin := p.here s spans x.origin
    first := x.first.mapOrigins p (p.below s spans 0)
    rest := PointerTerm.mapListOrigins p s spans 1 x.rest }

def PointerId.mapOrigins (s : σ) : PointerId → PointerId
  | .number x => .number (x.mapOrigins p s)
  | .expression x => .expression (x.mapOrigins p s)

def Pointer.mapOrigins (s : σ) (x : Pointer) : Pointer :=
  let spans := [x.id.origin.span]
  { origin := p.here s spans x.origin, id := x.id.mapOrigins p (p.below s spans 0) }

def PointerRef.mapOrigins (s : σ) (x : PointerRef) : PointerRef :=
  let spans := [x.id.origin.span]
  { origin := p.here s spans x.origin, id := x.id.mapOrigins p (p.below s spans 0) }

def Fycoide.mapOrigins (s : σ) (x : Fycoide) : Fycoide :=
  let spans := [x.name.origin.span]
  { origin := p.here s spans x.origin, name := x.name.mapOrigins p (p.below s spans 0) }

def TypeDesc.mapOrigins (s : σ) (x : TypeDesc) : TypeDesc :=
  let spans := [x.description.origin.span]
  { origin := p.here s spans x.origin
    description := x.description.mapOrigins p (p.below s spans 0) }

def GacPrefix.mapOrigins (s : σ) (x : GacPrefix) : GacPrefix :=
  let spans := [x.name.origin.span]
  { x with origin := p.here s spans x.origin, name := x.name.mapOrigins p (p.below s spans 0) }

def GacSuffix.mapOrigins (s : σ) (x : GacSuffix) : GacSuffix :=
  let spans := [x.name.origin.span]
  { x with origin := p.here s spans x.origin, name := x.name.mapOrigins p (p.below s spans 0) }

def GacSynonym.mapOrigins (s : σ) (x : GacSynonym) : GacSynonym :=
  let spans := [x.name.origin.span]
  { x with origin := p.here s spans x.origin, name := x.name.mapOrigins p (p.below s spans 0) }

mutual

def GacStem.mapOrigins (s : σ) : GacStem → GacStem
  | .fycoide x => .fycoide (x.mapOrigins p s)
  | .pointerRef x => .pointerRef (x.mapOrigins p s)
  | .operator x => .operator (x.mapOrigins p s)
  | .identifier x => .identifier (x.mapOrigins p s)
  | .front x => .front (x.mapOrigins p s)
  | .ending x => .ending (x.mapOrigins p s)
  | .synonym x => .synonym (x.mapOrigins p s)
  | .nested x => .nested (x.mapOrigins s)

def GacNested.mapOrigins (s : σ) : GacNested → GacNested
  | ⟨origin, content⟩ =>
    let spans := [content.origin.span]
    ⟨p.here s spans origin, content.mapOrigins (p.below s spans 0)⟩

def GacString.mapOrigins (s : σ) : GacString → GacString
  | ⟨origin, first, rest⟩ =>
    let spans := (first :: rest).map (·.origin.span)
    ⟨p.here s spans origin, first.mapOrigins (p.below s spans 0),
      GacStem.mapListOrigins s spans 1 rest⟩

/-- Stems from an index on, under a node whose children have the given spans. -/
def GacStem.mapListOrigins (s : σ) (spans : List Span) (i : Nat) : List GacStem → List GacStem
  | [] => []
  | x :: xs => x.mapOrigins (p.below s spans i) :: GacStem.mapListOrigins s spans (i + 1) xs

end

def gacWordSpans (content : GacString) (pointer : Option Pointer) : List Span :=
  content.origin.span :: pointer.toList.map (·.origin.span)

def ProtoGacWord.mapOrigins (s : σ) (x : ProtoGacWord) : ProtoGacWord :=
  let spans := gacWordSpans x.content x.pointer
  { origin := p.here s spans x.origin
    content := x.content.mapOrigins p (p.below s spans 0)
    pointer := x.pointer.map (·.mapOrigins p (p.below s spans 1)) }

def StdGacWord.mapOrigins (s : σ) (x : StdGacWord) : StdGacWord :=
  let spans := gacWordSpans x.content x.pointer
  { origin := p.here s spans x.origin
    content := x.content.mapOrigins p (p.below s spans 0)
    pointer := x.pointer.map (·.mapOrigins p (p.below s spans 1)) }

def Expression.mapOrigins (s : σ) : Expression → Expression
  | .typeDesc x => .typeDesc (x.mapOrigins p s)
  | .protoGacWord x => .protoGacWord (x.mapOrigins p s)
  | .stdGacWord x => .stdGacWord (x.mapOrigins p s)
  | .fycoide x => .fycoide (x.mapOrigins p s)
  | .pointerRef x => .pointerRef (x.mapOrigins p s)

end

end RelationNotation
