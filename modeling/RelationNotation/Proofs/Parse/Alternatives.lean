import RelationNotation.Proofs.Parse.Earliest
import RelationNotation.Proofs.Parse.Forking

/-!
What a fault demands is accepted. Every routine of the grammar stands in one way and parts from
itself as `Forks` says, a relation with a right side in braces only together with the closing brace
behind it. So a statement that is refused goes on if a token that the fault demands stands in the
place of the one it found. Main statement: `alternatives_accepted`.
-/

namespace RelationNotation

open Token Cursor

namespace Parse
variable {α β : Type} {k k' j j' : Nat} {c c' d : Cursor}

/-! ### Strings, pointers and files -/

theorem stands_string : Stands k (some .string) string := by
  refine stands_bind_current fun {c t} hc _ hcurrent => ?_
  have hkind : c.kind = t.kind := congrArg Token.kind hcurrent
  split
  next h => exact standsAt_advance hc (by rw [hkind, h]; decide) fun _ => moves_pure _
  next h => exact standsAt_advance hc (by rw [hkind, h]; decide) fun _ => moves_pure _
  next h₁ h₂ => exact standsAt_refuse (by simp_all [Demand.kinds, TokenKind.strings])

theorem firm_string : Firm k k' (some .string) string string where
  toForks := by
    refine forks_bind_current fun t => ?_
    split
    · exact forks_bind forks_advance fun _ => firm_pure _
    · exact forks_bind forks_advance fun _ => firm_pure _
    · exact forks_refuse _
  stands := stands_string
  stands' := stands_string

theorem firm_typeDesc : Firm k k' (some (.token .quote)) typeDesc typeDesc :=
  firm_bind (firm_expect (by decide)) fun _ => firm_bind firm_string fun _ =>
    firm_bind (firm_expect (by decide)) fun _ => firm_bind_idle (firm_originFrom _) fun _ =>
      firm_pure _

theorem firm_fycoide : Firm k k' (some (.token .fycoideOpen)) fycoide fycoide :=
  firm_bind (firm_expect (by decide)) fun _ => firm_bind firm_string fun _ =>
    firm_bind (firm_expect (by decide)) fun _ => firm_bind_idle (firm_originFrom _) fun _ =>
      firm_pure _

theorem firm_pointerExpression :
    Firm k k' (some (.token .leftBracket)) pointerExpression pointerExpression :=
  firm_bind (firm_expect (by decide)) fun _ => firm_bind_items .pointerTerm
    (forks_takeKinds (by decide)) (gathers_takeKinds (by decide)) (gathers_takeKinds (by decide))
    rfl rfl fun _ _ => firm_bind (firm_expect (by decide)) fun _ =>
      firm_bind_idle (firm_originFrom _) fun _ => firm_pure _

theorem stands_pointerId : Stands k (some .pointerTarget) pointerId := by
  refine stands_bind_kind fun {c k₀} hc hk hkind => standsAt_ite (fun h => ?_) fun h => standsAt_ite
    (fun h' => ?_) fun h' => standsAt_refuse ?_
  · refine standsAt_advance hc (fun hend => ?_) fun _ => moves_pure _
    rw [← hkind, hend] at h
    exact absurd h (by decide)
  · have asks : c.kind ∈ (Demand.token .leftBracket).kinds := by simp [Demand.kinds, hkind, h']
    exact .inl ((Firm.takesAt firm_pointerExpression hc hk asks).bind fun _ => moves_pure _)
  · simp_all [Demand.kinds]

theorem firm_pointerId : Firm k k' (some .pointerTarget) pointerId pointerId where
  toForks := forks_bind_kind fun _ =>
    forks_ite (forks_bind forks_advance fun _ => firm_pure _)
      (forks_ite (forks_bind firm_pointerExpression.toForks fun _ => firm_pure _)
        (forks_refuse _))
  stands := stands_pointerId
  stands' := stands_pointerId

theorem firm_pointer : Firm k k' (some (.token .atSign)) pointer pointer :=
  firm_bind (firm_expect (by decide)) fun _ => firm_bind firm_pointerId fun _ =>
    firm_bind_idle (firm_originFrom _) fun _ => firm_pure _

theorem firm_pointerRef : Firm k k' (some (.token .atSign)) pointerRef pointerRef :=
  firm_bind (firm_expect (by decide)) fun _ => firm_bind firm_pointerId fun _ =>
    firm_bind_idle (firm_originFrom _) fun _ => firm_pure _

theorem stands_includeFile : Stands k (some .includeFile) includeFile := by
  refine stands_bind_current fun {c t} hc _ hcurrent => ?_
  have hkind : c.kind = t.kind := congrArg Token.kind hcurrent
  split
  next h => exact standsAt_advance hc (by rw [hkind, h]; decide) fun _ => moves_pure _
  next h => exact standsAt_advance hc (by rw [hkind, h]; decide) fun _ => moves_pure _
  next h => exact standsAt_advance hc (by rw [hkind, h]; decide) fun _ => moves_pure _
  next h₁ h₂ h₃ => exact standsAt_refuse (by simp_all [Demand.kinds, TokenKind.includeFiles])

theorem firm_includeFile : Firm k k' (some .includeFile) includeFile includeFile where
  toForks := by
    refine forks_bind_current fun t => ?_
    split
    · exact forks_bind forks_advance fun _ => firm_pure _
    · exact forks_bind forks_advance fun _ => firm_pure _
    · exact forks_bind forks_advance fun _ => firm_pure _
    · exact forks_refuse _
  stands := stands_includeFile
  stands' := stands_includeFile

theorem firm_includeBlock : Firm k k' (some (.token .includeOpen)) includeBlock includeBlock :=
  firm_bind (firm_expect (by decide)) fun _ => firm_bind firm_includeFile fun _ =>
    firm_bind (firm_expect (by decide)) fun _ => firm_bind_idle (firm_originFrom _) fun _ =>
      firm_pure _

/-! ### Gac strings -/

/-- Reads on behind a name, which takes a marker that touches it. -/
def frontOrName (t : Token) : Parse GacStem := do
  let next ← current
  match PrefixMarker.ofKind? next.kind, t.touches next with
  | some marker, true =>
    let _ ← advance
    return .front ⟨← originFrom t, t.toIdentifier, marker⟩
  | _, _ => return .identifier t.toIdentifier

/-- Reads on behind a sign, which takes a name that touches it. -/
def endingOrSign (t : Token) (marker : SuffixMarker) : Parse GacStem := do
  let next ← current
  if next.kind = .identifier ∧ t.touches next then
    let _ ← advance
    return .ending ⟨← originFrom t, marker, next.toIdentifier⟩
  else return .operator t.toOperator

theorem stands_frontOrName (t : Token) : Stands k none (frontOrName t) := by
  refine stands_bind_current fun {c next} hc _ hcurrent => ?_
  split
  next h _ =>
    refine standsAt_advance hc (fun hend => ?_) fun _ =>
      moves_bind (moves_originFrom _) fun _ => moves_pure _
    have hkind : next.kind = .endOfInput := by rw [← hcurrent]; exact hend
    rw [hkind] at h
    cases h
  next => exact .inr ⟨_, rfl⟩

theorem firm_frontOrName (t : Token) : Firm k k' none (frontOrName t) (frontOrName t) where
  toForks := by
    refine forks_bind_current fun next => ?_
    split
    · exact forks_bind forks_advance fun _ =>
        firm_bind_idle (firm_originFrom _) fun _ => firm_pure _
    · exact (firm_pure _).toForks
  stands := stands_frontOrName t
  stands' := stands_frontOrName t

theorem stands_endingOrSign (t : Token) (marker : SuffixMarker) :
    Stands k none (endingOrSign t marker) := by
  refine stands_bind_current fun {c next} hc _ hcurrent => standsAt_ite (fun h => ?_) fun _ =>
    .inr ⟨_, rfl⟩
  refine standsAt_advance hc (fun hend => ?_) fun _ =>
    moves_bind (moves_originFrom _) fun _ => moves_pure _
  have hkind : next.kind = .endOfInput := by rw [← hcurrent]; exact hend
  exact absurd (hkind.symm.trans h.1) (by decide)

theorem firm_endingOrSign (t : Token) (marker : SuffixMarker) :
    Firm k k' none (endingOrSign t marker) (endingOrSign t marker) where
  toForks := forks_bind_current fun _ => forks_ite
    (forks_bind forks_advance fun _ => firm_bind_idle (firm_originFrom _) fun _ => firm_pure _)
    (firm_pure _).toForks
  stands := stands_endingOrSign t marker
  stands' := stands_endingOrSign t marker

theorem forks_gacStemWith {inner inner' : Nesting → Parse GacString} (n : Nesting)
    (h : ∀ m, Firm k k' (some .gacStem) (inner m) (inner' m)) :
    Forks (k + 1) (k' + 1) (gacStemWith inner n) (gacStemWith inner' n) := by
  rw [gacStemWith_eq, gacStemWith_eq]
  refine forks_bind_current fun t => ?_
  split
  case h_1 => exact forks_bind firm_fycoide.toForks fun _ => firm_pure _
  case h_2 => exact forks_bind firm_pointerRef.toForks fun _ => firm_pure _
  case h_3 => exact forks_bind forks_advance fun _ => firm_frontOrName t
  case h_4 =>
    exact forks_bind forks_advance fun _ => firm_bind (firm_expect (by decide)) fun _ =>
      firm_bind_idle (firm_originFrom _) fun _ => firm_pure _
  case h_5 =>
    exact forks_bind_advance fun _ => firm_bind (firm_nested n h) fun _ =>
      firm_bind (firm_expect (by decide)) fun _ =>
        firm_bind_idle (firm_originFrom _) fun _ => firm_pure _
  case h_6 =>
    split
    · exact forks_bind forks_advance fun _ => firm_endingOrSign t _
    · exact forks_ite (forks_bind forks_advance fun _ => firm_pure _) (forks_refuse _)

theorem stands_gacStemWith {inner : Nesting → Parse GacString} (h : ∀ m, Moves (inner m))
    (n : Nesting) : Stands k (some .gacStem) (gacStemWith inner n) := by
  rw [gacStemWith_eq]
  refine stands_bind_current fun {c t} hc hk hcurrent => ?_
  have hkind : c.kind = t.kind := congrArg Token.kind hcurrent
  split
  case h_1 hopen =>
    have asks : c.kind ∈ (Demand.token .fycoideOpen).kinds := by simp [Demand.kinds, hkind, hopen]
    exact .inl ((Firm.takesAt firm_fycoide hc hk asks).bind fun _ => moves_pure _)
  case h_2 hat =>
    have asks : c.kind ∈ (Demand.token .atSign).kinds := by simp [Demand.kinds, hkind, hat]
    exact .inl ((Firm.takesAt firm_pointerRef hc hk asks).bind fun _ => moves_pure _)
  case h_3 hname =>
    exact standsAt_advance hc (by rw [hkind, hname]; decide) fun _ =>
      (firm_frontOrName t : Firm 0 0 none _ _).moves'
  case h_4 hsynonym =>
    exact standsAt_advance hc (by rw [hkind, hsynonym]; decide) fun _ =>
      moves_bind (moves_expect _) fun _ => moves_bind (moves_originFrom _) fun _ => moves_pure _
  case h_5 hbracket =>
    exact standsAt_advance hc (by rw [hkind, hbracket]; decide) fun _ =>
      moves_bind (moves_nested n h) fun _ => moves_bind (moves_expect _) fun _ =>
        moves_bind (moves_originFrom _) fun _ => moves_pure _
  case h_6 =>
    split
    next hsign =>
      refine standsAt_advance hc (fun hend => ?_) fun _ =>
        (firm_endingOrSign t _ : Firm 0 0 none _ _).moves'
      rw [← hkind, hend] at hsign
      cases hsign
    next hsign =>
      refine standsAt_ite (fun hbare => ?_) fun hbare => standsAt_refuse ?_
      · refine standsAt_advance hc (fun hend => ?_) fun _ => moves_pure _
        rw [← hkind, hend] at hbare
        exact absurd hbare (by decide)
      · rw [hkind]
        generalize t.kind = k₀ at *
        cases k₀ <;> simp_all [Demand.kinds, TokenKind.gacStemStarts, SuffixMarker.ofKind?]

theorem takesEach_gacStemWith (j : Nat) (n : Nesting) :
    TakesEach k TokenKind.gacStemStarts (gacStemWith (gacStringWithin j) n) where
  takes := takes_gacStemWith j n
  takesAt hc hk asks := (stands_gacStemWith (moves_gacStringWithin j) n).takesAt hc hk asks
  moves := moves_gacStemWith (moves_gacStringWithin j) n

theorem stands_gacStringWithin (k : Nat) (n : Nesting) :
    Stands k (some .gacStem) (gacStringWithin k n) := by
  cases k with
  | zero =>
    intro c hc hk
    have hkind := hc.ended.kind_of_nil (List.length_eq_zero_iff.1 (Nat.le_zero.1 hk))
    exact standsAt_refuse (by rw [hkind]; decide)
  | succ k =>
    intro c hc hk
    have stems : Gathers (k + 1) Demand.gacStem.kinds
        (many TokenKind.gacStemStarts (gacStemWith (gacStringWithin k) n)) :=
      gathers_many (by decide) (takesEach_gacStemWith k n)
    refine stems.stands_bind rfl (fun xs => ?_) hc hk
    cases xs with
    | nil => exact moves_refuse _
    | cons x xs => exact moves_bind (moves_originFrom _) fun _ => moves_pure _

theorem forks_gacStringWithin (n : Nesting) :
    Forks k k' (gacStringWithin k n) (gacStringWithin k' n) := by
  induction k generalizing k' n with
  | zero =>
    exact forks_of_exhausted (retraces_gacStringWithin (.refl n)) (moves_gacStringWithin _ n)
      (.inl rfl)
  | succ k ih =>
    cases k' with
    | zero =>
      exact forks_of_exhausted (retraces_gacStringWithin (.refl n)) (moves_gacStringWithin _ n)
        (.inr rfl)
    | succ k' =>
      have stem : Forks (k + 1) (k' + 1) (gacStemWith (gacStringWithin k) n)
          (gacStemWith (gacStringWithin k') n) := forks_gacStemWith n fun m =>
        ⟨ih m, stands_gacStringWithin k m, stands_gacStringWithin k' m⟩
      have stems :=
        forks_many (by decide) (takesEach_gacStemWith k n) (takesEach_gacStemWith k' n) stem
      exact forks_bind_current fun start => (firm_bind_items .gacStem stems
        (gathers_many (by decide) (takesEach_gacStemWith k n))
        (gathers_many (by decide) (takesEach_gacStemWith k' n)) rfl rfl fun x xs =>
          firm_bind_idle (firm_originFrom start) fun o => firm_pure _).toForks

theorem firm_gacString (n : Nesting) : Firm k k' (some .gacStem) (gacString n) (gacString n) where
  toForks := forks_of_remaining (retraces_gacString (.refl n)) (fun j => moves_gacStringWithin j n)
    fun _ _ => forks_gacStringWithin n
  stands := stands_of_remaining fun j _ => stands_gacStringWithin j n
  stands' := stands_of_remaining fun j _ => stands_gacStringWithin j n

/-! ### Expressions -/

theorem firm_typeWordRest (n : Nesting) (start : Token) (proto : Bool) :
    Firm k k' (some (n.demandOf .gacStem)) (typeWordRest n start proto)
      (typeWordRest n start proto) :=
  firm_bind (firm_nested n firm_gacString) fun _ => firm_bind (firm_expect (by decide)) fun _ =>
    firm_choice (fun _ => mem_kinds_token)
      (firm_bind (firm_map some firm_pointer) fun _ =>
        firm_bind_idle (firm_originFrom _) fun _ => firm_pure _)
      (firm_bind_idle (firm_pure _) fun _ =>
        firm_bind_idle (firm_originFrom _) fun _ => firm_pure _)

theorem forks_typeWord (n : Nesting) : Forks k k' (typeWord n) (typeWord n) := by
  refine forks_bind_current fun start => ?_
  rw [bind_accept]
  exact forks_bind_kind fun _ => forks_ite
    (forks_bind forks_advance fun _ => firm_typeWordRest n start true)
    (forks_bind (firm_expect (by decide) : Firm k k' (some (.token .leftBracket)) _ _).toForks
      fun _ => firm_typeWordRest n start false)

theorem takesAt_typeWord (n : Nesting) (hc : c.EndsOnce)
    (hk : c.kind = .leftBracket ∨ c.kind = .protoOpen) : TakesAt (typeWord n) c := by
  by_cases hproto : c.kind = .protoOpen
  · have takes := (takesAt_advance hc (by rw [hproto]; decide)).bind fun _ =>
      moves_typeWordRest n c.current true
    unfold TakesAt
    rw [typeWord_apply, if_pos hproto]
    exact takes
  · have takes := ((stands_expect (by decide)).takesAt hc (Nat.le_refl _)
      (mem_kinds_token (hk.resolve_right hproto))).bind fun _ => moves_typeWordRest n c.current false
    unfold TakesAt
    rw [typeWord_apply, if_neg hproto]
    exact takes

theorem stands_expression (n : Nesting) : Stands k (some .expression) (expression n) := by
  refine stands_bind_kind fun {c k₀} hc hk hkind => ?_
  split
  case h_1 =>
    exact .inl ((Firm.takesAt firm_typeDesc hc hk (mem_kinds_token hkind)).bind fun _ => moves_pure _)
  case h_2 => exact .inl (takesAt_typeWord n hc (.inl hkind))
  case h_3 => exact .inl (takesAt_typeWord n hc (.inr hkind))
  case h_4 =>
    exact .inl ((Firm.takesAt firm_fycoide hc hk (mem_kinds_token hkind)).bind fun _ => moves_pure _)
  case h_5 =>
    exact .inl ((Firm.takesAt firm_pointerRef hc hk (mem_kinds_token hkind)).bind fun _ =>
      moves_pure _)
  case h_6 => exact standsAt_refuse (by simp_all [Demand.kinds, TokenKind.expressionStarts])

theorem firm_expression (n : Nesting) :
    Firm k k' (some .expression) (expression n) (expression n) where
  toForks := by
    refine forks_bind_kind fun _ => ?_
    split
    · exact forks_bind firm_typeDesc.toForks fun _ => firm_pure _
    · exact forks_typeWord n
    · exact forks_typeWord n
    · exact forks_bind firm_fycoide.toForks fun _ => firm_pure _
    · exact forks_bind firm_pointerRef.toForks fun _ => firm_pure _
    · exact forks_refuse _
  stands := stands_expression n
  stands' := stands_expression n

/-! ### Relations and blocks -/

/-- Whatever comes of what stands between braces, the closing brace is demanded behind it. -/
def Closes (f f' : α → Parse β) : Prop :=
  ∀ {k k' : Nat} (x : α), Firm k k' (some (.token .rightBrace)) (f x) (f' x)

/-- Routines for a block body: with the closing brace behind them they are firm. -/
structure FirmBody (k k' : Nat) (body body' : Nesting → Parse BlockBody) : Prop where
  moves : ∀ n, Moves (body n)
  moves' : ∀ n, Moves (body' n)
  closed : ∀ {β : Type} {f f' : BlockBody → Parse β} (n : Nesting), Closes f f' →
    Firm k k' (some .expression) (body n >>= f) (body' n >>= f')

theorem Closes.moves {f f' : α → Parse β} (hf : Closes f f') (x : α) : Moves (f x) :=
  (hf x : Firm 0 0 _ _ _).retraces.moves

theorem Closes.moves' {f f' : α → Parse β} (hf : Closes f f') (x : α) : Moves (f' x) :=
  (hf x : Firm 0 0 _ _ _).moves'

section
variable {body body' : Nesting → Parse BlockBody} (h : FirmBody k k' body body') (n : Nesting)
include h

theorem firm_braced {f f' : RightSide → Parse β} (hf : Closes f f') :
    Firm k k' (some .expression) (bracedWith body n >>= f) (bracedWith body' n >>= f') := by
  have unfolded (body : Nesting → Parse BlockBody) (f : RightSide → Parse β) :
      (bracedWith body n >>= f) = kind >>= fun k₀ =>
        if k₀ = .rightBrace then f .emptyBlock else body n >>= fun b => f (.block b) := by
    rw [bracedWith, bind_assoc]
    congr
    funext k₀
    split
    · rw [pure_bind]
    · simp only [bind_assoc, pure_bind]
  rw [unfolded, unfolded]
  exact firm_choice (fun _ => mem_kinds_token) (hf .emptyBlock) (h.closed n fun b => hf (.block b))

/-- A brace and what it holds, or an expression. -/
theorem firm_rightSide {f f' : RightSide → Parse β} {g g' : Expression → Parse β} (hf : Closes f f')
    (hg : ∀ x, Firm k k' none (g x) (g' x)) :
    Firm k k' (some .expression)
      (kind >>= fun k₀ => if k₀ = .leftBrace then
        advance >>= fun _ => nested n (bracedWith body) >>= f else expression n >>= g)
      (kind >>= fun k₀ => if k₀ = .leftBrace then
        advance >>= fun _ => nested n (bracedWith body') >>= f' else expression n >>= g') := by
  rw [nested_bind, nested_bind]
  have braces := firm_nested n fun m => firm_braced h m hf
  have bare := firm_bind (firm_expression n) hg
  have stands {i : Nat} {p : Parse β} {q : Parse β} (hp : Moves p)
      (hq : Stands i (some .expression) q) : Stands i (some .expression)
        (kind >>= fun k₀ => if k₀ = .leftBrace then advance >>= fun _ => p else q) :=
    stands_bind_kind fun hc hi hkind => standsAt_ite
      (fun hopen => standsAt_advance hc (by rw [hkind, hopen]; decide) fun _ => hp)
      fun _ => hq hc hi
  exact ⟨forks_bind_kind fun _ => forks_ite (forks_bind forks_advance fun _ => braces) bare.toForks,
    stands braces.retraces.moves bare.stands, stands braces.moves' bare.stands'⟩

omit h in
theorem stands_relationWith {body : Nesting → Parse BlockBody} (moves : ∀ m, Moves (body m))
    (left : Expression) : Stands k (some .relationOperator) (relationWith body n left) := by
  refine stands_bind_kind fun {c k₀} hc _ hkind => ?_
  split
  next hnone =>
    refine standsAt_refuse ?_
    rw [hkind]
    cases k₀ <;> simp_all [RelationKind.ofToken?, Demand.kinds, TokenKind.relationOperators]
  next hsome =>
    refine standsAt_advance hc (fun hend => ?_) fun _ => moves_bind moves_kind fun _ => moves_ite
      (moves_bind moves_advance fun _ => moves_bind (moves_nested n (moves_bracedWith moves))
        fun _ => moves_bind (moves_expect _) fun _ => moves_pure _)
      (moves_bind (moves_expression n) fun _ => moves_pure _)
    rw [← hkind, hend] at hsome
    cases hsome

theorem firm_relationWith (left : Expression) :
    Firm (k + 1) (k' + 1) (some .relationOperator) (relationWith body n left)
      (relationWith body' n left) where
  toForks := by
    refine forks_bind_kind fun _ => ?_
    split
    · exact forks_refuse _
    · refine forks_bind_advance fun _ => firm_rightSide h n (fun right => ?_) fun _ => firm_pure _
      exact firm_bind (firm_expect (by decide)) fun _ => firm_pure _
  stands := stands_relationWith n h.moves left
  stands' := stands_relationWith n h.moves' left

theorem firm_elementWith :
    Firm (k + 1) (k' + 1) (some .expression) (elementWith body n) (elementWith body' n) :=
  firm_choice (fun _ => mem_kinds_token) (firm_bind firm_includeBlock fun _ => firm_pure _)
    (firm_bind (firm_expression n) fun left => firm_choice
      (show ∀ k₀ ∈ TokenKind.relationOperators, k₀ ∈ Demand.relationOperator.kinds from fun _ => id)
      (firm_bind (firm_relationWith h n left) fun _ => firm_pure _) (firm_pure _))

end

section
variable {f f' : List Element × Bool → Parse β} {element element' : Parse Element}

/-- Goes on before a closing brace, which must stand there. -/
def closeRow (f : List Element × Bool → Parse β) (x : List Element × Bool) : Parse β := do
  if (← kind) = .rightBrace then f x else refuse .commaOrBrace

theorem forks_closeRow (hf : Closes f f') (x : List Element × Bool) :
    Forks k k' (closeRow f x) (closeRow f' x) :=
  forks_bind_kind fun _ => forks_ite (hf x).toForks (forks_refuse _)

theorem moves_closeRow (hf : ∀ x, Moves (f x)) (x : List Element × Bool) : Moves (closeRow f x) :=
  moves_bind moves_kind fun _ => moves_ite (hf x) (moves_refuse _)

/-- What follows a comma: the closing brace, or an element and what stands behind it. -/
def afterComma (element : Parse Element) (j : Nat) (g : List Element × Bool → Parse β) :
    Parse β := do
  if (← kind) = .rightBrace then g ([], true)
  else
    let x ← element
    let (xs, trailingComma) ← furtherElements element j
    g (x :: xs, trailingComma)

theorem furtherElements_bind (element : Parse Element) (j : Nat)
    (g : List Element × Bool → Parse β) :
    (furtherElements element (j + 1) >>= g) = kind >>= fun k₀ =>
      if k₀ ∈ [TokenKind.comma] then advance >>= fun _ => afterComma element j g
      else g ([], false) := by
  rw [furtherElements, bind_assoc, bind_accept, afterComma]
  congr
  funext k₀
  split
  · congr
    funext t
    rw [if_pos rfl, bind_assoc]
    congr
    funext k₁
    split
    · rw [pure_bind]
    · simp only [bind_assoc, pure_bind]
  · rw [if_neg Bool.false_ne_true, pure_bind]

section
variable (hf : ∀ {k} x, Stands k (some (.token .rightBrace)) (f x))
include hf

theorem takesAt_closeRow (x : List Element × Bool) (hc : c.EndsOnce) (hk : c.kind = .rightBrace) :
    TakesAt (closeRow f x) c := by
  have takes : TakesAt (f x) c := (hf x).takesAt hc (Nat.le_refl _) (mem_kinds_token hk)
  unfold TakesAt
  rwa [closeRow, bind_kind, if_pos hk]

theorem standsAt_closeRow (x : List Element × Bool) (hc : c.EndsOnce) (hk : c.kind ≠ .comma) :
    StandsAt (closeRow f x) c (some .commaOrBrace) :=
  standsAt_ite (P := c.kind = .rightBrace)
    (fun h => .inl ((hf x).takesAt hc (Nat.le_refl _) (mem_kinds_token h)))
    fun h => standsAt_refuse (by simp [Demand.kinds, hk, h])

theorem stands_afterComma (h : Stands k (some .expression) element)
    (moves : ∀ x, Moves (furtherElements element j >>= closeRow fun y => f (x :: y.1, y.2))) :
    Stands k (some .expression) (afterComma element j (closeRow f)) :=
  stands_bind_kind fun hc hk hkind => standsAt_ite
    (fun hclose => .inl (takesAt_closeRow hf _ hc (hkind.trans hclose)))
    fun _ => stands_bind h moves hc hk

theorem stands_furtherElements (moves : Moves element) (close : ∀ x, Moves (f x)) :
    Stands j (some .commaOrBrace) (furtherElements element j >>= closeRow f) := by
  cases j with
  | zero =>
    intro c hc hj
    have hend := hc.ended.kind_of_nil (List.length_eq_zero_iff.1 (Nat.le_zero.1 hj))
    exact standsAt_closeRow hf _ hc (by rw [hend]; decide)
  | succ j =>
    have behind : Moves (afterComma element j (closeRow f)) :=
      moves_bind moves_kind fun _ => moves_ite (moves_closeRow close _) (moves_bind moves fun x =>
        moves_bind (moves_furtherElements moves j) fun y => moves_closeRow close (x :: y.1, y.2))
    rw [furtherElements_bind]
    refine stands_bind_kind fun hc _ hkind => standsAt_ite (fun h => ?_) fun h => ?_
    · exact standsAt_advance hc (by rw [hkind, List.mem_singleton.1 h]; decide) fun _ => behind
    · exact standsAt_closeRow hf _ hc (by simpa [hkind] using h)

end

/-- What stands behind an element of a row: a comma and what follows it, or the closing brace. -/
theorem forks_furtherElements (h : Firm k k' (some .expression) element element')
    (hf : Closes f f') (hj : j ≤ k) (hj' : j' ≤ k') :
    Forks j j' (furtherElements element j >>= closeRow f)
      (furtherElements element' j' >>= closeRow f') := by
  have exhausted {j j' : Nat} {f f' : List Element × Bool → Parse β} (hf : Closes f f') (hj : j ≤ k)
      (hj' : j' ≤ k') (hzero : j = 0 ∨ j' = 0) :
      Forks j j' (furtherElements element j >>= closeRow f)
        (furtherElements element' j' >>= closeRow f') :=
    forks_of_exhausted
      (retraces_bind (retraces_furtherElements h.retraces hj hj') fun x =>
        (forks_closeRow hf x).retraces)
      (moves_bind (moves_furtherElements h.moves' j') (moves_closeRow hf.moves')) hzero
  induction j generalizing j' f f' with
  | zero => exact exhausted hf hj hj' (.inl rfl)
  | succ j ih =>
    cases j' with
    | zero => exact exhausted hf hj hj' (.inr rfl)
    | succ j' =>
      have hj₁ : j ≤ k := by omega
      have hj₁' : j' ≤ k' := by omega
      have more (x : Element) : Firm j j' (some .commaOrBrace)
          (furtherElements element j >>= closeRow fun y => f (x :: y.1, y.2))
          (furtherElements element' j' >>= closeRow fun y => f' (x :: y.1, y.2)) :=
        ⟨ih (fun y => hf (x :: y.1, y.2)) hj₁ hj₁',
          stands_furtherElements (fun y => (hf (x :: y.1, y.2) : Firm _ 0 _ _ _).stands)
            h.retraces.moves fun y => hf.moves (x :: y.1, y.2),
          stands_furtherElements (fun y => (hf (x :: y.1, y.2) : Firm 0 _ _ _ _).stands')
            h.moves' fun y => hf.moves' (x :: y.1, y.2)⟩
      have behind : Firm j j' (some .expression) (afterComma element j (closeRow f))
          (afterComma element' j' (closeRow f')) :=
        ⟨forks_bind_kind fun _ => forks_ite (forks_closeRow hf _)
            (forks_bind (h.mono hj₁ hj₁').toForks more),
          stands_afterComma (fun y => (hf y : Firm _ 0 _ _ _).stands) (h.mono hj₁ hj₁').stands
            fun x => (more x).retraces.moves,
          stands_afterComma (fun y => (hf y : Firm 0 _ _ _ _).stands') (h.mono hj₁ hj₁').stands'
            fun x => (more x).moves'⟩
      rw [furtherElements_bind, furtherElements_bind]
      exact forks_bind_kind fun _ =>
        forks_ite (forks_bind_advance fun _ => behind) (forks_closeRow hf _)

/-- All that stands behind the first element of a row. -/
theorem firm_allFurtherElements (h : Firm k k' (some .expression) element element')
    (hf : Closes f f') :
    Firm k k' (some .commaOrBrace)
      (get >>= fun c => furtherElements element c.remaining >>= closeRow f)
      (get >>= fun c => furtherElements element' c.remaining >>= closeRow f') where
  toForks := forks_of_remaining
    (retraces_allFurtherElements h.retraces fun x => (forks_closeRow hf x).retraces)
    (fun j => moves_bind (moves_furtherElements h.moves' j) (moves_closeRow hf.moves'))
    (forks_furtherElements h hf)
  stands := stands_of_remaining fun _ _ =>
    stands_furtherElements (fun y => (hf y : Firm _ 0 _ _ _).stands) h.retraces.moves hf.moves
  stands' := stands_of_remaining fun _ _ =>
    stands_furtherElements (fun y => (hf y : Firm 0 _ _ _ _).stands') h.moves' hf.moves'

end

theorem blockBodyWithin_bind (k : Nat) (n : Nesting) (f : BlockBody → Parse β) :
    (blockBodyWithin (k + 1) n >>= f) = current >>= fun start =>
      elementWith (blockBodyWithin k) n >>= fun first => get >>= fun c =>
        furtherElements (elementWith (blockBodyWithin k) n) c.remaining >>=
          closeRow fun x => originFrom start >>= fun o => f ⟨o, first, x.1, x.2⟩ := by
  rw [blockBodyWithin]
  simp only [bind_assoc]
  congr
  funext start
  congr
  funext first
  congr
  funext c
  congr
  funext x
  rw [closeRow]
  congr
  funext k₀
  split
  · simp only [bind_assoc, pure_bind]
  · rfl

theorem stands_elementWith {body : Nesting → Parse BlockBody} (moves : ∀ m, Moves (body m))
    (n : Nesting) : Stands k (some .expression) (elementWith body n) :=
  stands_choice (fun _ => mem_kinds_token)
    (stands_bind (firm_includeBlock : Firm k 0 _ _ _).stands fun _ => moves_pure _)
    (stands_bind (stands_expression n) fun _ => moves_bind moves_kind fun _ =>
      moves_ite (moves_bind (moves_relationWith moves n _) fun _ => moves_pure _) (moves_pure _))

theorem stands_blockBodyWithin (n : Nesting) :
    Stands k (some .expression) (blockBodyWithin k n) := by
  cases k with
  | zero =>
    intro c hc hk
    have hend := hc.ended.kind_of_nil (List.length_eq_zero_iff.1 (Nat.le_zero.1 hk))
    exact standsAt_refuse (by rw [hend]; decide)
  | succ k =>
    have moves : ∀ m, Moves (blockBodyWithin k m) := moves_blockBodyWithin k
    refine stands_bind_current fun hc hk _ =>
      stands_bind (stands_elementWith moves n) (fun first => ?_) hc hk
    exact moves_bind moves_get fun _ =>
      moves_bind (moves_furtherElements (moves_elementWith moves n) _) fun _ =>
        moves_bind moves_kind fun _ =>
          moves_ite (moves_bind (moves_originFrom _) fun _ => moves_pure _) (moves_refuse _)

theorem firmBody_blockBodyWithin : FirmBody k k' (blockBodyWithin k) (blockBodyWithin k') := by
  have of_forks {k k' : Nat} (h : ∀ {β : Type} {f f' : BlockBody → Parse β} (n : Nesting),
      Closes f f' → Forks k k' (blockBodyWithin k n >>= f) (blockBodyWithin k' n >>= f')) :
      FirmBody k k' (blockBodyWithin k) (blockBodyWithin k') :=
    ⟨moves_blockBodyWithin k, moves_blockBodyWithin k', fun n hf => ⟨h n hf,
      stands_bind (stands_blockBodyWithin n) hf.moves,
      stands_bind (stands_blockBodyWithin n) hf.moves'⟩⟩
  have exhausted {k k' : Nat} (hzero : k = 0 ∨ k' = 0) :
      FirmBody k k' (blockBodyWithin k) (blockBodyWithin k') :=
    of_forks fun n hf => forks_of_exhausted
      (retraces_bind (retraces_blockBodyWithin (.refl n)) fun x => (hf x).retraces)
      (moves_bind (moves_blockBodyWithin k' n) hf.moves') hzero
  induction k generalizing k' with
  | zero => exact exhausted (.inl rfl)
  | succ k ih =>
    cases k' with
    | zero => exact exhausted (.inr rfl)
    | succ k' =>
      refine of_forks fun n hf => ?_
      have element := firm_elementWith (ih : FirmBody k k' _ _) n
      rw [blockBodyWithin_bind, blockBodyWithin_bind]
      exact forks_bind_current fun start => forks_bind element.toForks fun first =>
        firm_allFurtherElements element fun _ =>
          firm_bind_idle (firm_originFrom start) fun _ => hf _

theorem blockBody_bind (n : Nesting) (f : BlockBody → Parse β) :
    (blockBody n >>= f) = get >>= fun c => blockBodyWithin c.remaining n >>= f :=
  bind_assoc ..

theorem firmBody_blockBody : FirmBody k k' blockBody blockBody := by
  refine ⟨moves_blockBody, moves_blockBody, fun {β f f'} n hf => ?_⟩
  have retraces : Retraces k k' (blockBody n >>= f) (blockBody n >>= f') :=
    retraces_bind (retraces_blockBody (.refl n)) fun x => (hf x).retraces
  have within (j j' : Nat) := (firmBody_blockBodyWithin : FirmBody j j' _ _).closed n hf
  rw [blockBody_bind, blockBody_bind] at *
  exact ⟨forks_of_remaining retraces (fun j' => (within 0 j').moves') fun _ _ =>
      (within _ _).toForks,
    stands_of_remaining fun j _ => (within j 0).stands,
    stands_of_remaining fun j' _ => (within 0 j').stands'⟩

/-! ### Statements -/

theorem firm_functionBlock (n : Nesting) :
    Firm (k + 1) (k' + 1) (some .expression) (functionBlock n) (functionBlock n) :=
  firm_choice (fun _ => mem_kinds_token) (firm_bind firm_includeBlock fun _ => firm_pure _)
    (firm_bind (firm_expression n) fun left =>
      firm_bind (firm_relationWith firmBody_blockBody n left) fun _ => firm_pure _)

theorem stands_statement (n : Nesting) : Stands (k + 1) (some .expression) (statement n) := by
  refine stands_bind_current fun {c t} hc hk hcurrent => ?_
  have hkind : c.kind = t.kind := congrArg Token.kind hcurrent
  split
  next h => exact standsAt_advance hc (by rw [hkind, h]; decide) fun _ => moves_pure _
  next h => exact standsAt_advance hc (by rw [hkind, h]; decide) fun _ => moves_pure _
  next =>
    have block : Firm (k + 1) 1 (some .expression) (functionBlock n) (functionBlock n) :=
      firm_functionBlock n
    exact stands_bind block.stands (fun _ => moves_bind (moves_expect _) fun _ =>
      moves_bind (moves_originFrom t) fun _ => moves_pure _) hc hk

theorem firm_statement (n : Nesting) :
    Firm (k + 1) (k' + 1) (some .expression) (statement n) (statement n) where
  toForks := by
    refine forks_bind_current fun t => ?_
    split
    · exact forks_bind forks_advance fun _ => firm_pure _
    · exact forks_bind forks_advance fun _ => firm_pure _
    · exact forks_bind (firm_functionBlock n).toForks fun _ => firm_bind (firm_expect (by decide))
        fun _ => firm_bind_idle (firm_originFrom t) fun _ => firm_pure _
  stands := stands_statement n
  stands' := stands_statement n

theorem passes_demanded_of_before {n : Nesting} {fault fault' : SyntaxFault} {us r : List Token} {t : Token}
    {d' : Cursor} (hc : c.EndsOnce) (hc' : c'.EndsOnce) (before : c'.before = c.before)
    (h : statement n c = .error fault d) (pass : c.Passes us d) (hup : c'.upcoming = us ++ t :: r)
    (demanded : t.kind ∈ fault.demand.kinds) (h' : statement n c' = .error fault' d') :
    ∃ v vs, c'.Passes (us ++ v :: vs) d' := by
  have twins : Twins (c.remaining + 1) (c'.remaining + 1) c c' :=
    ⟨hc, hc', before, Nat.le_succ _, Nat.le_succ _⟩
  have firm : Firm (c.remaining + 1) (c'.remaining + 1) (some .expression) (statement n)
      (statement n) := firm_statement n
  cases us with
  | nil =>
    -- Nothing was taken: what is demanded is what begins a statement.
    have stays : StaysAt (statement n) c (some .expression) := by
      refine (firm.stands hc (Nat.le_succ _)).resolve_left ?_
      rintro ⟨v, vs, pass'⟩
      rw [h] at pass'
      exact List.cons_ne_nil v vs (pass'.unique pass)
    obtain ⟨hfault, -⟩ : fault = ⟨.expression, c.current⟩ ∧ d = c := by simpa [h] using stays.1
    rw [hfault] at demanded
    have hkind : c'.kind = t.kind := congrArg Token.kind (current_of_upcoming hup)
    obtain ⟨v, vs, pass'⟩ := firm.stands'.takesAt hc' (Nat.le_succ _) (hkind ▸ demanded)
    exact ⟨v, vs, by rwa [h'] at pass'⟩
  | cons u us =>
    have parts := firm.parts twins (List.cons_ne_nil u us) (by rw [h]; exact pass) hup
    rw [PartsBehind, TakesBehind, h, h'] at parts
    refine parts.resolve_right ?_
    rintro ⟨pass', hdemand, unmet⟩
    refine unmet ?_
    obtain ⟨e, pass'', hcurrent⟩ := passes_of_upcoming hup
    have hplace : d' = e := pass'.cursor_unique pass''
    have hfound : fault'.found = t := by
      rw [(moves_statement n).found h', hplace, current_of_upcoming hcurrent]
    rwa [hfound, ← hdemand]

/-- A statement that is refused is, with a token that is demanded in the place of the one found,
not refused before what stands behind that token. The tokens before the statement do not matter. -/
theorem passes_demanded {n : Nesting} {fault fault' : SyntaxFault} {us r : List Token} {t : Token}
    {d' : Cursor} (hc : c.EndsOnce) (hc' : c'.EndsOnce) (h : statement n c = .error fault d)
    (pass : c.Passes us d) (hup : c'.upcoming = us ++ t :: r)
    (demanded : t.kind ∈ fault.demand.kinds) (h' : statement n c' = .error fault' d') :
    ∃ v vs, c'.Passes (us ++ v :: vs) d' := by
  obtain ⟨ws, pass'⟩ : ∃ ws, c'.Passes ws d' := by
    have passes := (moves_statement n).passes c'
    rwa [h'] at passes
  let c'' : Cursor := { c' with before := c.before }
  obtain ⟨d'', pass'', again⟩ :
      ∃ d'', c''.Passes ws d'' ∧ statement n c'' = .error fault' d'' :=
    statement_error_of_ahead hc'.ended rfl rfl pass' h'
  have ends : c''.EndsOnce := ⟨hc'.ended, hc'.ahead⟩
  obtain ⟨v, vs, longer⟩ := passes_demanded_of_before hc ends rfl h pass hup demanded again
  exact ⟨v, vs, pass''.unique longer ▸ pass'⟩

end Parse

/-- A parser before tokens that are the given ones from `s` on and up to `e`, and then one of some
kind, whatever stands behind it, reads a statement or refuses one behind `e`. -/
def AcceptsInstead (tokens : List Token) (limit : Int) (s e : Nat) (k : TokenKind) : Prop :=
  ∀ c : Cursor, c.EndsOnce → c.index = s → (∀ i, s ≤ i → i < e → c.tokens[i]? = tokens[i]?) →
    (∃ t, c.tokens[e]? = some t ∧ t.kind = k) →
    ∀ fault d, Parse.statement ⟨0, limit⟩ c = .error fault d →
      e < d.index ∧ c.tokens[d.index]? = some fault.found

/-- What a mistake's diagnostic says is expected is accepted. A mistake is given by what is claimed
of it. -/
def OffersAccepted (tokens : List Token) (limit : Int) (claim : String × Span) (g : Diagnostic) :
    Prop :=
  ∃ s e t u, tokens[s]? = some t ∧ claim.2.start = t.span.start ∧
    tokens[e]? = some u ∧ g.span = u.span ∧ s ≤ e ∧
    ∀ k : TokenKind, k.text ∈ g.expected → AcceptsInstead tokens limit s e k

theorem TokenKind.ofText?_text (k : TokenKind) : ofText? k.text = some k := by
  cases k <;> decide

theorem TokenKind.text_injective : Function.Injective TokenKind.text := fun k k' h =>
  Option.some.inj (by rw [← ofText?_text k, h, ofText?_text k'])

theorem SyntaxFault.mem_kinds_of_expected {fault : SyntaxFault} {k : TokenKind}
    (h : k.text ∈ fault.expected) : k ∈ fault.demand.kinds :=
  (List.mem_map_of_injective TokenKind.text_injective).1 h

theorem ArisesAt.offersAccepted {tokens : List Token} {limit : Int} {claim : String × Span}
    {g : Diagnostic} {c d : Cursor} {fault : SyntaxFault} {ts us : List Token}
    (h : ArisesAt tokens limit claim g c d fault ts us) : OffersAccepted tokens limit claim g := by
  have hlength : d.index = c.index + ts.length := h.passed.index
  refine ⟨c.index, d.index, c.current, d.current, ?_, h.start_eq, ?_, h.span_eq, by omega,
    fun k hk c' hc' hindex same ⟨t, ht, hkind⟩ fault' d' refused => ?_⟩
  · rw [← h.tokens, getElem?_tokens_index]
  · rw [← h.tokens, ← h.passed.tokens, getElem?_tokens_index]
  have demanded : t.kind ∈ fault.demand.kinds := by
    rw [h.diagnostic] at hk
    exact hkind ▸ SyntaxFault.mem_kinds_of_expected hk
  obtain ⟨r, hr⟩ := upcoming_of_same h.passed.upcoming hindex (by rwa [← hlength, h.tokens])
  have head : r.head? = some t := by
    rw [hlength, ← hindex, getElem?_tokens, hr,
      List.getElem?_append_right (Nat.le_refl _), Nat.sub_self] at ht
    rwa [List.head?_eq_getElem?]
  obtain ⟨r, rfl⟩ := List.head?_eq_some_iff.1 head
  obtain ⟨v, vs, pass⟩ :=
    Parse.passes_demanded h.endsOnce hc' h.refused h.passed hr demanded refused
  have longer : d'.index = c.index + (ts ++ v :: vs).length := by rw [pass.index, hindex]
  rw [List.length_append, List.length_cons] at longer
  refine ⟨by omega, ?_⟩
  rw [← pass.tokens, getElem?_tokens_index, (Parse.moves_statement _).found refused]

/-- With any token in the place of the one found that the diagnostic of a mistake says is expected,
and whatever stands behind it, the statement is read, or refused only behind that token. -/
theorem alternatives_accepted (source : Text) (options : ParserOptions) :
    let parsed := parseDocument source options
    List.Forall₂
      (fun x g => OffersAccepted (structural (scan source)) options.maxDepth x.claim g)
      parsed.document.mistakes (parsed.diagnostics.filter (·.kind == .grammatical)) :=
  (mistakes_arise source options).imp fun _ _ ⟨_, _, _, _, _, h⟩ => h.offersAccepted

end RelationNotation
