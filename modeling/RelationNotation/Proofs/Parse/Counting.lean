import RelationNotation.Parse.Production
import RelationNotation.Proofs.Parse.Movement

/-!
Depth handed down and depth counted. A routine is handed its depth; a parser that keeps its depth
counts it up where a level is entered and down where it is left. Written by its steps, a routine can
be run either way, with the same answer and the same cursor: `Routine.step_eq_run`. Every production
is written so: `counted_production`.
-/

namespace RelationNotation

/-- A routine by its steps: what has no levels, one step behind another, and what is read in a level
of its own. -/
inductive Routine : Type → Type 1 where
  | flat {α : Type} (p : Parse α) : Routine α
  | bind {α β : Type} (first : Routine α) (further : α → Routine β) : Routine β
  | inLevel {α : Type} (inner : Routine α) : Routine α

/-- The routine with its depth handed down. -/
def Routine.read {α : Type} : Routine α → Nesting → Parse α
  | flat p, _ => p
  | bind first further, n => first.read n >>= fun x => (further x).read n
  | inLevel inner, n => Parse.nested n inner.read

/-- The routine with its depth counted by the parser: a level that is entered is left, whatever comes
of what is read in it. -/
def Routine.step {α : Type} : Routine α → Session → Except SyntaxFault α × Session
  | flat p, s => s.run fun _ => p
  | bind first further, s =>
    match first.step s with
    | (.ok x, behind) => (further x).step behind
    | (.error fault, behind) => (.error fault, behind)
  | inLevel inner, s =>
    match s.enter with
    | (.ok _, entered) => ((inner.step entered).1, (inner.step entered).2.leave)
    | (.error fault, entered) => (.error fault, entered)

namespace Session
variable {α β : Type} {s : Session} {p : Nesting → Parse α} {d : Cursor}

theorem run_of_ok {x : α} (h : p s.nesting s.cursor = .ok x d) :
    s.run p = (.ok x, { s with cursor := d }) := by
  rw [run, h]

theorem run_of_error {fault : SyntaxFault} (h : p s.nesting s.cursor = .error fault d) :
    s.run p = (.error fault, { s with cursor := d }) := by
  rw [run, h]

theorem nesting_run (s : Session) (p : Nesting → Parse α) : (s.run p).2.nesting = s.nesting := by
  unfold run
  split <;> rfl

/-- One routine behind another runs where the first leaves the parser, unless the first fails. -/
theorem run_bind (s : Session) (p : Nesting → Parse α) (f : α → Nesting → Parse β) :
    s.run (fun n => p n >>= fun x => f x n) =
      match s.run p with
      | (.ok x, behind) => behind.run (f x)
      | (.error fault, behind) => (.error fault, behind) := by
  cases h : p s.nesting s.cursor with
  | ok x d =>
    rw [run_of_ok h]
    dsimp only [run]
    rw [Parse.bind_of_ok h]
  | error fault d =>
    rw [run_of_error h, run_of_error (Parse.bind_of_error h)]

theorem enter_of_ge (limit : s.nesting.depth ≥ s.nesting.limit) :
    s.enter = (.error ⟨.shallower s.nesting.limit, s.cursor.current⟩, s) := if_pos limit

theorem enter_of_lt (limit : ¬ s.nesting.depth ≥ s.nesting.limit) :
    s.enter = (.ok (), { s with nesting := s.nesting.deeper }) := if_neg limit

/-- Enters a level, runs a routine there and leaves the level, whatever the routine answers. -/
def runInLevel {α : Type} (s : Session) (routine : Nesting → Parse α) :
    Except SyntaxFault α × Session :=
  match s.enter with
  | (.error fault, entered) => (.error fault, entered)
  | (.ok _, entered) => ((entered.run routine).1, (entered.run routine).2.leave)

/-- A level handed down is a level entered and left. -/
theorem run_nested {α : Type} (s : Session) (routine : Nesting → Parse α) :
    s.run (fun n => Parse.nested n routine) = s.runInLevel routine := by
  by_cases limit : s.nesting.depth ≥ s.nesting.limit
  · have refused : Parse.nested s.nesting routine s.cursor =
        .error ⟨.shallower s.nesting.limit, s.cursor.current⟩ s.cursor := by
      rw [Parse.nested, if_pos limit, Parse.refuse_apply]
    rw [runInLevel, enter_of_ge limit, run_of_error refused]
  · have read : Parse.nested s.nesting routine = routine s.nesting.deeper := if_neg limit
    have left : s.nesting.deeper.depth - 1 = s.nesting.depth := Int.add_sub_cancel _ _
    rw [runInLevel, enter_of_lt limit]
    dsimp only
    cases h : routine s.nesting.deeper s.cursor with
    | ok x d =>
      rw [run_of_ok (read ▸ h), run_of_ok h, leave]
      dsimp only
      rw [left]
      rfl
    | error fault d =>
      rw [run_of_error (read ▸ h), run_of_error h, leave]
      dsimp only
      rw [left]
      rfl

end Session

namespace Routine
variable {α : Type}

/-- Every level that is entered is left: behind a routine the depth is what it was before. -/
theorem nesting_step (r : Routine α) (s : Session) : (r.step s).2.nesting = s.nesting := by
  induction r generalizing s with
  | flat p => exact s.nesting_run fun _ => p
  | bind first further ihFirst ihFurther =>
    rw [step]
    have before := ihFirst s
    split
    next x behind h =>
      rw [h] at before
      exact (ihFurther x behind).trans before
    next fault behind h =>
      rw [h] at before
      exact before
  | inLevel inner ih =>
    rw [step]
    by_cases limit : s.nesting.depth ≥ s.nesting.limit
    · rw [Session.enter_of_ge limit]
    · rw [Session.enter_of_lt limit]
      dsimp only [Session.leave]
      rw [ih, Nesting.deeper]
      dsimp only
      rw [Int.add_sub_cancel]

/-- To count the depth comes to the same as to hand it down. -/
theorem step_eq_run (r : Routine α) (s : Session) : r.step s = s.run r.read := by
  induction r generalizing s with
  | flat p => rfl
  | bind first further ihFirst ihFurther =>
    rw [step, ihFirst]
    refine Eq.trans ?_ (s.run_bind first.read fun x => (further x).read).symm
    cases s.run first.read with
    | mk answer behind =>
      cases answer with
      | ok x => exact ihFurther x behind
      | error fault => rfl
  | inLevel inner ih =>
    refine Eq.trans ?_ (s.run_nested inner.read).symm
    rw [step, Session.runInLevel]
    cases s.enter with
    | mk answer entered =>
      cases answer with
      | ok _ => simp only [ih]
      | error fault => rfl

end Routine

/-! ### Routines of the parser -/

namespace Parse
variable {α β : Type}

/-- A routine is written by its steps. -/
def Counted (p : Nesting → Parse α) : Prop := ∃ r : Routine α, r.read = p

theorem counted_flat (p : Parse α) : Counted fun _ => p := ⟨.flat p, rfl⟩

theorem counted_bind {p : Nesting → Parse α} {f : α → Nesting → Parse β} (hp : Counted p)
    (hf : ∀ x, Counted (f x)) : Counted fun n => p n >>= fun x => f x n := by
  obtain ⟨first, rfl⟩ := hp
  refine ⟨.bind first fun x => (hf x).choose, funext fun n => congrArg _ (funext fun x => ?_)⟩
  rw [(hf x).choose_spec]

theorem counted_map (g : α → β) {p : Nesting → Parse α} (hp : Counted p) :
    Counted fun n => g <$> p n := by
  simp only [map_eq_bind]
  exact counted_bind hp fun x => counted_flat _

theorem counted_ite {P : Prop} [Decidable P] {p q : Nesting → Parse α} (hp : Counted p)
    (hq : Counted q) : Counted fun n => if P then p n else q n := by
  split
  · exact hp
  · exact hq

theorem counted_nested {inner : Nesting → Parse α} (h : Counted inner) :
    Counted fun n => nested n inner := by
  obtain ⟨r, rfl⟩ := h
  exact ⟨.inLevel r, rfl⟩

theorem counted_gacStemWith {inner : Nesting → Parse GacString} (h : Counted inner) :
    Counted (gacStemWith inner) := by
  refine counted_bind (counted_flat current) fun t => counted_bind (counted_flat get) fun c => ?_
  dsimp only
  -- Only a bracket opens a level.
  cases t.kind with
  | leftBracket =>
    exact counted_bind (counted_flat advance) fun _ => counted_bind (counted_nested h) fun _ =>
      counted_flat _
  | _ => exact counted_flat _

theorem counted_manyWithin (kinds : List TokenKind) {item : Nesting → Parse α} (h : Counted item) :
    ∀ k, Counted fun n => manyWithin kinds (item n) k
  | 0 => counted_flat _
  | k + 1 => counted_bind (counted_flat kind) fun _ => counted_ite
      (counted_bind h fun _ => counted_bind (counted_manyWithin kinds h k) fun _ => counted_flat _)
      (counted_flat _)

theorem counted_gacStringWithin : ∀ k, Counted (gacStringWithin k)
  | 0 => counted_flat _
  | k + 1 => counted_bind (counted_flat current) fun _ => counted_bind
      (counted_bind (counted_flat get) fun _ => counted_manyWithin _
        (counted_gacStemWith (counted_gacStringWithin k)) _) fun _ => counted_flat _

theorem counted_gacString : Counted gacString :=
  counted_bind (counted_flat get) fun _ => counted_gacStringWithin _

theorem counted_gacStem : Counted gacStem := counted_gacStemWith counted_gacString

theorem counted_typeWord : Counted typeWord := by
  refine counted_bind (counted_flat current) fun start =>
    counted_bind (counted_flat (accept [.protoOpen])) fun proto => ?_
  have rest : Counted fun n => typeWordRest n start proto :=
    counted_bind (counted_nested counted_gacString) fun _ => counted_flat _
  exact counted_ite rest (counted_bind (counted_flat (expect .leftBracket)) fun _ => rest)

theorem counted_expression : Counted expression := by
  refine counted_bind (counted_flat kind) fun k => ?_
  cases k with
  | leftBracket | protoOpen => exact counted_typeWord
  | _ => exact counted_flat _

section
variable {body : Nesting → Parse BlockBody} (h : Counted body)
include h

theorem counted_bracedWith : Counted (bracedWith body) :=
  counted_bind (counted_flat kind) fun _ =>
    counted_ite (counted_flat _) (counted_bind h fun _ => counted_flat _)

theorem counted_relationWith (left : Expression) : Counted fun n => relationWith body n left := by
  refine counted_bind (counted_flat kind) fun k => ?_
  cases RelationKind.ofToken? k with
  | none => exact counted_flat _
  | some relation =>
    exact counted_bind (counted_flat advance) fun _ => counted_bind (counted_flat kind) fun _ =>
      counted_ite
        (counted_bind (counted_flat advance) fun _ =>
          counted_bind (counted_nested (counted_bracedWith h)) fun _ => counted_flat _)
        (counted_bind counted_expression fun _ => counted_flat _)

theorem counted_elementWith : Counted (elementWith body) :=
  counted_bind (counted_flat kind) fun _ => counted_ite (counted_flat _)
    (counted_bind counted_expression fun _ => counted_bind (counted_flat kind) fun _ => counted_ite
      (counted_bind (counted_relationWith h _) fun _ => counted_flat _) (counted_flat _))

end

theorem counted_furtherElements {element : Nesting → Parse Element} (h : Counted element) :
    ∀ k, Counted fun n => furtherElements (element n) k
  | 0 => counted_flat _
  | k + 1 => counted_bind (counted_flat (accept [.comma])) fun _ => counted_ite
      (counted_bind (counted_flat kind) fun _ => counted_ite (counted_flat _)
        (counted_bind h fun _ => counted_bind (counted_furtherElements h k) fun _ =>
          counted_flat _))
      (counted_flat _)

theorem counted_blockBodyWithin : ∀ k, Counted (blockBodyWithin k)
  | 0 => counted_flat _
  | k + 1 =>
    have element := counted_elementWith (counted_blockBodyWithin k)
    counted_bind (counted_flat current) fun _ => counted_bind element fun _ =>
      counted_bind (counted_flat get) fun _ =>
        counted_bind (counted_furtherElements element _) fun _ => counted_flat _

theorem counted_blockBody : Counted blockBody :=
  counted_bind (counted_flat get) fun _ => counted_blockBodyWithin _

theorem counted_blockElement : Counted blockElement := counted_elementWith counted_blockBody

theorem counted_functionBlock : Counted functionBlock :=
  counted_bind (counted_flat kind) fun _ => counted_ite (counted_flat _)
    (counted_bind counted_expression fun _ =>
      counted_bind (counted_relationWith counted_blockBody _) fun _ => counted_flat _)

theorem counted_statement : Counted statement := by
  refine counted_bind (counted_flat current) fun t => ?_
  cases t.kind with
  | semicolon | dashComment => exact counted_flat _
  | _ => exact counted_bind counted_functionBlock fun _ => counted_flat _

theorem counted_production {name : String} {routine : Nesting → Parse Node}
    (h : production? name = some routine) : Counted routine := by
  unfold production? at h
  split at h <;> cases h
  · exact counted_map _ counted_statement
  · exact counted_map _ counted_functionBlock
  · exact counted_map _ counted_expression
  · exact counted_flat _
  · exact counted_flat _
  · exact counted_map _ counted_typeWord
  · exact counted_map _ counted_gacString
  · exact counted_map _ counted_gacStem
  · exact counted_flat _
  · exact counted_flat _
  · exact counted_flat _
  · exact counted_flat _
  · exact counted_map _ counted_blockBody
  · exact counted_map _ counted_blockElement
  · exact counted_flat _

end Parse

end RelationNotation
