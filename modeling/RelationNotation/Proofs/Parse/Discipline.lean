import RelationNotation.Proofs.Parse.Counting
import RelationNotation.Proofs.Parse.Mistake
import RelationNotation.Proofs.Tree.Spans

/-!
What the productions of the parser leave behind. Wherever a parser stands among the tokens of a text,
and whatever it is to read there, it stops at its place or behind it, at the end of the input at the
furthest; a node it returns stands over the tokens it has passed, and what it refuses is the token it
stops at. All this is said of a parser that counts its depth, up where a level is entered and down
where it is left. Main statement: `productions_disciplined`.
-/

namespace RelationNotation

open Token

/-! ### Routines that return nodes -/

namespace Parse

/-- The routine moves on whatever the outcome, and a node it returns stands over the tokens passed. -/
structure ReadsOver (p : Parse Node) : Prop where
  moves : Moves p
  stands : ∀ ⦃c d : Cursor⦄ ⦃x : Node⦄, c.Ended → StandApart c.ahead → p c = .ok x d →
    ∃ ts, c.Passes ts d ∧ x.Over ts

theorem readsOver_of_spells {α : Type} {p : Parse α} {spelled : α → List Token → Token → Prop}
    {toNode : α → Node} (moves : Moves p) (spells : Spells p spelled)
    (stands : ∀ ⦃x ts next⦄, spelled x ts next → StandApart ts → (toNode x).Over ts) :
    ReadsOver (toNode <$> p) where
  moves := moves_map toNode moves
  stands c d x ended apart h := by
    rw [map_eq_bind] at h
    obtain ⟨y, e, hy, h⟩ := bind_ok h
    cases h
    obtain ⟨ts, pass, hspelled⟩ := spells ended hy
    refine ⟨ts, pass, stands hspelled (apart.sublist ?_)⟩
    rw [pass.ahead]
    exact List.sublist_append_left ts _

theorem readsOver_string : ReadsOver (StringValue.toNode <$> string) := by
  have spells : Spells string fun x ts _ => ∃ t, ts = [t] ∧ x.SpelledBy t := by
    intro c d x hc h
    obtain ⟨t, pass, spelled⟩ := string_spelled hc h
    exact ⟨[t], pass, t, rfl, spelled⟩
  refine readsOver_of_spells moves_string spells ?_
  rintro x ts - ⟨t, rfl, spelled⟩ -
  exact spelled.over

theorem readsOver_gacStem (n : Nesting) : ReadsOver (GacStem.toNode <$> gacStem n) :=
  readsOver_of_spells (moves_gacStemWith moves_gacString n)
    (gacStemWith_spelled (nested_gacString_spelled n)) fun _ _ _ h _ => h.over GacString.SpelledIn.over

theorem readsOver_gacString (n : Nesting) : ReadsOver (Node.gacString <$> gacString n) :=
  readsOver_of_spells (moves_gacString n) (gacString_spelled n) fun _ _ _ h _ =>
    h.over GacString.SpelledIn.over

theorem readsOver_blockElement (n : Nesting) : ReadsOver (Element.toNode <$> blockElement n) :=
  readsOver_of_spells (moves_elementWith moves_blockBody n)
    (elementWith_spelled (nested_bracedWith_spelled (blockBody_spelled n.deeper)))
    fun _ _ _ h apart => h.over RightSide.SpelledIn.over apart

theorem readsOver_blockBody (n : Nesting) : ReadsOver (Node.blockBody <$> blockBody n) :=
  readsOver_of_spells (moves_blockBody n) (blockBody_spelled n) fun _ _ _ h apart =>
    h.over RightSide.SpelledIn.over apart

theorem readsOver_production {name : String} {routine : Nesting → Parse Node}
    (h : production? name = some routine) (n : Nesting) : ReadsOver (routine n) := by
  unfold production? at h
  split at h <;> cases h
  · exact readsOver_of_spells (moves_statement n) (statement_spelled n) fun _ _ _ h => h.over
  · exact readsOver_of_spells (moves_functionBlock n) (functionBlock_spelled n) fun _ _ _ h => h.over
  · exact readsOver_of_spells (moves_expression n) (expression_spelled n) fun _ _ _ h _ => h.over
  · exact readsOver_string
  · exact readsOver_of_spells moves_typeDesc typeDesc_spelled fun _ _ _ h _ => h.over
  · exact readsOver_of_spells (moves_typeWord n) (typeWord_spelled n) fun _ _ _ h _ => h.over
  · exact readsOver_gacString n
  · exact readsOver_gacStem n
  · exact readsOver_of_spells moves_fycoide fycoide_spelled fun _ _ _ h _ => h.over
  · exact readsOver_of_spells moves_pointerRef pointerRef_spelled fun _ _ _ h _ => h.over
  · exact readsOver_of_spells moves_pointer pointer_spelled fun _ _ _ h _ => h.over
  · exact readsOver_of_spells moves_pointerId pointerId_spelled fun _ _ _ h _ => h.over
  · exact readsOver_blockBody n
  · exact readsOver_blockElement n
  · exact readsOver_of_spells moves_includeBlock includeBlock_spelled fun _ _ _ h _ => h.over

end Parse

/-! ### Places among the tokens of a text -/

theorem originOver_span {ts : List Token} (h : ts ≠ []) :
    (originOver ts).span = ⟨(ts.head h).span.start, (ts.getLast h).span.stop⟩ := by
  cases ts with
  | nil => exact absurd rfl h
  | cons t ts =>
    rw [originOver, spanTo, List.getLastD_eq_getLast?, List.getLast?_eq_some_getLast h]
    rfl

namespace Cursor
variable {c d : Cursor} {ts : List Token}

/-- The first and the last of the tokens passed stand at the two places of the cursor. -/
theorem Passes.ends (h : c.Passes ts d) (hts : ts ≠ []) :
    c.tokens[c.index]? = ts.head? ∧ c.tokens[d.index - 1]? = ts.getLast? := by
  have place (i : Nat) (hi : i < ts.length) : c.tokens[c.index + i]? = ts[i]? := by
    rw [getElem?_tokens, h.upcoming, List.getElem?_append_left hi]
  have hlen := List.length_pos_iff.2 hts
  refine ⟨?_, ?_⟩
  · rw [List.head?_eq_getElem?, ← place 0 hlen, Nat.add_zero]
  · rw [List.getLast?_eq_getElem?, ← place (ts.length - 1) (by omega), h.index,
      Nat.add_sub_assoc hlen]

/-- Among the structural tokens of a text those ahead stand apart, with the end of the input behind
them. -/
theorem standApart_ahead {source : Text} (h : c.tokens = structural (scan source)) :
    c.Ended ∧ StandApart c.ahead := by
  rw [tokens] at h
  obtain ⟨hahead, hstop⟩ := startOf_split h.symm 0
  constructor
  · rw [Ended, ← hstop]
    exact (reads_startOf source 0).endsOnce.ended
  · have apart := standApart_startOf source 0
    rw [hahead] at apart
    exact apart.sublist (List.sublist_append_right _ _)

/-- No place among the structural tokens of a text is behind the end of the input. -/
theorem index_le_findIdx {source : Text} (h : c.tokens = structural (scan source)) :
    c.index ≤ c.tokens.findIdx (·.kind == .endOfInput) := by
  rw [tokens] at h
  obtain ⟨hahead, -⟩ := startOf_split h.symm 0
  have passed : ¬ ∃ t ∈ c.before.reverse, (t.kind == .endOfInput) = true := by
    rintro ⟨t, ht, hkind⟩
    refine (reads_startOf source 0).endsOnce.ahead t ?_ (eq_of_beq hkind)
    rw [hahead]
    exact List.mem_append_left _ ht
  rw [tokens, List.append_assoc, List.findIdx_append, if_neg (mt List.findIdx_lt_length.1 passed),
    List.length_reverse, index]
  exact Nat.le_add_left _ _

end Cursor

/-! ### Sessions before and behind a routine -/

namespace Session

/-- What the answer of a routine says, for tokens and the indexes at which a parser stood before and
stands now: a node runs from the first token passed to the last, a fault is about the token that the
parser stands at. -/
def Answers (tokens : List Token) (start stop : Nat) : Except SyntaxFault Node → Prop
  | .ok x => start < stop ∧ ∃ first last, tokens[start]? = some first ∧
      tokens[stop - 1]? = some last ∧ x.span = ⟨first.span.start, last.span.stop⟩
  | .error fault => ∃ t, tokens[stop]? = some t ∧ fault.span = t.span

/-- What a routine may do to a parser: it answers, and moves the parser on among its tokens, to the
end of the input at the furthest. Nothing else changes. -/
structure Disciplined (before : Session) (answer : Except SyntaxFault Node) (behind : Session) :
    Prop where
  nesting : behind.nesting = before.nesting
  diagnostics : behind.diagnostics = before.diagnostics
  tokens : behind.cursor.tokens = before.cursor.tokens
  onward : before.cursor.index ≤ behind.cursor.index
  bounded : behind.cursor.index ≤ before.cursor.tokens.findIdx (·.kind == .endOfInput)
  answers : Answers before.cursor.tokens before.cursor.index behind.cursor.index answer

theorem disciplined_of_passes {s : Session} {source : Text} {ts : List Token} {d : Cursor}
    {answer : Except SyntaxFault Node} (hs : s.cursor.tokens = structural (scan source))
    (pass : s.cursor.Passes ts d)
    (answers : Answers s.cursor.tokens s.cursor.index d.index answer) :
    s.Disciplined answer { s with cursor := d } where
  nesting := rfl
  diagnostics := rfl
  tokens := pass.tokens
  onward := by
    rw [pass.index]
    exact Nat.le_add_right _ _
  bounded := by
    rw [← pass.tokens]
    exact Cursor.index_le_findIdx (pass.tokens.trans hs)
  answers := answers

theorem disciplined_of_readsOver {s : Session} {source : Text} {routine : Nesting → Parse Node}
    (hs : s.cursor.tokens = structural (scan source))
    (h : Parse.ReadsOver (routine s.nesting)) :
    s.Disciplined (s.run routine).1 (s.run routine).2 := by
  obtain ⟨ended, apart⟩ := Cursor.standApart_ahead hs
  cases hr : routine s.nesting s.cursor with
  | ok x d =>
    obtain ⟨ts, pass, hover⟩ := h.stands ended apart hr
    have nonempty := hover.ne_nil
    obtain ⟨first, last⟩ := pass.ends nonempty
    rw [run_of_ok hr]
    refine disciplined_of_passes hs pass ⟨?_, ts.head nonempty, ts.getLast nonempty, ?_, ?_, ?_⟩
    · rw [pass.index]
      exact Nat.lt_add_of_pos_right (List.length_pos_iff.2 nonempty)
    · rw [first, List.head?_eq_some_head]
    · rw [last, List.getLast?_eq_some_getLast]
    · rw [hover.span_eq, originOver_span nonempty]
  | error fault d =>
    obtain ⟨ts, pass⟩ := h.moves.passes s.cursor
    rw [hr] at pass
    rw [run_of_error hr]
    refine disciplined_of_passes hs pass ⟨d.current, ?_, ?_⟩
    · rw [← pass.tokens]
      exact d.getElem?_tokens_index
    · rw [SyntaxFault.span, h.moves.found hr]

/-- The names of the productions. -/
def productionNames : List String :=
  ["statement", "function_block", "expression", "string", "type_desc", "type_word", "gac_string",
    "gac_stem", "fycoide", "pointer_ref", "pointer", "pointer_id", "block_body", "block_element",
    "include"]

theorem isSome_production? :
    ∀ name ∈ productionNames, (Parse.production? name).isSome = true := by decide

end Session

/-- A routine that is disciplined if it is handed its depth is so if it counts it. -/
theorem Routine.disciplined_step {s : Session} (r : Routine Node)
    (h : s.Disciplined (s.run r.read).1 (s.run r.read).2) :
    s.Disciplined (r.step s).1 (r.step s).2 := by
  have nesting := r.nesting_step s
  rw [r.step_eq_run] at nesting ⊢
  exact { h with nesting }

/-- Wherever a parser stands among the structural tokens of a text, every production, run with its
depth counted up where it enters a level and down where it leaves it, leaves the depth and the
diagnostics as they are, and the parser at its place or behind it, at the end of the input at the
furthest. If a node is returned, it runs from the first of the tokens passed, of which there is one
at least, to the last; if not, the fault is about the token at which the parser stops. It is all the
same if the depth is handed down: for a whole production, and for what is read in a level of its own
in whatever production. -/
theorem productions_disciplined {s : Session} {source : Text}
    (hs : s.cursor.tokens = structural (scan source)) :
    (∀ name ∈ Session.productionNames, ∃ routine : Routine Node,
      Parse.production? name = some routine.read ∧
        s.Disciplined (routine.step s).1 (routine.step s).2 ∧
        routine.step s = s.run routine.read) ∧
    ∀ {α : Type} (routine : Nesting → Parse α),
      s.run (fun n => Parse.nested n routine) = s.runInLevel routine := by
  refine ⟨fun name hname => ?_, s.run_nested⟩
  obtain ⟨production, h⟩ := Option.isSome_iff_exists.1 (Session.isSome_production? name hname)
  obtain ⟨routine, rfl⟩ := Parse.counted_production h
  have handed := Session.disciplined_of_readsOver hs (Parse.readsOver_production h s.nesting)
  exact ⟨routine, h, routine.disciplined_step handed, routine.step_eq_run s⟩

/-- The body of a block runs up to the comma behind its last element. -/
theorem productions_disciplined_trailing_comma :
    let start := startOf "\x7b[b],\x7d".toList 3
    let s : Session := { start with cursor := start.cursor.advance, nesting := ⟨1, 3⟩ }
    s.cursor.tokens = structural (scan s.source) ∧
      ∃ (routine : Routine Node) (x : Node), Parse.production? "block_body" = some routine.read ∧
        (routine.step s).1 = .ok x ∧ x.span = ⟨⟨1, 1, 2⟩, ⟨5, 1, 6⟩⟩ ∧
        (routine.step s).2.cursor.index = 5 ∧ (routine.step s).2.nesting = s.nesting := by
  intro start s
  have tokens : s.cursor.tokens = structural (scan s.source) := by decide +kernel
  obtain ⟨routine, hroutine, disciplined, handed⟩ :=
    (productions_disciplined tokens).1 "block_body" (by decide)
  have read : (fun n => Node.blockBody <$> Parse.blockBody n) = routine.read :=
    Option.some.inj hroutine
  rw [← read] at handed
  have index : (routine.step s).2.cursor.index = 5 := by
    rw [handed]
    decide +kernel
  have returned : (routine.step s).1.isOk = true := by
    rw [handed]
    decide +kernel
  have answers := disciplined.answers
  rw [index] at answers
  generalize hx : (routine.step s).1 = answer at returned answers
  cases answer with
  | error fault => cases returned
  | ok x =>
    obtain ⟨-, first, last, hfirst, hlast, span⟩ := answers
    have start : s.cursor.tokens[s.cursor.index]?.map (·.span.start) = some ⟨1, 1, 2⟩ := by
      decide +kernel
    have stop : s.cursor.tokens[5 - 1]?.map (·.span.stop) = some ⟨5, 1, 6⟩ := by decide +kernel
    rw [hfirst] at start
    rw [hlast] at stop
    refine ⟨tokens, routine, x, hroutine, hx, ?_, index, disciplined.nesting⟩
    rw [span, ← Option.some.inj start, ← Option.some.inj stop]

end RelationNotation
