import RelationNotation.Proofs.Token.Tiling

/-!
Where dash comments end. The first run of four dashes or more behind the fence of a comment closes
it, if that run is four dashes long; a longer run closes nothing, and no later run does. Runs are
known by the indexes of their dashes, and the count that `commentRest` keeps is measured against
them: `commentEnds_commentRest`. Main statement: `comment_ends`.
-/

namespace RelationNotation

open Token

/-! ### Runs of dashes -/

/-- So many dashes in a row from an index on, and no dash on either side of them. -/
structure DashRun (r : Text) (i n : Nat) : Prop where
  dashes : ∀ j, i ≤ j → j < i + n → r[j]? = some '-'
  front : ∀ j, j + 1 = i → r[j]? ≠ some '-'
  behind : r[i + n]? ≠ some '-'

/-- The first run of four dashes or more. -/
structure FirstLongRun (r : Text) (i n : Nat) : Prop where
  run : DashRun r i n
  long : 4 ≤ n
  first : ∀ j k, DashRun r j k → 4 ≤ k → i ≤ j

theorem DashRun.length_unique {r : Text} {i n k : Nat} (h : DashRun r i n) (h' : DashRun r i k) :
    n = k := by
  rcases Nat.lt_trichotomy n k with hlt | heq | hlt
  · exact absurd (h'.dashes (i + n) (by omega) (by omega)) h.behind
  · exact heq
  · exact absurd (h.dashes (i + k) (by omega) (by omega)) h'.behind

theorem FirstLongRun.unique {r : Text} {i j n k : Nat} (h : FirstLongRun r i n)
    (h' : FirstLongRun r j k) : i = j ∧ n = k := by
  obtain rfl : i = j :=
    Nat.le_antisymm (h.first j k h'.run h'.long) (h'.first i n h.run h.long)
  exact ⟨rfl, h.run.length_unique h'.run⟩

theorem FirstLongRun.le_length {r : Text} {i n : Nat} (h : FirstLongRun r i n) :
    i + n ≤ r.length := by
  have long := h.long
  have last := h.run.dashes (i + (n - 1)) (by omega) (by omega)
  have := (List.getElem?_eq_some_iff.1 last).1
  omega

/-- Dashes at the start of a text are its first long run, if there are four of them or more and no
dash follows. -/
theorem firstLongRun_replicate {n : Nat} {s : Text} (hn : 4 ≤ n) (hs : s.head? ≠ some '-') :
    FirstLongRun (List.replicate n '-' ++ s) 0 n where
  run := by
    refine ⟨fun j _ hj => ?_, fun j hj => absurd hj (Nat.succ_ne_zero j), ?_⟩
    · rw [Nat.zero_add] at hj
      rw [List.getElem?_append_left (by simpa using hj), List.getElem?_replicate, if_pos hj]
    · rw [List.getElem?_append_right (by simp), List.length_replicate, Nat.zero_add, Nat.sub_self,
        ← List.head?_eq_getElem?]
      exact hs
  long := hn
  first _ _ _ _ := Nat.zero_le _

section
variable {a s : Text} {c : Char}

theorem getElem?_behind (j : Nat) : (a ++ c :: s)[a.length + 1 + j]? = s[j]? := by
  rw [List.getElem?_append_right (by omega), show a.length + 1 + j - a.length = j + 1 by omega,
    List.getElem?_cons_succ]

/-- The runs behind a character that is no dash are those of the text behind it. -/
theorem dashRun_behind (hc : c ≠ '-') {i n : Nat} :
    DashRun (a ++ c :: s) (a.length + 1 + i) n ↔ DashRun s i n := by
  constructor
  · intro h
    refine ⟨fun j hi hj => ?_, fun j hj => ?_, ?_⟩
    · rw [← getElem?_behind (a := a) (c := c)]
      exact h.dashes _ (by omega) (by omega)
    · rw [← getElem?_behind (a := a) (c := c)]
      exact h.front _ (by omega)
    · rw [← getElem?_behind (a := a) (c := c), ← Nat.add_assoc]
      exact h.behind
  · intro h
    refine ⟨fun j hi hj => ?_, fun j hj => ?_, ?_⟩
    · obtain ⟨j, rfl⟩ : ∃ k, j = a.length + 1 + k := ⟨j - (a.length + 1), by omega⟩
      rw [getElem?_behind]
      exact h.dashes j (by omega) (by omega)
    · cases i with
      | zero =>
        obtain rfl : j = a.length := by omega
        simpa using hc
      | succ i =>
        obtain rfl : j = a.length + 1 + i := by omega
        rw [getElem?_behind]
        exact h.front i rfl
    · rw [Nat.add_assoc, getElem?_behind]
      exact h.behind

/-- A long run does not begin among fewer than four characters in front of one that is no dash. -/
theorem DashRun.begins_behind {i n : Nat} (h : DashRun (a ++ c :: s) i n) (ha : a.length < 4)
    (hc : c ≠ '-') (hn : 4 ≤ n) : ∃ j, i = a.length + 1 + j := by
  by_contra hi
  have hle : i ≤ a.length := by
    by_contra hlt
    exact hi ⟨i - (a.length + 1), by omega⟩
  have hdash := h.dashes a.length hle (by omega)
  rw [List.getElem?_append_right (Nat.le_refl _), Nat.sub_self, List.getElem?_cons_zero] at hdash
  exact hc (Option.some.inj hdash)

theorem FirstLongRun.behind {i n : Nat} (h : FirstLongRun s i n) (ha : a.length < 4)
    (hc : c ≠ '-') : FirstLongRun (a ++ c :: s) (a.length + 1 + i) n where
  run := (dashRun_behind hc).2 h.run
  long := h.long
  first j k hrun hk := by
    obtain ⟨j, rfl⟩ := hrun.begins_behind ha hc hk
    have := h.first j k ((dashRun_behind hc).1 hrun) hk
    omega

end

theorem exists_dashes (s : Text) :
    ∃ n rest, s = List.replicate n '-' ++ rest ∧ rest.head? ≠ some '-' := by
  induction s with
  | nil => exact ⟨0, [], rfl, by simp⟩
  | cons c s ih =>
    by_cases hc : c = '-'
    · obtain ⟨n, rest, rfl, hrest⟩ := ih
      exact ⟨n + 1, rest, by rw [hc]; rfl, hrest⟩
    · exact ⟨0, c :: s, rfl, by simpa using hc⟩

/-! ### The count of the scanner -/

/-- How a dash comment ends, given the text behind its fence: behind the first long run, or nowhere,
because that run is too long or because there is none. -/
inductive CommentEnds (r : Text) : Except ScanFault Nat → Prop where
  | closed {i : Nat} (run : FirstLongRun r i 4) : CommentEnds r (.ok (i + 4))
  | overlong {i n : Nat} (run : FirstLongRun r i n) (long : 4 < n) :
      CommentEnds r (.error .longDashRun)
  | unclosed (short : ∀ i n, DashRun r i n → n < 4) : CommentEnds r (.error .unclosedComment)

theorem CommentEnds.behind {a s : Text} {c : Char} {e : Except ScanFault Nat}
    (h : CommentEnds s e) (ha : a.length < 4) (hc : c ≠ '-') :
    CommentEnds (a ++ c :: s) (e.map (· + (a.length + 1))) := by
  cases h with
  | @closed i run =>
    rw [Except.map, show i + 4 + (a.length + 1) = a.length + 1 + i + 4 by omega]
    exact .closed (run.behind ha hc)
  | overlong run long => exact .overlong (run.behind ha hc) long
  | unclosed short =>
    refine .unclosed fun i n run => ?_
    by_contra hn
    obtain ⟨j, rfl⟩ := run.begins_behind ha hc (by omega)
    exact hn (short j n ((dashRun_behind hc).1 run))

theorem map_add_map_add (e : Except ScanFault Nat) (a b : Nat) :
    (e.map (· + a)).map (· + b) = e.map (· + (a + b)) := by
  cases e with
  | error fault => rfl
  | ok n => exact congrArg Except.ok (Nat.add_assoc n a b)

/-- Behind some dashes in a row, at most four, the scanner goes on to the end of the comment. -/
theorem commentEnds_counted {run : Nat} (hrun : run ≤ 4) (s : Text) :
    CommentEnds (List.replicate run '-' ++ s) ((Lexeme.commentRest run s).map (· + run)) := by
  -- The dashes counted stand in front of the text that is left, so no run is cut by the induction.
  induction s generalizing run with
  | nil =>
    rw [Lexeme.commentRest]
    split
    next h =>
      subst h
      exact .closed (firstLongRun_replicate (Nat.le_refl 4) (by simp))
    next h =>
      refine .unclosed fun i n hr => ?_
      by_contra hn
      have hdash := hr.dashes (i + 3) (by omega) (by omega)
      rw [List.append_nil, List.getElem?_replicate] at hdash
      split at hdash
      · omega
      · cases hdash
  | cons c s ih =>
    rw [Lexeme.commentRest]
    by_cases hc : c = '-'
    · subst hc
      rw [if_pos rfl]
      have grown : List.replicate run '-' ++ '-' :: s = List.replicate (run + 1) '-' ++ s := by
        rw [List.replicate_succ', List.append_assoc, List.singleton_append]
      rw [grown]
      split
      next h =>
        obtain ⟨n, rest, rfl, hrest⟩ := exists_dashes s
        rw [← List.append_assoc, List.replicate_append_replicate]
        exact .overlong (firstLongRun_replicate (by omega) hrest) (by omega)
      next h =>
        rw [map_add_map_add, Nat.add_comm 1]
        exact ih (by omega)
    · rw [if_neg hc]
      split
      next h =>
        subst h
        exact .closed (firstLongRun_replicate (Nat.le_refl 4) (by simpa using hc))
      next h =>
        have further := (ih (Nat.zero_le 4)).behind (a := List.replicate run '-')
          (by rw [List.length_replicate]; omega) hc
        rw [map_add_map_add, List.length_replicate, Nat.zero_add, Nat.add_comm run] at further
        rw [map_add_map_add]
        exact further

theorem commentEnds_commentRest (r : Text) : CommentEnds r (Lexeme.commentRest 0 r) := by
  have h := commentEnds_counted (Nat.zero_le 4) r
  cases hr : Lexeme.commentRest 0 r <;> rw [hr] at h <;> exact h

/-! ### Comments among the tokens -/

theorem lexeme_fence (awaited : Awaited) (first : Bool) (r : Text) :
    lexeme awaited first '-' ('-' :: '-' :: '-' :: r) = Lexeme.dashComment r := by
  unfold lexeme
  rw [if_neg (fun h => absurd h.2 (by decide)), if_neg (by rw [isBlank_dash]; decide),
    if_neg (by simp), if_pos (by simp [dashFence])]
  rfl

theorem dashComment_closed {r : Text} {i : Nat} (h : FirstLongRun r i 4) :
    Lexeme.dashComment r = ⟨.dashComment, dashFence ++ r.take (i + 4), none⟩ := by
  have ends := commentEnds_commentRest r
  unfold Lexeme.dashComment
  generalize Lexeme.commentRest 0 r = e at ends
  cases ends with
  | closed run => rw [(run.unique h).1]
  | overlong run long => exact absurd (run.unique h).2 (by omega)
  | unclosed short => exact absurd (short i 4 h.run) (by decide)

theorem dashComment_unclosed {r : Text} (h : ∀ i, ¬ FirstLongRun r i 4) :
    ∃ fault, Lexeme.dashComment r = ⟨.error, dashFence ++ r, some fault⟩ ∧
      CommentEnds r (.error fault) := by
  have ends := commentEnds_commentRest r
  unfold Lexeme.dashComment
  generalize Lexeme.commentRest 0 r = e at ends
  cases ends with
  | closed run => exact absurd run (h _)
  | overlong run long => exact ⟨_, rfl, .overlong run long⟩
  | unclosed short => exact ⟨_, rfl, .unclosed short⟩

/-- Where the text ahead starts with four dashes, the first token is a dash comment or an error. -/
theorem scanFrom_fence (m : ScanMode) (p : Position) {r rest : Text} {l : Lexeme}
    (hl : Lexeme.dashComment r = l) (split : dashFence ++ r = l.text ++ rest) :
    scanFrom m p (dashFence ++ r) = l.toToken p :: scanFrom (m.after l.kind) (p.after l.text) rest :=
  scanFrom_lexeme ((lexeme_fence m.awaited (p.offset == 0) r).trans hl) split

/-- The scanner takes four dashes, wherever it meets them, for the fence of a dash comment. If the
first long run behind them is four dashes long, the comment reaches to the end of that run and the
scanner goes on there; if not, all of the text from the fence on is an error. -/
theorem comment_ends {source r : Text} {t : Token} {before after : List Token}
    (met : scan source = before ++ t :: after)
    (fence : source.drop t.span.start.offset.toNat = dashFence ++ r) :
    (∀ i, FirstLongRun r i 4 →
      ∃ q, t = ⟨.dashComment, dashFence ++ r.take (i + 4), ⟨t.span.start, q⟩, none⟩ ∧
        q.offset = t.span.start.offset + 4 + (i + 4) ∧
        after = scanFrom ((ScanMode.afterAll {} before).after .dashComment) q (r.drop (i + 4))) ∧
    ((∀ i, ¬ FirstLongRun r i 4) →
      ∃ q fault, t = ⟨.error, dashFence ++ r, ⟨t.span.start, q⟩, some fault⟩ ∧
        q.offset = source.length ∧ after = [.endOfInput q] ∧ CommentEnds r (.error fault)) := by
  obtain ⟨u, v, rfl, -, ahead⟩ := exists_cuts_between met
  have start : t.span.start = Position.start.after u :=
    scanFrom_head _ _ _ t (by rw [ahead]; rfl)
  rw [start] at fence ⊢
  rw [offset_start_after, Int.toNat_natCast, List.drop_left] at fence
  subst fence
  constructor
  · intro i run
    have split : dashFence ++ r = dashFence ++ r.take (i + 4) ++ r.drop (i + 4) := by
      rw [List.append_assoc, List.take_append_drop]
    rw [scanFrom_fence _ _ (dashComment_closed run) split] at ahead
    obtain ⟨rfl, rfl⟩ := List.cons.inj ahead
    refine ⟨_, rfl, ?_, rfl⟩
    have fences : dashFence.length = 4 := rfl
    rw [Position.offset_after, List.length_append, List.length_take,
      Nat.min_eq_left run.le_length, fences]
    omega
  · intro unclosed
    obtain ⟨fault, comment, ends⟩ := dashComment_unclosed unclosed
    rw [scanFrom_fence _ _ comment (List.append_nil _).symm, scanFrom] at ahead
    obtain ⟨rfl, rfl⟩ := List.cons.inj ahead
    refine ⟨_, fault, rfl, ?_, rfl, ends⟩
    rw [← Position.after_append, offset_start_after]

/-- The dash right behind the fence is no part of it. -/
theorem comment_ends_fifth_dash :
    let source := ";----- ---- ;".toList
    let r := "- ---- ;".toList
    ∃ before t after, scan source = before ++ t :: after ∧
      source.drop t.span.start.offset.toNat = dashFence ++ r ∧ FirstLongRun r 2 4 ∧
      t.kind = .dashComment ∧ t.text = "----- ----".toList ∧ t.span.stop.offset = 11 ∧
      after = scanFrom {} ⟨11, 1, 12⟩ " ;".toList := by
  intro source r
  have met : scan source = (scan source).take 1 ++
      ⟨.dashComment, "----- ----".toList, ⟨⟨1, 1, 2⟩, ⟨11, 1, 12⟩⟩, none⟩ ::
        (scan source).drop 2 := by decide +kernel
  have run : FirstLongRun r 2 4 :=
    (firstLongRun_replicate (s := [' ', ';']) (Nat.le_refl 4) (by decide)).behind
      (a := ['-']) (c := ' ') (by decide) (by decide)
  have mode : (ScanMode.afterAll {} ((scan source).take 1)).after .dashComment = {} := by
    decide +kernel
  obtain ⟨q, ht, -, behind⟩ := (comment_ends met (by decide)).1 2 run
  obtain rfl : ⟨11, 1, 12⟩ = q := congrArg (·.span.stop) ht
  rw [mode] at behind
  exact ⟨_, _, _, met, by decide, run, rfl, rfl, rfl, behind⟩

end RelationNotation
