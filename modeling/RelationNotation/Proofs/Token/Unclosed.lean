import RelationNotation.Proofs.Token.Recut

/-!
Strings and comments that are never closed. They take the rest of a text, and stay open when a text
follows that has no quotes and no dashes: `Lexeme.fault_append`.
-/

namespace RelationNotation

namespace Lexeme
variable {v : Text}

theorem stringRest_of_not_mem (hv : '"' ∉ v) : stringRest v = none := by
  fun_induction stringRest v with
  | case1 => rfl
  | case2 cs => exact absurd List.mem_cons_self hv
  | case3 c cs ih =>
    rw [ih fun h => hv (List.mem_cons_of_mem _ (List.mem_cons_of_mem _ h))]
    rfl
  | case4 c cs _ _ ih =>
    rw [ih fun h => hv (List.mem_cons_of_mem _ h)]
    rfl

theorem stringRest_append {s : Text} (h : stringRest s = none) (hv : '"' ∉ v) :
    stringRest (s ++ v) = none := by
  fun_induction stringRest s with
  | case1 => exact stringRest_of_not_mem hv
  | case2 cs => cases h
  | case3 c cs ih =>
    rw [List.cons_append, List.cons_append, stringRest, ih (by simpa using h)]
    rfl
  | case4 c cs hquote hslash ih =>
    have hcs := ih (by simpa using h)
    by_cases hc : c = '\\'
    · obtain rfl : cs = [] := by
        cases cs with
        | nil => rfl
        | cons d ds => exact (hslash d ds hc rfl).elim
      refine stringRest_of_not_mem ?_
      simp [hc, hv]
    · rw [List.cons_append]
      unfold stringRest
      split
      next heq => exact absurd heq (List.cons_ne_nil _ _)
      next heq => exact (hquote (List.cons.inj heq).1).elim
      next heq => exact absurd (List.cons.inj heq).1 hc
      next heq =>
        rw [← (List.cons.inj heq).2, hcs]
        rfl

theorem commentRest_of_not_mem {run : Nat} (hrun : run ≠ 4) (hv : '-' ∉ v) :
    commentRest run v = .error .unclosedComment := by
  induction v generalizing run with
  | nil => rw [commentRest, if_neg hrun]
  | cons c v ih =>
    obtain ⟨hc, hv⟩ := not_or.1 (mt List.mem_cons.2 hv)
    rw [commentRest, if_neg (Ne.symm hc), if_neg hrun, ih (by decide) hv]
    rfl

theorem commentRest_append_error {run : Nat} {s : Text} {fault : ScanFault}
    (h : commentRest run s = .error fault) (hv : '-' ∉ v) :
    commentRest run (s ++ v) = .error fault := by
  induction s generalizing run with
  | nil =>
    rw [commentRest] at h
    split at h
    · cases h
    next hrun =>
      cases h
      exact commentRest_of_not_mem hrun hv
  | cons c s ih =>
    have later {run : Nat} (h : (commentRest run s).map (· + 1) = .error fault) :
        (commentRest run (s ++ v)).map (· + 1) = .error fault := by
      cases hs : commentRest run s with
      | ok n => rw [hs] at h; cases h
      | error fault' =>
        rw [hs] at h
        cases h
        rw [ih hs]
        rfl
    rw [commentRest] at h
    rw [List.cons_append, commentRest]
    split
    next hc =>
      rw [if_pos hc] at h
      split
      next hrun => rwa [if_pos hrun] at h
      next hrun =>
        rw [if_neg hrun] at h
        exact later h
    next hc =>
      rw [if_neg hc] at h
      split
      next hrun => rw [if_pos hrun] at h; cases h
      next hrun =>
        rw [if_neg hrun] at h
        exact later h

/-- A lexeme that is never closed stays so when a text without quotes and dashes follows, for the
same reason. -/
theorem fault_append {awaited : Awaited} {first : Bool} {c : Char} {cs : Text}
    (h : (lexeme awaited first c cs).IsOpen) (hblank : StartsBlank v) (hquote : '"' ∉ v)
    (hdash : '-' ∉ v) :
    (lexeme awaited first c (cs ++ v)).fault = (lexeme awaited first c cs).fault := by
  unfold lexeme at h ⊢
  split at h
  next => exact absurd h not_isOpen_of_none
  next h₁ =>
  rw [if_neg h₁, if_neg h₁]
  split at h
  next => exact absurd h not_isOpen_of_none
  next h₂ =>
  rw [if_neg h₂, if_neg h₂]
  split at h
  next => exact absurd h not_isOpen_of_none
  next h₃ =>
  have h₃' : ¬ ['/', '/'].isPrefixOf (c :: (cs ++ v)) :=
    isPrefixOf_recut (w := []) (by simp [isBlank_slash]) hblank (by rwa [List.append_nil])
  rw [if_neg h₃, if_neg h₃']
  split at h
  next h₄ =>
    have h₄' : dashFence.isPrefixOf (c :: (cs ++ v)) := by
      obtain ⟨body, hbody⟩ := List.isPrefixOf_iff_prefix.1 h₄
      refine List.isPrefixOf_iff_prefix.2 ⟨body ++ v, ?_⟩
      rw [← List.append_assoc, hbody]
      rfl
    rw [if_pos h₄, if_pos h₄']
    have hlen : 3 ≤ cs.length := by
      obtain ⟨body, hbody⟩ := List.isPrefixOf_iff_prefix.1 h₄
      have := congrArg List.length hbody
      simp only [dashFence, List.length_append, List.length_cons, List.length_nil] at this
      omega
    rw [List.drop_append_of_le_length hlen]
    unfold dashComment at h ⊢
    split at h
    next => exact absurd h not_isOpen_of_none
    next fault hfault => rw [commentRest_append_error hfault hdash]
  next h₄ =>
  have h₄' : ¬ dashFence.isPrefixOf (c :: (cs ++ v)) :=
    isPrefixOf_recut (w := []) (by simp [dashFence, isBlank_dash]) hblank (by rwa [List.append_nil])
  rw [if_neg h₄, if_neg h₄']
  split at h
  next h₅ =>
    rw [if_pos h₅, if_pos h₅]
    unfold quotedString at h ⊢
    split at h
    next => exact absurd h not_isOpen_of_none
    next hnone => rw [stringRest_append hnone hquote]
  next => exact absurd h (not_isOpen_significant awaited c cs)

theorem IsOpen.append {awaited : Awaited} {first : Bool} {c : Char} {cs : Text}
    (h : (lexeme awaited first c cs).IsOpen) (hblank : StartsBlank v) (hquote : '"' ∉ v)
    (hdash : '-' ∉ v) : (lexeme awaited first c (cs ++ v)).IsOpen := by
  have same := fault_append h hblank hquote hdash
  obtain ⟨f, hf, hopen⟩ := h
  exact ⟨f, same.trans hf, hopen⟩

end Lexeme

/-- A lexeme that is never closed is all that is scanned. -/
theorem scanFrom_of_isOpen {m : ScanMode} {p : Position} {c : Char} {cs : Text}
    (h : (lexeme m.awaited (p.offset == 0) c cs).IsOpen) :
    scanFrom m p (c :: cs) = [(lexeme m.awaited (p.offset == 0) c cs).toToken p,
      .endOfInput (p.after (c :: cs))] := by
  rw [scanFrom]
  simp only [(Lexeme.isOpen_lexeme h).1, List.drop_length]
  rw [scanFrom]

end RelationNotation
