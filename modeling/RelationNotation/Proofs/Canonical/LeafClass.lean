import RelationNotation.Proofs.Canonical.SetOut

/-!
Classes of leaves. What fits a kind of token is well-formed as a leaf, so no leaf that is read from
a text lies outside its class: the other halves of `UnicodeString.fits`, `Number.fits` and
`DashComment.fits`.
-/

namespace RelationNotation

open Token

/-! ### Quoted strings and comments -/

/-- What stands before the double quote that closes a string may stand between double quotes. -/
theorem isQuotable_of_stringRest {s : Text} (h : Lexeme.stringRest s = some s.length) :
    ∃ content, s = content ++ ['"'] ∧ isQuotable content := by
  fun_induction Lexeme.stringRest s with
  | case1 => cases h
  | case2 cs =>
    have hcs : cs = [] := by simpa [eq_comm] using h
    exact ⟨[], by rw [hcs]; rfl, rfl⟩
  | case3 c cs ih =>
    obtain ⟨n, hn, hlength⟩ := Option.map_eq_some_iff.1 h
    obtain ⟨content, rfl, quotable⟩ := ih (hn.trans (congrArg some (by simpa using hlength)))
    exact ⟨'\\' :: c :: content, rfl, quotable⟩
  | case4 c cs hquote hslash ih =>
    obtain ⟨n, hn, hlength⟩ := Option.map_eq_some_iff.1 h
    obtain ⟨content, rfl, quotable⟩ := ih (hn.trans (congrArg some (by simpa using hlength)))
    refine ⟨c :: content, rfl, ?_⟩
    have hc : c ≠ '\\' := by
      rintro rfl
      obtain ⟨d, ds, hds⟩ := List.exists_cons_of_ne_nil (List.append_ne_nil_of_right_ne_nil content
        (List.cons_ne_nil '"' []))
      exact hslash d ds rfl hds
    rwa [isQuotable.eq_5 c content hquote (fun h _ => hc h) fun _ _ h _ => hc h]

/-- Fewer than four dashes and another character do not begin a fence. -/
theorem fenceless_behind {run : Nat} {c : Char} {body : Text} (hrun : run < 4) (hc : c ≠ '-')
    (fenceless : ¬ dashFence <:+: body) : ¬ dashFence <:+: List.replicate run '-' ++ c :: body := by
  rintro ⟨a, b, h⟩
  rw [List.append_assoc] at h
  rcases List.append_eq_append_iff.1 h with ⟨a', hrow, hfence⟩ | ⟨a', -, hbody⟩
  · have short : a'.length < dashFence.length := by
      have := congrArg List.length hrow
      simp only [List.length_replicate, List.length_append] at this
      exact Nat.lt_of_le_of_lt (by omega) hrun
    have here : (dashFence ++ b)[a'.length]? = some c := by simp [hfence]
    rw [List.getElem?_append_left short] at here
    exact hc (by simpa [dashFence] using List.mem_of_getElem? here)
  · cases a' with
    | nil => exact hc (List.cons.inj hbody).1
    | cons d ds =>
      obtain ⟨-, rfl⟩ := List.cons.inj hbody
      exact fenceless ⟨ds, b, List.append_assoc ..⟩

/-- What stands before the fence that closes a comment, behind some dashes in a row, holds no fence
and no dash at its end. -/
theorem body_of_commentRest {run : Nat} {s : Text} (hrun : run ≤ 4)
    (h : Lexeme.commentRest run s = .ok s.length) :
    ∃ body, List.replicate run '-' ++ s = body ++ dashFence ∧ ¬ dashFence <:+: body ∧
      body.getLast? ≠ some '-' := by
  induction s generalizing run with
  | nil =>
    rw [Lexeme.commentRest] at h
    split at h
    next hfour => exact ⟨[], by rw [hfour]; rfl, by decide, by decide⟩
    next => cases h
  | cons c cs ih =>
    have step {r : Nat} (hr : (Lexeme.commentRest r cs).map (· + 1) = .ok (cs.length + 1)) :
        Lexeme.commentRest r cs = .ok cs.length := by
      cases hj : Lexeme.commentRest r cs with
      | error e => rw [hj] at hr; cases hr
      | ok j => rw [hj] at hr; cases hr; rfl
    rw [Lexeme.commentRest] at h
    split at h
    next hc =>
      split at h
      · cases h
      next hfour =>
        obtain ⟨body, hbody, facts⟩ := ih (by omega) (step h)
        refine ⟨body, ?_, facts⟩
        rw [← hbody, hc, List.replicate_succ', List.append_assoc]
        rfl
    next hc =>
      split at h
      · cases h
      next hfour =>
        obtain ⟨body, hbody, fenceless, ends⟩ := ih (Nat.zero_le 4) (step h)
        refine ⟨List.replicate run '-' ++ c :: body, ?_, ?_, ?_⟩
        · rw [List.append_assoc, List.cons_append, ← hbody]
          rfl
        · exact fenceless_behind (by omega) hc fenceless
        · cases body with
          | nil => simpa using hc
          | cons d ds => simpa [List.getLast?_append] using ends

/-! ### What fits a kind is well-formed -/

theorem isDecimal_append {whole fraction : Text} (hwhole : isDigits whole)
    (hfraction : isDigits fraction) : isDecimal (whole ++ '.' :: fraction) := by
  have digits := (isDigits_iff.1 hwhole).2
  obtain ⟨htake, hdrop⟩ := Lexeme.takeWhile_run (v := '.' :: fraction) digits
    fun d hd => by cases hd; decide
  rw [isDecimal, hdrop, htake]
  exact Bool.and_eq_true_iff.2 ⟨hwhole, hfraction⟩

section
variable {awaited : Awaited}

theorem DashComment.isWellFormed_of_fits {o : Origin} {t : Text}
    (h : TokenKind.dashComment.Fits awaited t) : (DashComment.mk o t).isWellFormed := by
  obtain ⟨rest, htext, hrest⟩ := h
  obtain ⟨body, hbody, fenceless, ends⟩ := body_of_commentRest (Nat.zero_le 4) hrest
  obtain rfl : rest = body ++ dashFence := hbody
  have middle : (DashComment.mk o t).body = body := by
    rw [htext]
    simp [DashComment.body, dashFence]
  rw [isWellFormed, middle]
  simp [htext, fenceless, ends]

theorem UnicodeString.isWellFormed_of_fits {o : Origin} {t : Text}
    (h : TokenKind.unicodeString.Fits awaited t) : (UnicodeString.mk o t).isWellFormed := by
  obtain ⟨-, nonempty, chars, word, fence⟩ := h
  have plain : dashFence.isPrefixOf t = false :=
    Bool.eq_false_iff.2 fun h => fence (List.isPrefixOf_iff_prefix.1 h)
  simp [isWellFormed, nonempty, List.all_eq_true.2 chars, word, plain]

theorem Token.toNumber_isWellFormed {t : Token} (kind : t.kind ∈ TokenKind.numbers)
    (fits : t.kind.Fits awaited t.text) : t.toNumber.isWellFormed := by
  simp only [TokenKind.numbers, List.mem_cons, List.not_mem_nil, or_false] at kind
  rcases kind with kind | kind
  · rw [kind] at fits
    simpa [Number.isWellFormed, toNumber, kind] using isDigits_iff.2 fits.2
  · rw [kind] at fits
    obtain ⟨-, whole, fraction, htext, hwhole, hfraction, digits, digits'⟩ := fits
    have decimal := isDecimal_append (isDigits_iff.2 ⟨hwhole, digits⟩)
      (isDigits_iff.2 ⟨hfraction, digits'⟩)
    simpa [Number.isWellFormed, toNumber, kind, htext] using decimal

end

end RelationNotation
