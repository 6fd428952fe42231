import RelationNotation.Json.Layout
import RelationNotation.Json.Reader

/-!
JSON text is read back as what it was written from: `ofText?_layout`. Each part of a value is read
off the text it was written as, whatever follows; only the text behind a number must not go on with
it. Members of one name would not all be read, so no object may have such.
-/

namespace RelationNotation

/-! ### Numerals -/

namespace Text

theorem ofInt_ofNat (n : Nat) : ofInt (.ofNat n) = Nat.toDigits 10 n := by
  simp [ofInt, toString, Int.repr, Nat.repr]

theorem ofInt_negSucc (n : Nat) : ofInt (.negSucc n) = '-' :: Nat.toDigits 10 (n + 1) := by
  simp [ofInt, toString, Int.repr, Nat.repr]

theorem isDigit_of_mem_toDigits {n : Nat} : ∀ c ∈ Nat.toDigits 10 n, c.isDigit :=
  fun _ => Nat.isDigit_of_mem_toDigits (by decide) (by decide)

theorem toDigits_eq_cons (n : Nat) : ∃ c cs, Nat.toDigits 10 n = c :: cs ∧ c.isDigit := by
  obtain ⟨c, cs, h⟩ := List.exists_cons_of_ne_nil (Nat.toDigits_ne_nil (b := 10) (n := n))
  exact ⟨c, cs, h, isDigit_of_mem_toDigits c (h ▸ List.mem_cons_self)⟩

theorem natOfDigits_toDigits (n : Nat) : natOfDigits 10 (Nat.toDigits 10 n) = n := by
  have digits {cs : Text} (h : ∀ c ∈ cs, c.isDigit) (m : Nat) :
      cs.foldl (fun n c => n * 10 + digitValue c) m = Nat.ofDigitChars 10 cs m := by
    induction cs generalizing m with
    | nil => rfl
    | cons c cs ih =>
      have first : c.isDigit = true := h c List.mem_cons_self
      rw [List.foldl_cons, ih fun d hd => h d (List.mem_cons_of_mem c hd), Nat.ofDigitChars_cons,
        digitValue, if_pos first, Nat.mul_comm]
      rfl
  rw [natOfDigits, digits isDigit_of_mem_toDigits, Nat.ofDigitChars_toDigits (by decide) (by decide)]

/-- Only zero starts with a zero. -/
theorem eq_zero_of_toDigits_head {n : Nat} (h : (Nat.toDigits 10 n).head? = some '0') : n = 0 := by
  induction n using Nat.strongRecOn with
  | _ n ih =>
    rcases Nat.lt_or_ge n 10 with hn | hn
    · have units : ∀ n < 10, Nat.digitChar n = '0' → n = 0 := by decide
      rw [Nat.toDigits_of_lt_base hn] at h
      exact units n hn (Option.some.inj h)
    · rw [Nat.toDigits_of_base_le (by decide) hn, List.head?_append,
        Option.or_of_isSome (by simp [Nat.toDigits_ne_nil])] at h
      have := ih (n / 10) (by omega) h
      omega

theorem digitValue_hexDigit : ∀ n < 16, digitValue (hexDigit n) = n := by decide

theorem isHexDigit_hexDigit : ∀ n < 16, Json.isHexDigit (hexDigit n) := by decide

theorem length_hexDigits (k n : Nat) : (hexDigits k n).length = k := by
  induction k generalizing n with
  | zero => rfl
  | succ k ih => rw [hexDigits, List.length_append, ih, List.length_singleton]

theorem isHexDigit_of_mem_hexDigits {k n : Nat} {c : Char} (h : c ∈ hexDigits k n) :
    Json.isHexDigit c := by
  induction k generalizing n with
  | zero => cases h
  | succ k ih =>
    rw [hexDigits, List.mem_append, List.mem_singleton] at h
    rcases h with h | rfl
    · exact ih h
    · exact isHexDigit_hexDigit _ (Nat.mod_lt n (by decide))

theorem natOfDigits_hexDigits {k n : Nat} (h : n < Nat.pow 16 k) :
    natOfDigits 16 (hexDigits k n) = n := by
  induction k generalizing n with
  | zero =>
    obtain rfl := Nat.lt_one_iff.1 h
    rfl
  | succ k ih =>
    have front := ih (n := n / 16) (Nat.div_lt_of_lt_mul (Nat.mul_comm 16 _ ▸ h))
    rw [natOfDigits] at front
    rw [hexDigits, natOfDigits, List.foldl_append, front, List.foldl_cons, List.foldl_nil,
      digitValue_hexDigit _ (Nat.mod_lt n (by decide))]
    omega

end Text

namespace Json
variable {c : Char} {cs t rest : Text} {k level levels : Nat}

/-- A number without a fraction may end before a text. -/
def EndsDigits (rest : Text) : Prop := ∀ c ∈ rest.head?, c.isDigit = false ∧ c ≠ '.'

theorem readDigits?_toDigits (n : Nat) (hrest : EndsDigits rest) :
    readDigits? (Nat.toDigits 10 n ++ rest) = some (Nat.toDigits 10 n, rest) := by
  have none : rest.takeWhile Char.isDigit = [] := by
    cases rest with
    | nil => rfl
    | cons c cs => rw [List.takeWhile_cons_of_neg]; simp [(hrest c rfl).1]
  have all : rest.dropWhile Char.isDigit = rest := by
    cases rest with
    | nil => rfl
    | cons c cs => rw [List.dropWhile_cons_of_neg]; simp [(hrest c rfl).1]
  rw [readDigits?, List.takeWhile_append_of_pos Text.isDigit_of_mem_toDigits,
    List.dropWhile_append_of_pos Text.isDigit_of_mem_toDigits, none, all, List.append_nil]
  split
  next h => exact absurd h Nat.toDigits_ne_nil
  next => rfl

theorem readSigned?_digit (hc : c.isDigit) : readSigned? (c :: cs) =
    (readDigits? (c :: cs)).map fun (digits, rest) => (Text.natOfDigits 10 digits, rest) := by
  unfold readSigned?
  split
  next h =>
    cases h
    exact absurd hc (by decide)
  next h =>
    cases h
    exact absurd hc (by decide)
  next => rfl

theorem readSigned?_ofInt (n : Int) (hrest : EndsDigits rest) :
    readSigned? (Text.ofInt n ++ rest) = some (n, rest) := by
  cases n with
  | ofNat n =>
    have read := readDigits?_toDigits n hrest
    obtain ⟨c, cs, h, hc⟩ := Text.toDigits_eq_cons n
    rw [Text.ofInt_ofNat, h, List.cons_append, readSigned?_digit hc, ← List.cons_append, ← h, read]
    simp [Text.natOfDigits_toDigits]
  | negSucc n =>
    rw [Text.ofInt_negSucc, List.cons_append, readSigned?, readDigits?_toDigits (n + 1) hrest]
    simp [Text.natOfDigits_toDigits, Int.negSucc_eq]

theorem readFraction?_none (hrest : EndsDigits rest) : readFraction? rest = some (none, rest) := by
  unfold readFraction?
  split
  next => exact absurd rfl (hrest '.' rfl).2
  next => rfl

/-- A number by its digits, and its exponent if it has one. -/
def ofDigits (digits : Int) : Option Int → Json
  | none => .int digits
  | some exponent => .decimal digits exponent

theorem readUnsigned?_toDigits (negative : Bool) (n : Nat) {exponent : Option Int} {after : Text}
    (hrest : EndsDigits rest) (hexponent : readExponent? rest = some (exponent, after)) :
    readUnsigned? negative (Nat.toDigits 10 n ++ rest) =
      some (ofDigits (if negative then -n else n) exponent, after) := by
  -- A zero in front is refused before other digits, but no number is written with one.
  have zero : ¬((Nat.toDigits 10 n).head? = some '0' ∧ Nat.toDigits 10 n ≠ ['0']) := by
    rintro ⟨h, hne⟩
    obtain rfl := Text.eq_zero_of_toDigits_head h
    exact hne rfl
  simp only [readUnsigned?, readDigits?_toDigits n hrest, Option.bind_eq_bind, Option.bind_some,
    if_neg zero, readFraction?_none hrest, hexponent, Option.getD_none, List.append_nil,
    Text.natOfDigits_toDigits]
  cases exponent <;> simp [ofDigits]

theorem readNumber?_digit (hc : c.isDigit) :
    readNumber? (c :: cs) = readUnsigned? false (c :: cs) := by
  unfold readNumber?
  split
  next h =>
    cases h
    exact absurd hc (by decide)
  next => rfl

theorem readNumber?_ofInt (n : Int) {exponent : Option Int} {after : Text}
    (hrest : EndsDigits rest) (hexponent : readExponent? rest = some (exponent, after)) :
    readNumber? (Text.ofInt n ++ rest) = some (ofDigits n exponent, after) := by
  cases n with
  | ofNat n =>
    have read := readUnsigned?_toDigits false n hrest hexponent
    obtain ⟨c, cs, h, hc⟩ := Text.toDigits_eq_cons n
    rw [Text.ofInt_ofNat, h, List.cons_append, readNumber?_digit hc, ← List.cons_append, ← h, read]
    rfl
  | negSucc n =>
    rw [Text.ofInt_negSucc, List.cons_append, readNumber?,
      readUnsigned?_toDigits true (n + 1) hrest hexponent]
    rfl

/-! ### Strings -/

theorem readString?_plain (hc : isPlain c) (k : Nat) (t : Text) :
    readString? k (c :: t) = (readString? k t).map fun (s, rest) => (c :: s, rest) := by
  cases k with
  | zero => rfl
  | succ k =>
    rw [readString?, readString?, List.takeWhile_cons_of_pos hc, List.dropWhile_cons_of_pos hc]
    split
    · rfl
    next cs _ =>
      rcases readEscape? cs with _ | ⟨e, rest⟩
      · rfl
      · simp only [Option.bind_eq_bind, Option.bind_some]
        cases readString? k rest <;> rfl
    · rfl

theorem readString?_escape (h : readEscape? cs = some (c, t)) (k : Nat) :
    readString? (k + 1) ('\\' :: cs) = (readString? k t).map fun (s, rest) => (c :: s, rest) := by
  rw [readString?, List.takeWhile_cons_of_neg (by decide), List.dropWhile_cons_of_neg (by decide)]
  simp only [h, Option.bind_eq_bind, Option.bind_some]
  cases readString? k t <;> rfl

/-- The code of a character that is no surrogate is read as the character. -/
theorem readCodeEscape?_hexDigits (hc : c.toNat < 0xD800) (t : Text) :
    readCodeEscape? (Text.hexDigits 4 c.toNat ++ t) = some (c, t) := by
  have length := Text.length_hexDigits 4 c.toNat
  have code : readCode? (Text.hexDigits 4 c.toNat ++ t) = some (c.toNat, t) := by
    have digits : (Text.hexDigits 4 c.toNat).all isHexDigit :=
      List.all_eq_true.2 fun _ => Text.isHexDigit_of_mem_hexDigits
    rw [readCode?, List.take_append_of_le_length (Nat.le_of_eq length.symm),
      List.take_of_length_le (Nat.le_of_eq length), if_pos ⟨length, digits⟩,
      Text.natOfDigits_hexDigits (Nat.lt_trans hc (by decide)),
      List.drop_append_of_le_length (Nat.le_of_eq length.symm),
      List.drop_of_length_le (Nat.le_of_eq length), List.nil_append]
  have char : charOfCode? c.toNat = some c := by
    rw [charOfCode?, dif_pos (show c.toNat.isValidChar from c.valid)]
    rfl
  have noSurrogate : ¬(0xD800 ≤ c.toNat ∧ c.toNat < 0xDC00) := by omega
  simp only [readCodeEscape?, code, Option.bind_eq_bind, Option.bind_some, if_neg noSurrogate, char]
  rfl

/-- A character stands for itself, or is escaped. -/
theorem escapeChar_cases (c : Char) : isPlain c ∧ escapeChar c = [c] ∨
    ∃ e, escapeChar c = '\\' :: e ∧ ∀ t, readEscape? (e ++ t) = some (c, t) := by
  unfold escapeChar
  split
  next h =>
    right
    rcases h with rfl | rfl <;> exact ⟨_, rfl, fun _ => rfl⟩
  split
  next h => exact .inr ⟨_, rfl, fun _ => h ▸ rfl⟩
  split
  next h => exact .inr ⟨_, rfl, fun _ => h ▸ rfl⟩
  split
  next h => exact .inr ⟨_, rfl, fun _ => h ▸ rfl⟩
  split
  next h => exact .inr ⟨_, rfl, fun _ => h ▸ rfl⟩
  split
  next h => exact .inr ⟨_, rfl, fun _ => h ▸ rfl⟩
  split
  next h =>
    refine .inr ⟨'u' :: Text.hexDigits 4 c.toNat, rfl, fun t => ?_⟩
    rw [List.cons_append, readEscape?, readCodeEscape?_hexDigits (by omega)]
  next hquote _ _ _ _ _ hcode =>
    obtain ⟨h₁, h₂⟩ := not_or.1 hquote
    exact .inl ⟨by simp [isPlain, h₁, h₂, Nat.le_of_not_lt hcode], rfl⟩

theorem stringText_append (s rest : Text) :
    stringText s ++ rest = '"' :: (s.flatMap escapeChar ++ '"' :: rest) := by
  rw [stringText, List.append_assoc, List.cons_append, List.singleton_append]

theorem length_stringText (s : Text) : (stringText s).length = (s.flatMap escapeChar).length + 2 := by
  simp [stringText]

theorem readString?_escaped {s : Text} (hk : (s.flatMap escapeChar).length < k) :
    readString? k (s.flatMap escapeChar ++ '"' :: rest) = some (s, rest) := by
  induction s generalizing k with
  | nil =>
    obtain ⟨k, rfl⟩ := Nat.exists_eq_add_of_lt hk
    simp [readString?, isPlain]
  | cons c s ih =>
    rw [List.flatMap_cons] at hk ⊢
    rcases escapeChar_cases c with ⟨hc, h⟩ | ⟨e, h, hread⟩
    · rw [h] at hk ⊢
      rw [List.append_assoc, List.singleton_append, readString?_plain hc,
        ih (Nat.lt_of_le_of_lt (by simp) hk)]
      rfl
    · rw [h] at hk ⊢
      obtain ⟨k, rfl⟩ := Nat.exists_eq_add_of_lt (Nat.zero_lt_of_lt hk)
      rw [List.append_assoc, List.cons_append, Nat.zero_add, readString?_escape (hread _), ih ?_]
      · rfl
      · simp only [List.length_append, List.length_cons] at hk
        omega

/-! ### White space -/

theorem skipSpace_newLine (level : Nat) (t : Text) :
    skipSpace (newLine level ++ t) = skipSpace t := by
  have space : ∀ c ∈ newLine level, isSpace c := by
    intro c hc
    rcases List.mem_cons.1 hc with rfl | hc
    · rfl
    · rw [List.eq_of_mem_replicate hc]
      rfl
  rw [skipSpace, List.dropWhile_append_of_pos space, skipSpace]

theorem skipSpace_cons (hc : isSpace c = false) (cs : Text) : skipSpace (c :: cs) = c :: cs :=
  List.dropWhile_cons_of_neg (by simp [hc])

theorem isSpace_comma : isSpace ',' = false := rfl

theorem skipSpace_stringText (s rest : Text) :
    skipSpace (stringText s ++ rest) = stringText s ++ rest := by
  rw [stringText_append, skipSpace_cons (by rfl)]

/-! ### Values -/

mutual

/-- No object has two members of one name, at any depth. -/
def Distinct : Json → Prop
  | .array items => DistinctItems items
  | .object ms => (ms.map (·.1)).Nodup ∧ DistinctMembers ms
  | _ => True

def DistinctItems : List Json → Prop
  | [] => True
  | x :: xs => x.Distinct ∧ DistinctItems xs

def DistinctMembers : List (String × Json) → Prop
  | [] => True
  | (_, x) :: xs => x.Distinct ∧ DistinctMembers xs

end

/-- A text does not go on with a number. -/
def EndsNumber (rest : Text) : Prop :=
  EndsDigits rest ∧ readExponent? rest = some (none, rest)

theorem endsNumber_nil : EndsNumber [] := ⟨by simp [EndsDigits], rfl⟩

theorem endsNumber_comma (t : Text) : EndsNumber (',' :: t) :=
  ⟨by simp [EndsDigits, Char.isDigit], by simp [readExponent?]⟩

theorem endsNumber_newLine (level : Nat) (t : Text) : EndsNumber (newLine level ++ t) :=
  ⟨by simp [EndsDigits, newLine, Char.isDigit], by simp [newLine, readExponent?]⟩

theorem ofInt_eq_cons (n : Int) : ∃ c cs, Text.ofInt n = c :: cs ∧ (c.isDigit ∨ c = '-') := by
  cases n with
  | ofNat n =>
    obtain ⟨c, cs, h, hc⟩ := Text.toDigits_eq_cons n
    exact ⟨c, cs, by rw [Text.ofInt_ofNat, h], .inl hc⟩
  | negSucc n => exact ⟨'-', _, Text.ofInt_negSucc n, .inr rfl⟩

theorem number_head (hc : c.isDigit ∨ c = '-') : isSpace c = false ∧ c ≠ ']' := by
  refine ⟨Bool.eq_false_iff.2 fun hspace => ?_, ?_⟩
  · simp only [isSpace, Bool.or_eq_true, beq_iff_eq] at hspace
    rcases hspace with ((rfl | rfl) | rfl) | rfl <;> simp [Char.isDigit] at hc
  · rintro rfl
    simp [Char.isDigit] at hc

/-- A value is no white space, and is not taken for the end of an array. -/
theorem layoutAt_eq_cons (level : Nat) (j : Json) :
    ∃ c cs, layoutAt level j = c :: cs ∧ isSpace c = false ∧ c ≠ ']' := by
  match j with
  | .null => exact ⟨'n', _, rfl, rfl, by decide⟩
  | .bool true => exact ⟨'t', _, rfl, rfl, by decide⟩
  | .bool false => exact ⟨'f', _, rfl, rfl, by decide⟩
  | .int n =>
    obtain ⟨c, cs, h, hc⟩ := ofInt_eq_cons n
    exact ⟨c, cs, h, number_head hc⟩
  | .decimal digits exponent =>
    obtain ⟨c, cs, h, hc⟩ := ofInt_eq_cons digits
    exact ⟨c, cs ++ 'e' :: Text.ofInt exponent, by rw [layoutAt, decimalText, h, List.cons_append],
      number_head hc⟩
  | .string t => exact ⟨'"', _, rfl, rfl, by decide⟩
  | .array [] => exact ⟨'[', _, rfl, rfl, by decide⟩
  | .array (x :: xs) => exact ⟨'[', _, rfl, rfl, by decide⟩
  | .object [] => exact ⟨'{', _, rfl, rfl, by decide⟩
  | .object ((name, x) :: ms) => exact ⟨'{', _, rfl, rfl, by decide⟩

theorem skipSpace_layoutAt (level : Nat) (j : Json) (rest : Text) :
    skipSpace (layoutAt level j ++ rest) = layoutAt level j ++ rest := by
  obtain ⟨c, cs, h, hspace, -⟩ := layoutAt_eq_cons level j
  rw [h, List.cons_append, skipSpace_cons hspace]

theorem skipSpace_blank (level : Nat) (j : Json) (rest : Text) :
    skipSpace (' ' :: (layoutAt level j ++ rest)) = layoutAt level j ++ rest := by
  rw [skipSpace, List.dropWhile_cons_of_pos (by rfl)]
  exact skipSpace_layoutAt level j rest

theorem skip?_append (s t : Text) : skip? s (s ++ t) = some t := by
  rw [skip?, if_pos (by simp), List.drop_left]

theorem readValue?_number (hc : c.isDigit ∨ c = '-') (h : skipSpace t = c :: cs) :
    readValue? (k + 1) levels t = readNumber? (c :: cs) := by
  rw [readValue?, h]
  split
  all_goals first
    | rfl
    | (next h => cases h; simp [Char.isDigit] at hc)

theorem readValue?_string (h : skipSpace t = '"' :: cs) :
    readValue? (k + 1) levels t = (readString? k cs).map fun (s, rest) => (.string s, rest) := by
  rw [readValue?, h]
  rfl

theorem readValue?_array (h : skipSpace t = '[' :: cs) (hcs : ∀ rest, skipSpace cs ≠ ']' :: rest) :
    readValue? (k + 1) (levels + 1) t =
      (readItems? k levels cs).map fun (items, rest) => (.array items, rest) := by
  simp only [readValue?, h]

theorem readValue?_object (h : skipSpace t = '{' :: cs) (hcs : ∀ rest, skipSpace cs ≠ '}' :: rest) :
    readValue? (k + 1) (levels + 1) t =
      (readMembers? k levels cs).map fun (ms, rest) => (.object ms, rest) := by
  simp only [readValue?, h]

section
variable {name : String} {x : Json} {xs : List Json} {ms : List (String × Json)}
  {v after after' : Text}

theorem readItems?_last (hx : readValue? k levels t = some (x, after))
    (h : skipSpace after = ']' :: rest) : readItems? (k + 1) levels t = some ([x], rest) := by
  simp [readItems?, hx, h]

theorem readItems?_cons (hx : readValue? k levels t = some (x, after))
    (h : skipSpace after = ',' :: after') (further : readItems? k levels after' = some (xs, rest)) :
    readItems? (k + 1) levels t = some (x :: xs, rest) := by
  simp [readItems?, hx, h, further]

theorem skip?_quote (h : skipSpace t = stringText name.toList ++ ':' :: v) :
    skip? ['"'] (skipSpace t) = some (name.toList.flatMap escapeChar ++ '"' :: ':' :: v) := by
  rw [h, stringText_append]
  exact skip?_append ['"'] _

theorem readString?_name (hk : (stringText name.toList).length ≤ k) (v : Text) :
    readString? k (name.toList.flatMap escapeChar ++ '"' :: ':' :: v) =
      some (name.toList, ':' :: v) := by
  rw [length_stringText] at hk
  exact readString?_escaped (by omega)

theorem skip?_colon (v : Text) : skip? [':'] (skipSpace (':' :: v)) = some v := by
  rw [skipSpace_cons (by rfl)]
  exact skip?_append [':'] v

theorem readMembers?_last (hname : skipSpace t = stringText name.toList ++ ':' :: v)
    (hk : (stringText name.toList).length ≤ k) (hx : readValue? k levels v = some (x, after))
    (h : skipSpace after = '}' :: rest) : readMembers? (k + 1) levels t = some ([(name, x)], rest) := by
  simp [readMembers?, skip?_quote hname, readString?_name hk, skip?_colon, hx, h]

theorem readMembers?_cons (hname : skipSpace t = stringText name.toList ++ ':' :: v)
    (hk : (stringText name.toList).length ≤ k) (hx : readValue? k levels v = some (x, after))
    (h : skipSpace after = ',' :: after') (further : readMembers? k levels after' = some (ms, rest)) :
    readMembers? (k + 1) levels t = some (consMember (name, x) ms, rest) := by
  simp [readMembers?, skip?_quote hname, readString?_name hk, skip?_colon, hx, h, further]

end

theorem consMember_of_notMem {name : String} {x : Json} {ms : List (String × Json)}
    (h : name ∉ ms.map (·.1)) : consMember (name, x) ms = (name, x) :: ms := by
  rw [consMember, if_neg]
  simpa using h

theorem length_newLine (level : Nat) : (newLine level).length = 2 * level + 1 := by
  simp [newLine]

theorem endsNumber_items (level outer : Nat) (xs : List Json) (t : Text) :
    EndsNumber (layoutItems level xs ++ (newLine outer ++ t)) := by
  cases xs with
  | nil => exact endsNumber_newLine outer t
  | cons x xs => exact endsNumber_comma _

theorem endsNumber_members (level outer : Nat) (ms : List (String × Json)) (t : Text) :
    EndsNumber (layoutMembers level ms ++ (newLine outer ++ t)) := by
  cases ms with
  | nil => exact endsNumber_newLine outer t
  | cons m ms => exact endsNumber_comma _

mutual

/-- A value is read off the text that writes it. -/
theorem readValue?_layoutAt (level : Nat) : (j : Json) → j.Distinct → ∀ {k levels rest t},
    j.levels ≤ levels → EndsNumber rest → (layoutAt level j).length < k →
      skipSpace t = layoutAt level j ++ rest → readValue? k levels t = some (j, rest)
  | .null, _, k + 1, levels, rest, t, _, _, _, h => by
    rw [readValue?, h]
    exact congrArg (Option.map _) (skip?_append ['u', 'l', 'l'] rest)
  | .bool true, _, k + 1, levels, rest, t, _, _, _, h => by
    rw [readValue?, h]
    exact congrArg (Option.map _) (skip?_append ['r', 'u', 'e'] rest)
  | .bool false, _, k + 1, levels, rest, t, _, _, _, h => by
    rw [readValue?, h]
    exact congrArg (Option.map _) (skip?_append ['a', 'l', 's', 'e'] rest)
  | .int n, _, k + 1, levels, rest, t, _, ends, _, h => by
    obtain ⟨c, cs, hn, hc⟩ := ofInt_eq_cons n
    rw [layoutAt] at h
    rw [readValue?_number hc (by rw [h, hn, List.cons_append]), ← List.cons_append, ← hn,
      readNumber?_ofInt n ends.1 ends.2]
    rfl
  | .decimal digits exponent, _, k + 1, levels, rest, t, _, ends, _, h => by
    obtain ⟨c, cs, hn, hc⟩ := ofInt_eq_cons digits
    rw [layoutAt, decimalText, List.append_assoc, List.cons_append] at h
    have hexponent : readExponent? ('e' :: (Text.ofInt exponent ++ rest)) =
        some (some exponent, rest) := by
      rw [readExponent?, if_pos (.inl rfl), readSigned?_ofInt exponent ends.1]
      rfl
    rw [readValue?_number hc (by rw [h, hn, List.cons_append]), ← List.cons_append, ← hn,
      readNumber?_ofInt digits (by simp [EndsDigits, Char.isDigit]) hexponent]
    rfl
  | .string s, _, k + 1, levels, rest, t, _, _, hk, h => by
    rw [layoutAt, length_stringText] at hk
    rw [layoutAt, stringText_append] at h
    rw [readValue?_string h, readString?_escaped (by omega)]
    rfl
  | .array [], _, k + 1, levels, rest, t, _, _, _, h => by
    rw [readValue?, h]
    rfl
  | .array (x :: xs), ⟨hx, hxs⟩, k + 1, levels, rest, t, hlevels, _, hk, h => by
    rw [Json.levels] at hlevels
    obtain ⟨levels, rfl⟩ : ∃ n, levels = n + 1 := ⟨levels - 1, by omega⟩
    have hlength : (layoutAt (level + 1) x).length + (layoutItems (level + 1) xs).length + 1 < k := by
      simp only [layoutAt, List.length_append, List.length_cons, length_newLine] at hk
      omega
    -- One level takes two steps of the bound: one for the brackets, one for an item.
    obtain ⟨k, rfl⟩ : ∃ n, k = n + 1 := ⟨k - 1, by omega⟩
    simp only [layoutAt, List.append_assoc, List.cons_append, List.nil_append] at h
    have items : readItems? (k + 1) levels (newLine (level + 1) ++ (layoutAt (level + 1) x ++
        (layoutItems (level + 1) xs ++ (newLine level ++ ']' :: rest)))) = some (x :: xs, rest) :=
      readItems?_layoutItems (level + 1) xs hxs (by omega) (by omega) (readValue?_layoutAt (level + 1) x hx
        (by omega) (endsNumber_items ..) (by omega) (by rw [skipSpace_newLine, skipSpace_layoutAt]))
    have opened : ∀ after, skipSpace (newLine (level + 1) ++ (layoutAt (level + 1) x ++
        (layoutItems (level + 1) xs ++ (newLine level ++ ']' :: rest)))) ≠ ']' :: after := by
      intro after
      obtain ⟨c, cs, hfirst, -, hne⟩ := layoutAt_eq_cons (level + 1) x
      rw [skipSpace_newLine, skipSpace_layoutAt, hfirst]
      exact fun h => hne (List.cons.inj h).1
    rw [readValue?_array h opened, items]
    rfl
  | .object [], _, k + 1, levels, rest, t, _, _, _, h => by
    rw [readValue?, h]
    rfl
  | .object ((name, x) :: ms), ⟨nodup, hx, hms⟩, k + 1, levels, rest, t, hlevels, _, hk, h => by
    rw [Json.levels] at hlevels
    obtain ⟨levels, rfl⟩ : ∃ n, levels = n + 1 := ⟨levels - 1, by omega⟩
    have hlength : (stringText name.toList).length + (layoutAt (level + 1) x).length +
        (layoutMembers (level + 1) ms).length + 2 < k := by
      simp only [layoutAt, List.length_append, List.length_cons, length_newLine] at hk
      omega
    obtain ⟨k, rfl⟩ : ∃ n, k = n + 1 := ⟨k - 1, by omega⟩
    simp only [layoutAt, List.append_assoc, List.cons_append, List.nil_append] at h
    have members : readMembers? (k + 1) levels (newLine (level + 1) ++ (stringText name.toList ++
        ':' :: ' ' :: (layoutAt (level + 1) x ++ (layoutMembers (level + 1) ms ++
          (newLine level ++ '}' :: rest))))) = some ((name, x) :: ms, rest) :=
      readMembers?_layoutMembers (level + 1) ms hms nodup (by omega) (by omega) (by omega)
        (by rw [skipSpace_newLine, skipSpace_stringText])
        (readValue?_layoutAt (level + 1) x hx (by omega) (endsNumber_members ..) (by omega)
          (skipSpace_blank ..))
    have opened : ∀ after, skipSpace (newLine (level + 1) ++ (stringText name.toList ++
        ':' :: ' ' :: (layoutAt (level + 1) x ++ (layoutMembers (level + 1) ms ++
          (newLine level ++ '}' :: rest))))) ≠ '}' :: after := by
      intro after
      rw [skipSpace_newLine, skipSpace_stringText, stringText_append]
      exact fun h => absurd (List.cons.inj h).1 (by decide)
    rw [readValue?_object h opened, members]
    rfl

/-- The items behind the first are read off the text that writes them. -/
theorem readItems?_layoutItems (level : Nat) : (xs : List Json) → DistinctItems xs →
    ∀ {k levels outer x rest t}, levelsOfItems xs ≤ levels → (layoutItems level xs).length ≤ k →
      readValue? k levels t = some (x, layoutItems level xs ++ (newLine outer ++ ']' :: rest)) →
      readItems? (k + 1) levels t = some (x :: xs, rest)
  | [], _, k, levels, outer, x, rest, t, _, _, h => by
    exact readItems?_last h (by rw [layoutItems, List.nil_append, skipSpace_newLine]; rfl)
  | y :: ys, ⟨hy, hys⟩, k, levels, outer, x, rest, t, hlevels, hk, h => by
    rw [levelsOfItems] at hlevels
    have hlength : (layoutAt level y).length + (layoutItems level ys).length + 1 < k := by
      simp only [layoutItems, List.length_append, List.length_cons, length_newLine] at hk
      omega
    obtain ⟨k, rfl⟩ : ∃ n, k = n + 1 := ⟨k - 1, by omega⟩
    have further : readItems? (k + 1) levels (newLine level ++ (layoutAt level y ++
        (layoutItems level ys ++ (newLine outer ++ ']' :: rest)))) = some (y :: ys, rest) :=
      readItems?_layoutItems level ys hys (by omega) (by omega) (readValue?_layoutAt level y hy
        (by omega) (endsNumber_items ..) (by omega) (by rw [skipSpace_newLine, skipSpace_layoutAt]))
    refine readItems?_cons h ?_ further
    simp only [layoutItems, List.append_assoc, List.cons_append, skipSpace_cons isSpace_comma]

/-- The members behind the first are read off the text that writes them. -/
theorem readMembers?_layoutMembers (level : Nat) : (ms : List (String × Json)) →
    DistinctMembers ms → ∀ {k levels outer name x rest t v}, (name :: ms.map (·.1)).Nodup →
      levelsOfMembers ms ≤ levels → (stringText name.toList).length ≤ k →
      (layoutMembers level ms).length ≤ k → skipSpace t = stringText name.toList ++ ':' :: v →
      readValue? k levels v = some (x, layoutMembers level ms ++ (newLine outer ++ '}' :: rest)) →
      readMembers? (k + 1) levels t = some ((name, x) :: ms, rest)
  | [], _, k, levels, outer, name, x, rest, t, v, _, _, hname, _, h, hx => by
    exact readMembers?_last h hname hx
      (by rw [layoutMembers, List.nil_append, skipSpace_newLine]; rfl)
  | (next, y) :: ms, ⟨hy, hms⟩, k, levels, outer, name, x, rest, t, v, nodup, hlevels, hname, hk, h,
    hx => by
    rw [levelsOfMembers] at hlevels
    have hlength : (stringText next.toList).length + (layoutAt level y).length +
        (layoutMembers level ms).length + 2 < k := by
      simp only [layoutMembers, List.length_append, List.length_cons, length_newLine] at hk
      omega
    obtain ⟨k, rfl⟩ : ∃ n, k = n + 1 := ⟨k - 1, by omega⟩
    obtain ⟨fresh, nodup⟩ := List.nodup_cons.1 nodup
    have further : readMembers? (k + 1) levels (newLine level ++ (stringText next.toList ++
        ':' :: ' ' :: (layoutAt level y ++ (layoutMembers level ms ++
          (newLine outer ++ '}' :: rest))))) = some ((next, y) :: ms, rest) :=
      readMembers?_layoutMembers level ms hms nodup (by omega) (by omega) (by omega)
        (by rw [skipSpace_newLine, skipSpace_stringText])
        (readValue?_layoutAt level y hy (by omega) (endsNumber_members ..) (by omega) (skipSpace_blank ..))
    rw [← consMember_of_notMem fresh]
    refine readMembers?_cons h hname hx ?_ further
    simp only [layoutMembers, List.append_assoc, List.cons_append, skipSpace_cons isSpace_comma]

end

/-- The text that a value is written as is read as the value, if the reader goes down far enough. -/
theorem ofTextWithin?_layout {j : Json} (h : j.Distinct) (hlevels : j.levels ≤ levels) :
    ofTextWithin? levels j.layout = some j := by
  have read : readValue? (j.layout.length + 1) levels j.layout = some (j, []) :=
    readValue?_layoutAt 0 j h hlevels endsNumber_nil (Nat.lt_succ_self _)
      (by rw [← skipSpace_layoutAt, List.append_nil]; rfl)
  rw [ofTextWithin?, read]
  rfl

end Json

end RelationNotation
