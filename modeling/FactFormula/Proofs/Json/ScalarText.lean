import FactFormula.Proofs.Json.Passing

/-!
Scalars inside longer texts. A scalar is read the same in front of anything that ends a number, and
the part of a text that was read as a scalar is read as the same scalar alone.
-/
namespace FactFormula.Json

section Names

variable {name s u : List Char}

theorem readName_append (h : readName name s = .ok u) (rest : List Char) :
    readName name (s ++ rest) = .ok (u ++ rest) := by
  fun_induction readName name s
  case case1 =>
    cases h
    rfl
  case case3 ih =>
    rw [List.cons_append, readName, if_pos rfl]
    exact ih h
  all_goals cases h

theorem exists_taken_of_readName (h : readName name s = .ok u) :
    ∃ t, s = t ++ u ∧ readName name t = .ok [] := by
  fun_induction readName name s
  case case1 =>
    cases h
    exact ⟨[], rfl, rfl⟩
  case case3 name c s ih =>
    obtain ⟨t, rfl, alone⟩ := ih h
    exact ⟨c :: t, rfl, by rwa [readName, if_pos rfl]⟩
  all_goals cases h

end Names

section Strings

variable {s cs rest : List Char} {t : String}

/-- The inside of a string is pieces up to a quote. A piece spells one character, whatever follows
it. -/
inductive QuotedRead : List Char → List Char → List Char → Prop where
  | closed (rest : List Char) : QuotedRead ('"' :: rest) [] rest
  | piece (spelling : List Char) {s cs rest : List Char} {c : Char}
      (spells : ∀ s, readQuoted (spelling ++ s) = prepend c (readQuoted s))
      (later : QuotedRead s cs rest) : QuotedRead (spelling ++ s) (c :: cs) rest

theorem readQuoted_unescape {e c : Char} (h : unescape e = some c) (s : List Char) :
    readQuoted ('\\' :: e :: s) = prepend c (readQuoted s) := by
  have long : e ≠ 'u' := by
    rintro rfl
    cases h
  rw [readQuoted]
  · rw [h]
  · rintro _ _ _ _ _ rfl
    exact absurd rfl long
  · exact long

theorem quotedRead (h : readQuoted s = .ok (cs, rest)) : QuotedRead s cs rest := by
  fun_induction readQuoted s generalizing cs
  case case2 =>
    cases h
    exact .closed _
  case case6 k l m n u unit trailing leading a b c d tail w unit' trailing' ih =>
    obtain ⟨ds, inside, rfl⟩ := prepend_eq_ok_iff.mp h
    refine .piece ['\\', 'u', k, l, m, n, '\\', 'u', a, b, c, d] (fun s => ?_) (ih inside)
    simp [readQuoted, unit, unit', trailing, leading, trailing']
  case case13 a b c d tail u unit trailing leading ih =>
    obtain ⟨ds, inside, rfl⟩ := prepend_eq_ok_iff.mp h
    refine .piece ['\\', 'u', a, b, c, d] (fun s => ?_) (ih inside)
    simp [readQuoted, unit, trailing, leading]
  case case16 e tail long short c spelled ih =>
    obtain ⟨ds, inside, rfl⟩ := prepend_eq_ok_iff.mp h
    exact .piece ['\\', e] (readQuoted_unescape spelled) (ih inside)
  case case19 c tail quote long short alone escape plain ih =>
    obtain ⟨ds, inside, rfl⟩ := prepend_eq_ok_iff.mp h
    have backslash : c ≠ '\\' := by
      rintro rfl
      cases tail with
      | nil => exact alone rfl rfl
      | cons e tail => exact escape e tail rfl rfl
    exact .piece [c] (readQuoted_plain quote backslash plain) (ih inside)
  all_goals cases h

theorem QuotedRead.eq (h : QuotedRead s cs rest) : readQuoted s = .ok (cs, rest) := by
  induction h with
  | closed rest => rfl
  | piece spelling spells later ih => rw [spells, ih, prepend]

theorem QuotedRead.append (h : QuotedRead s cs rest) (more : List Char) :
    QuotedRead (s ++ more) cs (rest ++ more) := by
  induction h with
  | closed rest => exact .closed (rest ++ more)
  | piece spelling spells later ih =>
    rw [List.append_assoc]
    exact .piece spelling spells ih

theorem QuotedRead.exists_taken (h : QuotedRead s cs rest) :
    ∃ t, s = t ++ rest ∧ QuotedRead t cs [] := by
  induction h with
  | closed rest => exact ⟨['"'], rfl, .closed []⟩
  | piece spelling spells later ih =>
    obtain ⟨t, rfl, alone⟩ := ih
    exact ⟨spelling ++ t, (List.append_assoc ..).symm, .piece spelling spells alone⟩

theorem readText_eq_ok_iff :
    readText s = .ok (t, rest) ↔ ∃ cs, QuotedRead s cs rest ∧ String.ofList cs = t := by
  simp only [readText, bind_eq_ok_iff, pure_eq_ok, Except.ok.injEq, Prod.mk.injEq, Prod.exists]
  constructor
  · rintro ⟨cs, _, read, rfl, rfl⟩
    exact ⟨cs, quotedRead read, rfl⟩
  · rintro ⟨cs, read, rfl⟩
    exact ⟨cs, rest, read.eq, rfl, rfl⟩

end Strings

section Numbers

variable {m : Significand} {n : Number} {negative : Bool} {s t u rest : List Char}

theorem digits_append_afterDigits (s : List Char) : digits s ++ afterDigits s = s :=
  List.takeWhile_append_dropWhile

/-- Where the digits of a text stop, they also stop if what follows them is cut short. -/
theorem digits_of_cut (cut : afterDigits s = t ++ rest) :
    digits (digits s ++ t) = digits s ∧ afterDigits (digits s ++ t) = t := by
  induction s with
  | nil =>
    obtain ⟨rfl, -⟩ := List.append_eq_nil_iff.mp cut.symm
    exact ⟨rfl, rfl⟩
  | cons c s ih =>
    by_cases digit : c.isDigit
    · simp only [digits, afterDigits, digit, List.dropWhile_cons_of_pos, List.takeWhile_cons_of_pos,
        List.cons_append, List.cons.injEq, true_and] at cut ih ⊢
      exact ih cut
    · simp only [digits, afterDigits, digit, List.dropWhile_cons, List.takeWhile_cons, if_false,
        Bool.false_eq_true, List.nil_append] at cut ⊢
      cases t with
      | nil => exact ⟨rfl, rfl⟩
      | cons d t =>
        obtain ⟨rfl, -⟩ := List.cons.inj cut
        simp [digit]

theorem afterDigits_digits (s : List Char) : afterDigits (digits s) = [] := by
  have cut : afterDigits s = [] ++ afterDigits s := rfl
  simpa using (digits_of_cut cut).2

/-- An exponent has its value from the digits alone. -/
theorem exponentValue_digits (e : Nat) (s : List Char) :
    (exponentValue e (digits s)).1 = (exponentValue e s).1 := by
  induction s generalizing e with
  | nil => rfl
  | cons c s ih =>
    by_cases digit : c.isDigit
    · have digits_cons : digits (c :: s) = c :: digits s := by simp [digits, digit]
      rw [digits_cons, exponentValue, exponentValue, if_pos digit]
      split_ifs with small
      · exact ih _
      · rfl
    · simp [digits, exponentValue, digit]

theorem Significand.exists_taken_of_exponentPart (h : m.exponentPart s = .ok (n, rest)) :
    ∃ t, s = t ++ rest ∧ m.exponentPart t = .ok (n, []) := by
  obtain ⟨below, c, u, sign, digit, comes, rfl⟩ := exponentPart_eq_ok_iff.mp h
  obtain ⟨mark, rfl, signs⟩ := exists_sign sign
  have digits_cons : digits (c :: u) = c :: digits u := by simp [digits, digit]
  refine ⟨mark ++ digits (c :: u), ?_, ?_⟩
  · rw [List.append_assoc, digits_append_afterDigits]
  · rw [digits_cons]
    refine exponentPart_eq_ok_iff.mpr ⟨below, c, digits u, signs _ rfl, digit, ?_, ?_⟩
    · rwa [← digits_cons, exponentValue_digits]
    · rw [← digits_cons, afterDigits_digits]

/-- An exponent is taken with its mark. -/
theorem Significand.exists_taken_of_tail (h : m.tail s = .ok (n, rest)) :
    ∃ t, s = t ++ rest ∧ m.tail t = .ok (n, []) ∧
      t.head?.all (!isExponentMark ·) = s.head?.all (!isExponentMark ·) := by
  cases s with
  | nil =>
    obtain ⟨alone, rfl⟩ := finish_eq_ok_iff.mp h
    exact ⟨[], rfl, alone, rfl⟩
  | cons c s =>
    by_cases mark : isExponentMark c
    · rw [tail, if_pos mark] at h
      obtain ⟨t, rfl, alone⟩ := exists_taken_of_exponentPart h
      exact ⟨c :: t, rfl, by rwa [tail, if_pos mark], rfl⟩
    · rw [tail, if_neg mark] at h
      obtain ⟨alone, rfl⟩ := finish_eq_ok_iff.mp h
      exact ⟨[], rfl, alone, by simp [mark]⟩

theorem Significand.exists_taken_of_fractionPart (h : m.fractionPart s = .ok (n, rest)) :
    ∃ t, s = t ++ rest ∧ m.fractionPart t = .ok (n, []) := by
  simp only [fractionPart] at h
  split_ifs at h with none
  obtain ⟨t, cut, alone, -⟩ := exists_taken_of_tail h
  obtain ⟨same, behind⟩ := digits_of_cut cut
  refine ⟨digits s ++ t, ?_, ?_⟩
  · rw [List.append_assoc, ← cut, digits_append_afterDigits]
  · simp only [fractionPart, same, behind, none, if_false, Bool.false_eq_true]
    exact alone

/-- The digits in front belong to the number; what else does is taken from behind them. -/
theorem exists_taken_of_magnitude (h : magnitude negative s = .ok (n, rest)) :
    ∃ t, afterDigits s = t ++ rest ∧ magnitude negative (digits s ++ t) = .ok (n, []) := by
  by_cases point : (afterDigits s).head? = some '.'
  · obtain ⟨u, hu⟩ := List.head?_eq_some_iff.mp point
    rw [magnitude_of_point negative hu] at h
    obtain ⟨t, rfl, alone⟩ := Significand.exists_taken_of_fractionPart h
    obtain ⟨same, behind⟩ := digits_of_cut (t := '.' :: t) hu
    refine ⟨'.' :: t, hu, ?_⟩
    rw [magnitude_of_point negative behind, leading, same]
    exact alone
  · have noPoint {t : List Char} (cut : afterDigits s = t ++ rest) :
        (afterDigits (digits s ++ t)).head? ≠ some '.' := by
      intro head
      rw [(digits_of_cut cut).2] at head
      obtain ⟨u, rfl⟩ := List.head?_eq_some_iff.mp head
      exact point (cut ▸ rfl)
    rw [magnitude_of_no_point negative point] at h
    split_ifs at h with all
    · cases h
      have cut : afterDigits s = [] ++ afterDigits s := rfl
      obtain ⟨same, behind⟩ := digits_of_cut cut
      refine ⟨[], cut, ?_⟩
      rw [magnitude_of_no_point negative (noPoint cut), if_pos, same, behind]
      simp only [isWhole, same, behind, Bool.and_eq_true] at all ⊢
      exact ⟨all.1, rfl⟩
    · obtain ⟨t, cut, alone, mark⟩ := Significand.exists_taken_of_tail h
      obtain ⟨same, behind⟩ := digits_of_cut cut
      have whole : isWhole (digits s ++ t) = isWhole s := by simp only [isWhole, same, behind, mark]
      refine ⟨t, cut, ?_⟩
      rw [magnitude_of_no_point negative (noPoint cut), whole, if_neg all, leading, same, behind]
      exact alone

theorem exists_taken_of_unsignedNumber (h : unsignedNumber negative s = .ok (n, rest)) :
    ∃ t, s = t ++ rest ∧ unsignedNumber negative t = .ok (n, []) := by
  cases s with
  | nil => cases h
  | cons c s =>
    obtain ⟨digit, zero, h⟩ := unsignedNumber_cons_eq_ok_iff.mp h
    obtain ⟨t, cut, alone⟩ := exists_taken_of_magnitude h
    have digits_cons : digits (c :: s) = c :: digits s := by simp [digits, digit]
    have taken : c :: s = c :: (digits s ++ t) ++ rest := by
      rw [← List.cons_append, ← digits_cons, List.append_assoc, ← cut, digits_append_afterDigits]
    rw [digits_cons] at alone
    refine ⟨c :: (digits s ++ t), taken, unsignedNumber_cons_eq_ok_iff.mpr ⟨digit, ?_, alone⟩⟩
    intro hc d hd
    refine zero hc d ?_
    obtain ⟨u, hu⟩ := List.head?_eq_some_iff.mp hd
    rw [(List.cons.inj taken).2, hu]
    rfl

theorem exists_taken_of_readNumber (h : readNumber s = .ok (n, rest)) :
    ∃ t, s = t ++ rest ∧ readNumber t = .ok (n, []) := by
  unfold readNumber at h
  split at h
  · obtain ⟨t, rfl, alone⟩ := exists_taken_of_unsignedNumber h
    exact ⟨'-' :: t, rfl, alone⟩
  · rename_i positive
    obtain ⟨t, rfl, alone⟩ := exists_taken_of_unsignedNumber h
    refine ⟨t, rfl, ?_⟩
    unfold readNumber
    split
    · exact absurd rfl (positive _)
    · exact alone

end Numbers

section Scalars

variable {s rest : List Char} {v : Value}

theorem ScalarRead.readValue_eq (h : ScalarRead s v rest) (room : Nat) :
    readValue room s = .ok (v, rest) := by
  cases h with
  | null name | yes name | no name =>
    refine (readValue_of_scalar rfl (by decide) (by decide)).trans ?_
    simp [readScalar, name]
  | string text =>
    refine (readValue_of_scalar rfl (by decide) (by decide)).trans ?_
    simp [readScalar, text]
  | number begins numeral => exact readValue_number numeral

theorem ScalarRead.beginsItem (h : ScalarRead s v rest) : BeginsItem s := by
  cases h with
  | null | yes | no | string => exact ⟨rfl, by decide⟩
  | number begins =>
    exact ⟨isBlank_eq_false begins, ne_of_sign_or_digit begins (by decide) rfl⟩

theorem ScalarRead.eq (h : ScalarRead s v rest) : readScalar s = .ok (v, rest) := by
  have read := h.readValue_eq 0
  cases s with
  | nil => cases h
  | cons c s =>
    have list : c ≠ '[' := by
      rintro rfl
      exact (h.opens_nothing s).1 rfl
    have object : c ≠ '\x7b' := by
      rintro rfl
      exact (h.opens_nothing s).2 rfl
    rwa [readValue_of_scalar h.beginsItem.1 list object] at read

/-- A scalar is read the same in front of anything that ends a number. -/
theorem ScalarRead.append {u : List Char} (h : ScalarRead s v u) (ends : EndsNumber rest) :
    ScalarRead (s ++ rest) v (u ++ rest) := by
  cases h with
  | null name => exact .null (readName_append name rest)
  | yes name => exact .yes (readName_append name rest)
  | no name => exact .no (readName_append name rest)
  | string text =>
    obtain ⟨cs, read, rfl⟩ := readText_eq_ok_iff.mp text
    exact .string (readText_eq_ok_iff.mpr ⟨cs, read.append rest, rfl⟩)
  | number begins numeral => exact .number begins (readNumber_append numeral ends)

/-- What was read as a scalar is read as the same scalar alone. -/
theorem ScalarRead.exists_taken (h : ScalarRead s v rest) :
    ∃ t, s = t ++ rest ∧ ScalarRead t v [] := by
  cases h with
  | null name =>
    obtain ⟨t, rfl, alone⟩ := exists_taken_of_readName name
    exact ⟨'n' :: t, rfl, .null alone⟩
  | yes name =>
    obtain ⟨t, rfl, alone⟩ := exists_taken_of_readName name
    exact ⟨'t' :: t, rfl, .yes alone⟩
  | no name =>
    obtain ⟨t, rfl, alone⟩ := exists_taken_of_readName name
    exact ⟨'f' :: t, rfl, .no alone⟩
  | string text =>
    obtain ⟨cs, read, rfl⟩ := readText_eq_ok_iff.mp text
    obtain ⟨t, rfl, alone⟩ := read.exists_taken
    exact ⟨'"' :: t, rfl, .string (readText_eq_ok_iff.mpr ⟨cs, alone, rfl⟩)⟩
  | @number c s rest n begins numeral =>
    obtain ⟨t, taken, alone⟩ := exists_taken_of_readNumber numeral
    obtain ⟨d, u, rfl, begins⟩ := readNumber_begins alone
    exact ⟨d :: u, taken, .number begins alone⟩

end Scalars

end FactFormula.Json
