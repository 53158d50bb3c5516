import Mathlib.Data.List.TakeWhile
import Mathlib.Tactic.SplitIfs
import FactFormula.Json.Printer
import FactFormula.Json.Reader
import FactFormula.Proofs.Outcome

/-!
Numbers inside longer texts. A number is read the same whatever follows it, unless that begins
with a character a number could go on with. A printed number that is not whole is never read as a
whole one.
-/
namespace FactFormula.Json

/-- The text does not begin with a character a number could go on with. -/
def EndsNumber : List Char → Prop
  | [] => True
  | c :: _ => c.isDigit = false ∧ c ≠ '.' ∧ isExponentMark c = false

section

variable {rest : List Char}

theorem EndsNumber.digits_eq (ends : EndsNumber rest) : digits rest = [] := by
  cases rest with
  | nil => rfl
  | cons c rest => simp [digits, ends.1]

theorem EndsNumber.afterDigits_eq (ends : EndsNumber rest) : afterDigits rest = rest := by
  cases rest with
  | nil => rfl
  | cons c rest => simp [afterDigits, ends.1]

theorem digits_append (s : List Char) (ends : EndsNumber rest) :
    digits (s ++ rest) = digits s := by
  induction s with
  | nil => exact ends.digits_eq
  | cons c s ih =>
    simp only [digits] at ih
    simp only [digits, List.cons_append, List.takeWhile_cons, ih]

theorem afterDigits_append (s : List Char) (ends : EndsNumber rest) :
    afterDigits (s ++ rest) = afterDigits s ++ rest := by
  induction s with
  | nil => exact ends.afterDigits_eq
  | cons c s ih =>
    simp only [afterDigits] at ih
    simp only [afterDigits, List.cons_append, List.dropWhile_cons, ih]
    split <;> rfl

theorem exponentValue_append (e : Nat) (s : List Char) (ends : EndsNumber rest) :
    exponentValue e (s ++ rest) = ((exponentValue e s).1, (exponentValue e s).2 ++ rest) := by
  induction s generalizing e with
  | nil =>
    cases rest with
    | nil => rfl
    | cons c rest => simp [exponentValue, ends.1]
  | cons c s ih =>
    simp only [List.cons_append, exponentValue]
    split_ifs with digit small
    · exact ih _
    · rfl
    · rfl

variable {m : Significand} {n : Number} {s t u : List Char}

/-- A sign is taken off whatever follows it. -/
theorem exists_sign {below : Bool} (h : exponentSign s = (below, u)) :
    ∃ sign, s = sign ++ u ∧
      ∀ t, t.head? = u.head? → exponentSign (sign ++ t) = (below, t) := by
  unfold exponentSign at h
  split at h
  · cases h
    exact ⟨['+'], rfl, fun t _ => rfl⟩
  · cases h
    exact ⟨['-'], rfl, fun t _ => rfl⟩
  · rename_i plus minus
    cases h
    refine ⟨[], rfl, fun t same => ?_⟩
    cases t with
    | nil => rfl
    | cons c t =>
      obtain ⟨w, rfl⟩ := List.head?_eq_some_iff.mp same.symm
      rw [List.nil_append]
      unfold exponentSign
      split
      · rename_i heq
        cases heq
        exact absurd rfl (plus w)
      · rename_i heq
        cases heq
        exact absurd rfl (minus w)
      · rfl

theorem afterDigits_of_exponentValue {e : Nat} {value : Option Nat}
    (h : exponentValue e s = (value, rest)) : afterDigits rest = afterDigits s := by
  fun_induction exponentValue e s
  case case1 =>
    cases h
    rfl
  case case2 c s digit _ ih =>
    rw [ih h]
    simp [afterDigits, digit]
  case case3 c s digit _ =>
    cases h
    simp [afterDigits, digit]
  case case4 =>
    cases h
    rfl

/-- The digits of an exponent that has a value are all read. -/
theorem exponentValue_some {e k : Nat} (h : exponentValue e s = (some k, rest)) :
    rest = afterDigits s := by
  fun_induction exponentValue e s
  case case1 =>
    cases h
    rfl
  case case2 c s digit _ ih =>
    rw [ih h]
    simp [afterDigits, digit]
  case case3 => cases h
  case case4 c s digit =>
    cases h
    simp [afterDigits, digit]

theorem Significand.finish_eq_ok_iff {e : Int} :
    m.finish e s = .ok (n, rest) ↔ m.finish e [] = .ok (n, []) ∧ s = rest := by
  unfold finish
  cases scale? m.value (m.exponent + e) <;> simp

/-- What a number with an exponent of this value comes to; no value means one that is too large. -/
def Significand.ComesTo (m : Significand) (below : Bool) (n : Number) : Option Nat → Prop
  | some e => m.finish (if below then -(e : Int) else e) [] = .ok (n, [])
  | none => ¬ (m.value ≠ 0 ∧ ¬ below) ∧ .float (signed m.negative 0) = n

theorem Significand.exponentPart_of_sign {below : Bool} {c : Char}
    (sign : exponentSign s = (below, c :: u)) (digit : c.isDigit) :
    m.exponentPart s = .ok (n, rest) ↔
      m.ComesTo below n (exponentValue 0 (c :: u)).1 ∧ afterDigits (c :: u) = rest := by
  simp only [exponentPart, sign, if_pos digit]
  cases value : exponentValue 0 (c :: u) with
  | mk e w =>
    cases e with
    | some e =>
      rw [← exponentValue_some value]
      exact finish_eq_ok_iff
    | none =>
      rw [← afterDigits_of_exponentValue value]
      simp only [ComesTo]
      split_ifs with large
      · simp [large]
      · rw [Except.ok.injEq, Prod.mk.injEq, and_iff_right large]

/-- An exponent has a digit behind its sign, and all digits belong to it. -/
theorem Significand.exponentPart_eq_ok_iff :
    m.exponentPart s = .ok (n, rest) ↔ ∃ below c u, exponentSign s = (below, c :: u) ∧
      c.isDigit ∧ m.ComesTo below n (exponentValue 0 (c :: u)).1 ∧ afterDigits (c :: u) = rest := by
  constructor
  · intro h
    obtain ⟨below, u, sign⟩ : ∃ below u, exponentSign s = (below, u) := ⟨_, _, rfl⟩
    cases u with
    | nil => simp [exponentPart, sign] at h
    | cons c u =>
      by_cases digit : c.isDigit
      · exact ⟨below, c, u, sign, digit, (exponentPart_of_sign sign digit).mp h⟩
      · simp [exponentPart, sign, digit] at h
  · rintro ⟨below, c, u, sign, digit, comes⟩
    exact (exponentPart_of_sign sign digit).mpr comes

theorem Significand.finish_append {e : Int} (h : m.finish e s = .ok (n, t)) (rest : List Char) :
    m.finish e (s ++ rest) = .ok (n, t ++ rest) := by
  obtain ⟨alone, rfl⟩ := finish_eq_ok_iff.mp h
  exact finish_eq_ok_iff.mpr ⟨alone, rfl⟩

theorem Significand.exponentPart_append (h : m.exponentPart s = .ok (n, t))
    (ends : EndsNumber rest) : m.exponentPart (s ++ rest) = .ok (n, t ++ rest) := by
  obtain ⟨below, c, u, sign, digit, comes, rfl⟩ := exponentPart_eq_ok_iff.mp h
  obtain ⟨mark, rfl, signs⟩ := exists_sign sign
  refine exponentPart_eq_ok_iff.mpr ⟨below, c, u ++ rest, ?_, digit, ?_, ?_⟩
  · rw [List.append_assoc]
    exact signs (c :: u ++ rest) rfl
  · rwa [← List.cons_append, exponentValue_append 0 (c :: u) ends]
  · rw [← List.cons_append, afterDigits_append (c :: u) ends]

theorem Significand.tail_append (h : m.tail s = .ok (n, t)) (ends : EndsNumber rest) :
    m.tail (s ++ rest) = .ok (n, t ++ rest) := by
  cases s with
  | nil =>
    have h := finish_append h rest
    cases rest with
    | nil => exact h
    | cons c rest => simpa [tail, ends.2.2] using h
  | cons c s =>
    simp only [tail, List.cons_append] at h ⊢
    split_ifs at h ⊢ with mark
    · exact exponentPart_append h ends
    · exact finish_append h rest

theorem Significand.fractionPart_append (h : m.fractionPart s = .ok (n, t))
    (ends : EndsNumber rest) : m.fractionPart (s ++ rest) = .ok (n, t ++ rest) := by
  simp only [fractionPart, digits_append s ends, afterDigits_append s ends] at h ⊢
  split_ifs at h ⊢ with none
  exact tail_append h ends

/-- The digits in front of a point or an exponent. -/
def leading (negative : Bool) (s : List Char) : Significand :=
  ⟨negative, (appendDigits 0 (digits s)).1, (digits s).length - (appendDigits 0 (digits s)).2⟩

/-- All digits are kept, and no exponent follows them. -/
def isWhole (s : List Char) : Bool :=
  (appendDigits 0 (digits s)).2 == (digits s).length &&
    (afterDigits s).head?.all (!isExponentMark ·)

theorem magnitude_of_point {u : List Char} (negative : Bool) (point : afterDigits s = '.' :: u) :
    magnitude negative s = (leading negative s).fractionPart u := by
  simp only [magnitude, point, leading]

theorem magnitude_of_no_point (negative : Bool) (point : (afterDigits s).head? ≠ some '.') :
    magnitude negative s =
      if isWhole s then .ok (whole negative (appendDigits 0 (digits s)).1, afterDigits s)
      else (leading negative s).tail (afterDigits s) := by
  cases ha : afterDigits s with
  | nil => simp [magnitude, isWhole, leading, ha]
  | cons c u =>
    have hc : c ≠ '.' := by simpa [ha] using point
    simp [magnitude, isWhole, leading, ha]

theorem EndsNumber.isWhole_append (ends : EndsNumber rest) (s : List Char) :
    isWhole (s ++ rest) = isWhole s := by
  unfold isWhole
  rw [digits_append s ends, afterDigits_append s ends]
  cases afterDigits s with
  | cons c u => rfl
  | nil =>
    cases rest with
    | nil => rfl
    | cons c rest => simp [ends.2.2]

theorem leading_append (negative : Bool) (s : List Char) (ends : EndsNumber rest) :
    leading negative (s ++ rest) = leading negative s := by
  unfold leading
  rw [digits_append s ends]

theorem magnitude_append {negative : Bool} (h : magnitude negative s = .ok (n, t))
    (ends : EndsNumber rest) : magnitude negative (s ++ rest) = .ok (n, t ++ rest) := by
  have after := afterDigits_append s ends
  by_cases point : (afterDigits s).head? = some '.'
  · obtain ⟨u, hu⟩ := List.head?_eq_some_iff.mp point
    rw [magnitude_of_point negative hu] at h
    rw [hu, List.cons_append] at after
    rw [magnitude_of_point negative after, leading_append negative s ends]
    exact Significand.fractionPart_append h ends
  · have point' : (afterDigits (s ++ rest)).head? ≠ some '.' := by
      rw [after]
      cases ha : afterDigits s with
      | cons c u => simpa [ha] using point
      | nil =>
        cases rest with
        | nil => simp
        | cons c rest => simpa using ends.2.1
    rw [magnitude_of_no_point negative point] at h
    rw [magnitude_of_no_point negative point', ends.isWhole_append, after, digits_append s ends,
      leading_append negative s ends]
    split_ifs at h ⊢ with all
    · obtain ⟨rfl, rfl⟩ := Prod.mk.inj (Except.ok.inj h)
      rfl
    · exact Significand.tail_append h ends

/-- A zero in front is not followed by another digit. -/
theorem unsignedNumber_cons_eq_ok_iff {negative : Bool} {c : Char} {r : Number × List Char} :
    unsignedNumber negative (c :: s) = .ok r ↔ c.isDigit ∧
      (c = '0' → ∀ d ∈ s.head?, d.isDigit = false) ∧ magnitude negative (c :: s) = .ok r := by
  unfold unsignedNumber
  split
  · rename_i heq
    cases heq
  · rename_i d u heq
    cases heq
    by_cases digit : d.isDigit <;> simp [digit]
  · rename_i d u zero heq
    cases heq
    by_cases digit : c.isDigit
    · have single : c = '0' → s = [] := by
        rintro rfl
        cases s with
        | nil => rfl
        | cons d s => exact absurd rfl (zero d s rfl)
      simp +contextual [digit, single]
    · simp [digit]

theorem unsignedNumber_append {negative : Bool} (h : unsignedNumber negative s = .ok (n, t))
    (ends : EndsNumber rest) : unsignedNumber negative (s ++ rest) = .ok (n, t ++ rest) := by
  cases s with
  | nil => cases h
  | cons c s =>
    obtain ⟨digit, zero, h⟩ := unsignedNumber_cons_eq_ok_iff.mp h
    refine unsignedNumber_cons_eq_ok_iff.mpr ⟨digit, fun hc d hd => ?_, magnitude_append h ends⟩
    cases s with
    | nil =>
      cases rest with
      | nil => cases hd
      | cons e rest =>
        cases hd
        exact ends.1
    | cons e s => exact zero hc d hd

/-- A number is read the same in front of anything that ends it. -/
theorem readNumber_append (h : readNumber s = .ok (n, t)) (ends : EndsNumber rest) :
    readNumber (s ++ rest) = .ok (n, t ++ rest) := by
  unfold readNumber at h
  split at h
  · exact unsignedNumber_append h ends
  · rename_i positive
    cases s with
    | nil => cases h
    | cons c s =>
      have h := unsignedNumber_append h ends
      unfold readNumber
      split
      · rename_i heq
        cases heq
        exact absurd rfl (positive _)
      · exact h

theorem Significand.finish_float {e : Int} (h : m.finish e s = .ok (n, t)) :
    ∃ x, n = .float x := by
  unfold finish at h
  split at h
  · obtain ⟨rfl, rfl⟩ := Prod.mk.inj (Except.ok.inj h)
    exact ⟨_, rfl⟩
  · cases h

theorem Significand.exponentPart_float (h : m.exponentPart s = .ok (n, t)) :
    ∃ x, n = .float x := by
  obtain ⟨below, c, u, -, -, comes, -⟩ := exponentPart_eq_ok_iff.mp h
  cases value : (exponentValue 0 (c :: u)).1 with
  | some e => exact finish_float (value ▸ comes)
  | none => exact ⟨_, (value ▸ comes).2.symm⟩

theorem Significand.tail_float (h : m.tail s = .ok (n, t)) : ∃ x, n = .float x := by
  unfold tail at h
  split at h
  · exact finish_float h
  · split at h
    · exact exponentPart_float h
    · exact finish_float h

theorem Significand.fractionPart_float (h : m.fractionPart s = .ok (n, t)) :
    ∃ x, n = .float x := by
  unfold fractionPart at h
  split at h
  · cases h
  · exact tail_float h

theorem magnitude_integer {negative : Bool} {k : Int}
    (h : magnitude negative s = .ok (.integer k, t)) : t = afterDigits s := by
  by_cases point : (afterDigits s).head? = some '.'
  · obtain ⟨u, hu⟩ := List.head?_eq_some_iff.mp point
    rw [magnitude_of_point negative hu] at h
    obtain ⟨x, hx⟩ := Significand.fractionPart_float h
    cases hx
  · rw [magnitude_of_no_point negative point] at h
    split_ifs at h with all
    · exact (Prod.mk.inj (Except.ok.inj h)).2.symm
    · obtain ⟨x, hx⟩ := Significand.tail_float h
      cases hx

theorem unsignedNumber_integer {negative : Bool} {k : Int}
    (h : unsignedNumber negative s = .ok (.integer k, [])) : ∀ c ∈ s, c.isDigit := by
  cases s with
  | nil => cases h
  | cons c s =>
    obtain ⟨-, -, h⟩ := unsignedNumber_cons_eq_ok_iff.mp h
    have none := magnitude_integer h
    rw [afterDigits, eq_comm, List.dropWhile_eq_nil_iff] at none
    exact none

/-- A text that is read as a whole number has nothing but digits behind its sign. -/
theorem readNumber_integer {k : Int} (h : readNumber s = .ok (.integer k, [])) :
    ∀ c ∈ s, c = '-' ∨ c.isDigit := by
  unfold readNumber at h
  split at h
  · intro c hc
    rcases List.mem_cons.mp hc with rfl | hc
    · exact .inl rfl
    · exact .inr (unsignedNumber_integer h c hc)
  · intro c hc
    exact .inr (unsignedNumber_integer h c hc)

end

/-- A printed number has a point or an exponent. -/
theorem exists_mark_mem_json_chars (x : Float) :
    ∃ c ∈ Decimal.json.chars x, c = '.' ∨ c = 'e' := by
  have magnitude : ∃ c ∈ Decimal.json.magnitude x, c = '.' ∨ c = 'e' := by
    simp only [Decimal.Layout.magnitude]
    split
    · exact ⟨'.', by simp [Decimal.json], .inl rfl⟩
    · split
      · refine ⟨'.', ?_, .inl rfl⟩
        unfold Decimal.Layout.positional
        split
        · simp
        · simp only
          split <;> simp [Decimal.json]
      · exact ⟨'e', by simp [Decimal.Layout.scientific], .inr rfl⟩
  obtain ⟨c, hc, mark⟩ := magnitude
  refine ⟨c, ?_, mark⟩
  unfold Decimal.Layout.chars
  split
  · exact List.mem_cons_of_mem _ hc
  · exact hc

/-- The reader of numbers undoes the printer on a number, bit for bit. -/
def RestoresBits (x : Float) : Prop :=
  ∃ n, readNumber (Decimal.json.chars x) = .ok (n, []) ∧ n.toFloat = x

/-- It is read as a number that is not whole even where its value is. -/
theorem RestoresBits.readNumber_eq {x : Float} (h : RestoresBits x) :
    readNumber (Decimal.json.chars x) = .ok (.float x, []) := by
  obtain ⟨n, read, rfl⟩ := h
  cases n with
  | float x => exact read
  | integer k =>
    obtain ⟨c, hc, mark⟩ := exists_mark_mem_json_chars (Number.integer k).toFloat
    rcases readNumber_integer read c hc with rfl | digit
    · simp at mark
    · rcases mark with rfl | rfl <;> simp at digit

end FactFormula.Json
