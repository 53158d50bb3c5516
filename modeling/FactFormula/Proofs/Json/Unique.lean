import FactFormula.Proofs.Decimal.Distinct
import FactFormula.Proofs.Json.Normal
import FactFormula.Proofs.Json.Printed

/-!
A text is the text of one value only. In front of anything that may follow a value, its text
determines the value and the place where it ends.
-/
namespace FactFormula.Json

/-- Nothing, or what follows an item or a member. -/
def EndsValue : List Char → Prop
  | [] => True
  | c :: _ => c = ',' ∨ c = ']' ∨ c = '\x7d'

/-- The text determines the value and its end. -/
def Value.Determined (v : Value) : Prop :=
  ∀ w r s, EndsValue r → EndsValue s → v.chars ++ r = w.chars ++ s → v = w ∧ r = s

theorem quote_append_inj {a b r s : List Char} (h : quote a ++ r = quote b ++ s) :
    a = b ∧ r = s := by
  have inner : escape a ++ '"' :: r = escape b ++ '"' :: s := by simpa [quote] using h
  have read := readQuoted_escape a r
  rw [inner, readQuoted_escape b s] at read
  obtain ⟨rfl, rfl⟩ := Prod.mk.inj (Except.ok.inj read)
  exact ⟨rfl, rfl⟩

section Numbers

theorem EndsValue.takeWhile_eq {r : List Char} (ends : EndsValue r) :
    r.takeWhile Decimal.isNumeral = [] := by
  cases r with
  | nil => rfl
  | cons c r => rcases ends with rfl | rfl | rfl <;> rfl

theorem takeWhile_numeral {a r : List Char} (numeral : ∀ c ∈ a, Decimal.isNumeral c = true)
    (ends : EndsValue r) : (a ++ r).takeWhile Decimal.isNumeral = a := by
  rw [List.takeWhile_append_of_pos numeral, ends.takeWhile_eq, List.append_nil]

namespace Number

theorem chars_numeral (n : Number) : ∀ c ∈ n.chars, Decimal.isNumeral c = true := by
  cases n with
  | integer n => exact Decimal.isNumeral_integer n
  | float x => exact Decimal.Layout.chars_numeral Decimal.json_plain x

/-- A whole number has neither point nor exponent, any other has one of them. -/
theorem integer_ne_json_chars (n : ℤ) (x : Float) : Decimal.integer n ≠ Decimal.json.chars x := by
  intro same
  obtain ⟨c, hc, mark⟩ := exists_mark_mem_json_chars x
  rw [← same] at hc
  have digit (n : ℕ) := Decimal.allDigits_natural n
  unfold Decimal.integer at hc
  split_ifs at hc with negative
  · rcases List.mem_cons.mp hc with rfl | hc
    · simp at mark
    · rcases mark with rfl | rfl <;> cases digit _ _ hc
  · rcases mark with rfl | rfl <;> cases digit _ _ hc

theorem chars_injective : Function.Injective chars := by
  intro n m same
  cases n with
  | integer n =>
    cases m with
    | integer m =>
      have digits : Decimal.integer n = Decimal.integer m := same
      rw [← Decimal.spelledInt_integer n, digits, Decimal.spelledInt_integer]
    | float x => exact absurd same (integer_ne_json_chars n x)
  | float x =>
    cases m with
    | integer m => exact absurd same.symm (integer_ne_json_chars m x)
    | float y => rw [Decimal.Layout.chars_injective Decimal.json_plain same]

theorem chars_append_inj {n m : Number} {r s : List Char} (hr : EndsValue r) (hs : EndsValue s)
    (h : n.chars ++ r = m.chars ++ s) : n = m ∧ r = s := by
  have same : n.chars = m.chars := by
    rw [← takeWhile_numeral n.chars_numeral hr, h, takeWhile_numeral m.chars_numeral hs]
  rw [same] at h
  exact ⟨chars_injective same, List.append_cancel_left h⟩

end Number

end Numbers

section Kinds

/-- What the first character of a text tells about its value. -/
inductive Kind where
  | null
  | bool (b : Bool)
  | number
  | string
  | array
  | object

def Value.kind : Value → Kind
  | .null => .null
  | .bool b => .bool b
  | .number _ => .number
  | .string _ => .string
  | .array _ => .array
  | .object _ => .object

def Kind.ofChar? (c : Char) : Option Kind :=
  match c with
  | 'n' => some .null
  | 't' => some (.bool true)
  | 'f' => some (.bool false)
  | '"' => some .string
  | '[' => some .array
  | '\x7b' => some .object
  | c => if c = '-' ∨ c.isDigit then some .number else none

theorem Kind.ofChar?_number {c : Char} (h : c = '-' ∨ c.isDigit = true) :
    ofChar? c = some .number := by
  unfold ofChar?
  split
  any_goals simp at h
  exact if_pos h

theorem Number.chars_begins (n : Number) :
    ∃ c s, n.chars = c :: s ∧ (c = '-' ∨ c.isDigit = true) := by
  cases n with
  | integer n => exact Decimal.integer_begins n
  | float x => exact Decimal.Layout.chars_begins Decimal.json x

theorem Value.chars_begins (v : Value) :
    ∃ c s, v.chars = c :: s ∧ Kind.ofChar? c = some v.kind := by
  cases v with
  | bool b => cases b <;> exact ⟨_, _, rfl, rfl⟩
  | number n =>
    obtain ⟨c, s, split, begins⟩ := n.chars_begins
    exact ⟨c, s, split, Kind.ofChar?_number begins⟩
  | null | string | array | object => exact ⟨_, _, rfl, rfl⟩

theorem Value.kind_eq {v w : Value} {r s : List Char} (h : v.chars ++ r = w.chars ++ s) :
    v.kind = w.kind := by
  obtain ⟨c, t, hv, kind⟩ := v.chars_begins
  obtain ⟨d, u, hw, kind'⟩ := w.chars_begins
  rw [hv, hw] at h
  rw [(List.cons.inj h).1, kind'] at kind
  exact (Option.some.inj kind).symm

end Kinds

section Items

theorem endsValue_itemTail (items : List Value) (r : List Char) : EndsValue (itemTail items ++ r) := by
  cases items with
  | nil => exact .inr (.inl rfl)
  | cons v items => exact .inl rfl

/-- No item begins with the bracket that closes a list. -/
theorem Value.chars_ne_bracket (v : Value) (r s : List Char) : v.chars ++ r ≠ ']' :: s := by
  obtain ⟨c, t, split, kind⟩ := v.chars_begins
  rw [split]
  intro h
  cases (List.cons.inj h).1
  cases kind

theorem itemTail_append_inj {items : List Value} (determined : ∀ v ∈ items, v.Determined)
    {items' : List Value} {r s : List Char} (h : itemTail items ++ r = itemTail items' ++ s) :
    items = items' ∧ r = s := by
  induction items generalizing items' with
  | nil =>
    cases items' with
    | nil => exact ⟨rfl, (List.cons.inj h).2⟩
    | cons w items' => cases (List.cons.inj h).1
  | cons v items ih =>
    cases items' with
    | nil => cases (List.cons.inj h).1
    | cons w items' =>
      simp only [itemTail_cons, itemChars_cons, List.cons_append, List.append_assoc,
        List.cons.injEq, true_and] at h
      obtain ⟨rfl, tail⟩ := determined v List.mem_cons_self w _ _ (endsValue_itemTail _ _)
        (endsValue_itemTail _ _) h
      obtain ⟨rfl, rest⟩ := ih (fun u hu => determined u (List.mem_cons_of_mem _ hu)) tail
      exact ⟨rfl, rest⟩

theorem itemChars_append_inj {items : List Value} (determined : ∀ v ∈ items, v.Determined)
    {items' : List Value} {r s : List Char} (h : itemChars items ++ r = itemChars items' ++ s) :
    items = items' ∧ r = s := by
  cases items with
  | nil =>
    cases items' with
    | nil => exact ⟨rfl, (List.cons.inj h).2⟩
    | cons w items' =>
      rw [itemChars_cons, List.append_assoc] at h
      exact absurd h.symm (w.chars_ne_bracket _ _)
  | cons v items =>
    cases items' with
    | nil =>
      rw [itemChars_cons, List.append_assoc] at h
      exact absurd h (v.chars_ne_bracket _ _)
    | cons w items' =>
      apply itemTail_append_inj determined
      rw [itemTail_cons, itemTail_cons, List.cons_append, List.cons_append, h]

end Items

section Members

theorem endsValue_memberTail (members : List (String × Value)) (r : List Char) :
    EndsValue (memberTail members ++ r) := by
  cases members with
  | nil => exact .inr (.inr rfl)
  | cons m members => exact .inl rfl

theorem memberTail_append_inj {members : List (String × Value)}
    (determined : ∀ m ∈ members, m.2.Determined) {members' : List (String × Value)}
    {r s : List Char} (h : memberTail members ++ r = memberTail members' ++ s) :
    members = members' ∧ r = s := by
  induction members generalizing members' with
  | nil =>
    cases members' with
    | nil => exact ⟨rfl, (List.cons.inj h).2⟩
    | cons n members' => cases (List.cons.inj h).1
  | cons m members ih =>
    cases members' with
    | nil => cases (List.cons.inj h).1
    | cons n members' =>
      simp only [memberTail_cons, memberChars_cons, List.cons_append, List.append_assoc,
        List.cons.injEq, true_and] at h
      obtain ⟨key, value⟩ := quote_append_inj h
      obtain ⟨same, tail⟩ := determined m List.mem_cons_self n.2 _ _ (endsValue_memberTail _ _)
        (endsValue_memberTail _ _) (List.cons.inj value).2
      obtain ⟨rfl, rest⟩ := ih (fun u hu => determined u (List.mem_cons_of_mem _ hu)) tail
      obtain rfl : m = n := Prod.ext (String.toList_inj.mp key) same
      exact ⟨rfl, rest⟩

theorem memberChars_append_inj {members : List (String × Value)}
    (determined : ∀ m ∈ members, m.2.Determined) {members' : List (String × Value)}
    {r s : List Char} (h : memberChars members ++ r = memberChars members' ++ s) :
    members = members' ∧ r = s := by
  cases members with
  | nil =>
    cases members' with
    | nil => exact ⟨rfl, (List.cons.inj h).2⟩
    | cons n members' =>
      rw [memberChars_cons, quote] at h
      cases (List.cons.inj h).1
  | cons m members =>
    cases members' with
    | nil =>
      rw [memberChars_cons, quote] at h
      cases (List.cons.inj h).1
    | cons n members' =>
      apply memberTail_append_inj determined
      rw [memberTail_cons, memberTail_cons, List.cons_append, List.cons_append, h]

end Members

namespace Value

/-- Every text determines its value and its end: its first character tells the kind, and of one
kind the parts are determined one after the other. -/
theorem determined (v : Value) : v.Determined := by
  induction v with
  | null =>
    intro w r s _ _ h
    have kind := kind_eq h
    cases w <;> cases kind
    exact ⟨rfl, List.append_cancel_left h⟩
  | bool b =>
    intro w r s _ _ h
    have kind := kind_eq h
    cases w <;> cases kind
    exact ⟨rfl, List.append_cancel_left h⟩
  | number n =>
    intro w r s hr hs h
    have kind := kind_eq h
    cases w <;> cases kind
    obtain ⟨rfl, rest⟩ := Number.chars_append_inj hr hs h
    exact ⟨rfl, rest⟩
  | string a =>
    intro w r s _ _ h
    have kind := kind_eq h
    cases w <;> cases kind
    obtain ⟨same, rest⟩ := quote_append_inj h
    exact ⟨congrArg string (String.toList_inj.mp same), rest⟩
  | array items ih =>
    intro w r s _ _ h
    have kind := kind_eq h
    cases w <;> cases kind
    obtain ⟨rfl, rest⟩ := itemChars_append_inj ih (List.cons.inj h).2
    exact ⟨rfl, rest⟩
  | object members ih =>
    intro w r s _ _ h
    have kind := kind_eq h
    cases w <;> cases kind
    obtain ⟨rfl, rest⟩ := memberChars_append_inj ih (List.cons.inj h).2
    exact ⟨rfl, rest⟩

/-- Different values have different texts. -/
theorem text_injective : Function.Injective text := by
  intro v w same
  have chars : v.chars ++ [] = w.chars ++ [] := by rw [String.ofList_inj.mp same]
  exact (v.determined w [] [] trivial trivial chars).1

end Value

end FactFormula.Json
