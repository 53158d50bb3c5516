import FactFormula.Proofs.Json.Normal
import FactFormula.Proofs.Json.Printed

/-!
The reader of values undoes the printer. How deep a value is nested decides whether it is read at
all.
-/
namespace FactFormula.Json

mutual

/-- How many containers stand inside one another. -/
def Value.nesting : Value → Nat
  | .null | .bool _ | .number _ | .string _ => 0
  | .array items => itemsNesting items + 1
  | .object members => membersNesting members + 1

def itemsNesting : List Value → Nat
  | [] => 0
  | v :: rest => max v.nesting (itemsNesting rest)

def membersNesting : List (String × Value) → Nat
  | [] => 0
  | (_, v) :: rest => max v.nesting (membersNesting rest)

end

/-- Every number is read back from its own text. -/
inductive Value.Restores : Value → Prop where
  | null : Restores .null
  | bool (b : Bool) : Restores (.bool b)
  | number {n : Number} (read : readNumber n.chars = .ok (n, [])) : Restores (.number n)
  | string (s : String) : Restores (.string s)
  | array {items : List Value} (inside : ∀ v ∈ items, Restores v) : Restores (.array items)
  | object {members : List (String × Value)} (inside : ∀ m ∈ members, Restores m.2) :
      Restores (.object members)

/-- A value if there is room for it. -/
def Value.within (room : Nat) (v : Value) : Option Value :=
  if v.nesting ≤ room then some v else none

theorem mapM_within (room : Nat) (items : List Value) :
    items.mapM (Value.within room) = if itemsNesting items ≤ room then some items else none := by
  induction items with
  | nil => simp [itemsNesting]
  | cons v items ih =>
    rw [List.mapM_cons, ih, itemsNesting, Value.within]
    by_cases hv : v.nesting ≤ room <;> by_cases hi : itemsNesting items ≤ room <;> simp [hv, hi]

theorem mapM_memberMeaning_within (room : Nat) (members : List (String × Value)) :
    members.mapM (memberMeaning (Value.within room)) =
      if membersNesting members ≤ room then some members else none := by
  induction members with
  | nil => simp [membersNesting]
  | cons m members ih =>
    rw [List.mapM_cons, ih, membersNesting, memberMeaning, Value.within]
    by_cases hv : m.2.nesting ≤ room <;> by_cases hi : membersNesting members ≤ room <;>
      simp [hv, hi]

namespace Value

theorem within_scalar {v : Value} (scalar : v.nesting = 0) (room : Nat) :
    v.within room = some v :=
  if_pos (scalar ▸ room.zero_le)

theorem within_array (items : List Value) (room : Nat) :
    (array items).within (room + 1) = (do return .array (← items.mapM (within room))) := by
  rw [mapM_within, within, nesting]
  by_cases h : itemsNesting items ≤ room <;> simp [h]

theorem within_object (members : List (String × Value)) (room : Nat) :
    (object members).within (room + 1) =
      (do return .object (← members.mapM (memberMeaning (within room)))) := by
  rw [mapM_memberMeaning_within, within, nesting]
  by_cases h : membersNesting members ≤ room <;> simp [h]

end Value

section

variable {c : Char} {s : List Char} {room : Nat}

theorem readValue_of_scalar (blank : isBlank c = false) (list : c ≠ '[') (object : c ≠ '\x7b') :
    readValue room (c :: s) = readScalar (c :: s) := by
  have skip : skipBlank (c :: s) = c :: s := by simp [skipBlank, blank]
  unfold readValue
  simp only [skip]
  split
  · rename_i heq
    cases heq
    exact absurd rfl list
  · rename_i heq
    cases heq
    exact absurd rfl object
  · rename_i heq
    cases heq
    exact absurd rfl list
  · rename_i heq
    cases heq
    exact absurd rfl object
  · rfl

theorem readValue_zero_list :
    readValue 0 ('[' :: s) = .error (peeked .tooDeep ('[' :: s)) := by
  simp [readValue, skipBlank, isBlank]

theorem readValue_zero_object :
    readValue 0 ('\x7b' :: s) = .error (peeked .tooDeep ('\x7b' :: s)) := by
  simp [readValue, skipBlank, isBlank]

theorem readValue_list : readValue (room + 1) ('[' :: s) = (do
    let (items, rest) ← readItems (readValue room) (s.length + 1) true s
    return (.array items, rest)) := by
  simp [readValue, skipBlank, isBlank]

theorem readValue_object : readValue (room + 1) ('\x7b' :: s) = (do
    let (members, rest) ← readMembers (readValue room) (s.length + 1) true s
    return (.object members, rest)) := by
  simp [readValue, skipBlank, isBlank]

/-- A number begins with a sign or a digit. -/
theorem readNumber_begins {n : Number} {t : List Char} (h : readNumber s = .ok (n, t)) :
    ∃ c u, s = c :: u ∧ (c = '-' ∨ c.isDigit) := by
  unfold readNumber at h
  split at h
  · exact ⟨'-', _, rfl, .inl rfl⟩
  · cases s with
    | nil => cases h
    | cons c u => exact ⟨c, u, rfl, .inr (unsignedNumber_cons_eq_ok_iff.mp h).1⟩

/-- No digit and no sign is a character with which something else begins. -/
theorem ne_of_sign_or_digit (h : c = '-' ∨ c.isDigit) {d : Char} (sign : d ≠ '-')
    (digit : d.isDigit = false) : c ≠ d := by
  rintro rfl
  rcases h with h | h
  · exact sign h
  · exact Bool.false_ne_true (digit.symm.trans h)

theorem isBlank_eq_false (h : c = '-' ∨ c.isDigit) : isBlank c = false := by
  have differs {d : Char} := ne_of_sign_or_digit h (d := d)
  simp [isBlank, @differs ' ' (by decide) rfl, @differs '\t' (by decide) rfl,
    @differs '\n' (by decide) rfl, @differs '\r' (by decide) rfl]

theorem readValue_number {n : Number} {t : List Char} (h : readNumber s = .ok (n, t)) :
    readValue room s = .ok (.number n, t) := by
  obtain ⟨c, u, rfl, begins⟩ := readNumber_begins h
  have differs {d : Char} := ne_of_sign_or_digit begins (d := d)
  rw [readValue_of_scalar (isBlank_eq_false begins) (differs (by decide) rfl)
    (differs (by decide) rfl)]
  unfold readScalar
  split
  · rename_i heq
    exact absurd (List.cons.inj heq).1 (differs (by decide) rfl)
  · rename_i heq
    exact absurd (List.cons.inj heq).1 (differs (by decide) rfl)
  · rename_i heq
    exact absurd (List.cons.inj heq).1 (differs (by decide) rfl)
  · rename_i heq
    exact absurd (List.cons.inj heq).1 (differs (by decide) rfl)
  · rename_i heq
    cases heq
    rw [if_pos begins, h]
    rfl
  · rename_i heq
    cases heq

end

theorem Value.Restores.beginsItem {v : Value} (h : v.Restores) : BeginsItem v.chars := by
  cases h with
  | null => exact ⟨rfl, by decide⟩
  | bool b => cases b <;> exact ⟨rfl, by decide⟩
  | number read =>
    obtain ⟨c, u, hs, begins⟩ := readNumber_begins read
    rw [Value.chars, hs]
    exact ⟨isBlank_eq_false begins, ne_of_sign_or_digit begins (by decide) rfl⟩
  | string s => exact ⟨rfl, by decide⟩
  | array inside => exact ⟨rfl, by decide⟩
  | object inside => exact ⟨rfl, by decide⟩

/-- A printed value is read as itself where there is room for it, and refused elsewhere. -/
theorem Value.Restores.yields {v : Value} (h : v.Restores) (room : Nat) :
    Yields (readValue room) v.chars (v.within room) := by
  induction h generalizing room with
  | null =>
    intro rest _
    rw [within_scalar rfl]
    exact readValue_of_scalar rfl (by decide) (by decide)
  | bool b =>
    intro rest _
    rw [within_scalar rfl]
    cases b <;> exact readValue_of_scalar rfl (by decide) (by decide)
  | number read =>
    intro rest ends
    rw [within_scalar rfl]
    exact readValue_number (readNumber_append read ends)
  | string s =>
    intro rest _
    rw [within_scalar rfl]
    have text : readText (escape s.toList ++ '"' :: rest) = .ok (s, rest) := by
      simp [readText, readQuoted_escape]
    rw [chars, quote, List.cons_append, List.cons_append, List.append_assoc, List.singleton_append]
    refine (readValue_of_scalar rfl (by decide) (by decide)).trans ?_
    simp [readScalar, text]
  | array inside ih =>
    intro rest _
    cases room with
    | zero => exact ⟨_, readValue_zero_list⟩
    | succ room =>
      have read := gives_itemChars (fun v hv => ⟨(inside v hv).beginsItem, ih v hv room⟩) rest
      rw [within_array, chars, List.cons_append, readValue_list]
      exact read.bind fun items => rfl
  | object inside ih =>
    intro rest _
    cases room with
    | zero => exact ⟨_, readValue_zero_object⟩
    | succ room =>
      have read := gives_memberChars (fun m hm => ih m hm room) rest
      rw [within_object, chars, List.cons_append, readValue_object]
      exact read.bind fun members => rfl

/-- The text of a value that is not nested too deep is read as the value. -/
theorem Value.Restores.readWhole_text {v : Value} (h : v.Restores) (fits : v.nesting ≤ maxDepth) :
    readWhole (readValue maxDepth) v.text = .ok v := by
  have read : Gives (readValue maxDepth (v.chars ++ [])) [] (v.within maxDepth) :=
    h.yields maxDepth [] trivial
  rw [List.append_nil, within, if_pos fits] at read
  have read : readValue maxDepth v.chars = .ok (v, []) := read
  simp [readWhole, text, read, skipBlank]

theorem Value.Restores.ofText_text {v : Value} (h : v.Restores) (fits : v.nesting ≤ maxDepth) :
    Value.ofText v.text = .ok v.normalize := by
  rw [ofText, h.readWhole_text fits]
  rfl

theorem Value.Restores.ofText_text_of_lt {v : Value} (h : v.Restores)
    (deep : maxDepth < v.nesting) : ∃ e, Value.ofText v.text = .error e := by
  have read : Gives (readValue maxDepth (v.chars ++ [])) [] (v.within maxDepth) :=
    h.yields maxDepth [] trivial
  rw [List.append_nil, within, if_neg (not_le.mpr deep)] at read
  obtain ⟨fault, read⟩ := read
  simp [ofText, readWhole, text, read]

/-- The normal form has no other numbers. -/
theorem Value.Restores.normalize {v : Value} (h : v.Restores) : v.normalize.Restores := by
  induction h with
  | null => exact .null
  | bool b => exact .bool b
  | number read => exact .number read
  | string s => exact .string s
  | array inside ih =>
    rw [Value.normalize, normalizeItems_eq_map]
    apply Restores.array
    intro v hv
    obtain ⟨w, hw, rfl⟩ := List.mem_map.mp hv
    exact ih w hw
  | object inside ih => exact .object (forall_mem_normalizeMembers ih)

end FactFormula.Json
