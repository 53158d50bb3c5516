import FactFormula.Proofs.Json.FiniteNumber
import FactFormula.Proofs.Json.ReadBack

/-!
What is known of a value because it has been read. It is nested no deeper than there was room for,
and every number in it is finite; its normal form has both from it.
-/
namespace FactFormula.Json

variable {α κ : Type}

/-- The parts of a container, taken one after another until it is closed. -/
inductive Parts (next : Bool → List Char → Except Fault (Next κ))
    (part : κ → List Char → Except Fault (α × List Char)) :
    Bool → List Char → List α → List Char → Prop where
  | closed {first : Bool} {s rest : List Char} (closes : next first s = .ok (.closed rest)) :
      Parts next part first s [] rest
  | part {first : Bool} {s t u rest : List Char} {key : κ} {a : α} {later : List α}
      (found : next first s = .ok (.part key t)) (head : part key t = .ok (a, u))
      (tail : Parts next part false u later rest) : Parts next part first s (a :: later) rest

/-- A member behind its key. -/
def readMember (value : List Char → Except Fault (α × List Char)) (key : String) (s : List Char) :
    Except Fault ((String × α) × List Char) := do
  let rest ← readColon s
  let (a, rest) ← value rest
  return ((key, a), rest)

section Containers

variable {item value : List Char → Except Fault (α × List Char)} {fuel : Nat} {first : Bool}
variable {s t rest : List Char}

theorem parts_of_readItems {items : List α}
    (h : readItems item fuel first s = .ok (items, rest)) :
    Parts nextItem (fun _ => item) first s items rest ∧ items.length < fuel := by
  induction fuel generalizing first s items with
  | zero => cases h
  | succ fuel ih =>
    obtain ⟨next, found, h⟩ := (bind_eq_ok_iff ..).mp h
    cases next with
    | closed t =>
      cases h
      exact ⟨.closed found, Nat.succ_pos _⟩
    | part key t =>
      obtain ⟨⟨a, u⟩, head, h⟩ := (bind_eq_ok_iff ..).mp h
      obtain ⟨⟨later, v⟩, tail, h⟩ := (bind_eq_ok_iff ..).mp h
      cases h
      obtain ⟨tail, fewer⟩ := ih tail
      exact ⟨.part found head tail, Nat.succ_lt_succ fewer⟩

theorem parts_of_readMembers {members : List (String × α)}
    (h : readMembers value fuel first s = .ok (members, rest)) :
    Parts nextKey (readMember value) first s members rest ∧ members.length < fuel := by
  induction fuel generalizing first s members with
  | zero => cases h
  | succ fuel ih =>
    obtain ⟨next, found, h⟩ := (bind_eq_ok_iff ..).mp h
    cases next with
    | closed t =>
      cases h
      exact ⟨.closed found, Nat.succ_pos _⟩
    | part key t =>
      obtain ⟨u, colon, h⟩ := (bind_eq_ok_iff ..).mp h
      obtain ⟨⟨a, v⟩, head, h⟩ := (bind_eq_ok_iff ..).mp h
      obtain ⟨⟨later, w⟩, tail, h⟩ := (bind_eq_ok_iff ..).mp h
      cases h
      obtain ⟨tail, fewer⟩ := ih tail
      have head : readMember value key t = .ok ((key, a), v) := by simp [readMember, colon, head]
      exact ⟨.part found head tail, Nat.succ_lt_succ fewer⟩

theorem readMember_eq_ok_iff {key : String} {m : String × α} :
    readMember value key s = .ok (m, rest) ↔
      m.1 = key ∧ ∃ t, readColon s = .ok t ∧ value t = .ok (m.2, rest) := by
  obtain ⟨k, a⟩ := m
  simp only [readMember, bind_eq_ok_iff, pure_eq_ok, Except.ok.injEq, Prod.mk.injEq, Prod.exists]
  constructor
  · rintro ⟨t, colon, _, _, head, ⟨rfl, rfl⟩, rfl⟩
    exact ⟨rfl, t, colon, head⟩
  · rintro ⟨rfl, t, colon, head⟩
    exact ⟨t, colon, a, rest, head, ⟨rfl, rfl⟩, rfl⟩

/-- What holds of every part that is read holds of all parts. -/
theorem Parts.forall_mem {next : Bool → List Char → Except Fault (Next κ)}
    {part : κ → List Char → Except Fault (α × List Char)} {p : α → Prop} {parts : List α}
    (h : Parts next part first s parts rest)
    (each : ∀ {key s a rest}, part key s = .ok (a, rest) → p a) : ∀ a ∈ parts, p a := by
  induction h with
  | closed => nofun
  | part found head tail ih => exact List.forall_mem_cons.mpr ⟨each head, ih⟩

theorem Parts.forall_value_mem {next : Bool → List Char → Except Fault (Next String)}
    {p : α → Prop} {members : List (String × α)}
    (h : Parts next (readMember value) first s members rest)
    (each : ∀ {s a rest}, value s = .ok (a, rest) → p a) : ∀ m ∈ members, p m.2 := by
  refine h.forall_mem ?_
  intro key s m rest member
  obtain ⟨-, t, -, read⟩ := readMember_eq_ok_iff.mp member
  exact each read

end Containers

/-- How a value is read that is no container. -/
inductive ScalarRead : List Char → Value → List Char → Prop where
  | null {s rest : List Char} (name : readName ['u', 'l', 'l'] s = .ok rest) :
      ScalarRead ('n' :: s) .null rest
  | yes {s rest : List Char} (name : readName ['r', 'u', 'e'] s = .ok rest) :
      ScalarRead ('t' :: s) (.bool true) rest
  | no {s rest : List Char} (name : readName ['a', 'l', 's', 'e'] s = .ok rest) :
      ScalarRead ('f' :: s) (.bool false) rest
  | string {s rest : List Char} {t : String} (text : readText s = .ok (t, rest)) :
      ScalarRead ('"' :: s) (.string t) rest
  | number {c : Char} {s rest : List Char} {n : Number} (begins : c = '-' ∨ c.isDigit)
      (numeral : readNumber (c :: s) = .ok (n, rest)) : ScalarRead (c :: s) (.number n) rest

section Values

variable {room : Nat} {s rest : List Char} {v : Value}

theorem scalarRead (h : readScalar s = .ok (v, rest)) : ScalarRead s v rest := by
  unfold readScalar at h
  split at h
  · obtain ⟨t, name, h⟩ := (bind_eq_ok_iff ..).mp h
    cases h
    exact .null name
  · obtain ⟨t, name, h⟩ := (bind_eq_ok_iff ..).mp h
    cases h
    exact .yes name
  · obtain ⟨t, name, h⟩ := (bind_eq_ok_iff ..).mp h
    cases h
    exact .no name
  · obtain ⟨⟨t, u⟩, text, h⟩ := (bind_eq_ok_iff ..).mp h
    cases h
    exact .string text
  · split at h
    · obtain ⟨⟨n, u⟩, numeral, h⟩ := (bind_eq_ok_iff ..).mp h
      cases h
      exact .number ‹_› numeral
    · cases h
  · cases h

/-- A value is read as a scalar, or as a container whose parts are read with less room. -/
theorem readValue_induction {motive : Nat → List Char → Value → List Char → Prop}
    (scalar : ∀ {room s v rest}, readScalar (skipBlank s) = .ok (v, rest) → motive room s v rest)
    (array : ∀ {room s t items rest}, skipBlank s = '[' :: t →
      Parts nextItem (fun _ => readValue room) true t items rest → items.length ≤ t.length →
        (∀ {s v rest}, readValue room s = .ok (v, rest) → motive room s v rest) →
          motive (room + 1) s (.array items) rest)
    (object : ∀ {room s t members rest}, skipBlank s = '\x7b' :: t →
      Parts nextKey (readMember (readValue room)) true t members rest →
        members.length ≤ t.length →
          (∀ {s v rest}, readValue room s = .ok (v, rest) → motive room s v rest) →
            motive (room + 1) s (.object members) rest)
    (h : readValue room s = .ok (v, rest)) : motive room s v rest := by
  induction room generalizing s v rest with
  | zero =>
    unfold readValue at h
    simp only at h
    split at h
    · cases h
    · cases h
    · rename_i none _
      cases none
    · rename_i none _
      cases none
    · exact scalar h
  | succ room ih =>
    unfold readValue at h
    simp only at h
    split at h
    · rename_i none _
      cases none
    · rename_i none _
      cases none
    · rename_i same opened
      cases same
      obtain ⟨⟨items, t⟩, read, h⟩ := (bind_eq_ok_iff ..).mp h
      cases h
      obtain ⟨parts, fewer⟩ := parts_of_readItems read
      exact array opened parts (Nat.le_of_lt_succ fewer) ih
    · rename_i same opened
      cases same
      obtain ⟨⟨members, t⟩, read, h⟩ := (bind_eq_ok_iff ..).mp h
      cases h
      obtain ⟨parts, fewer⟩ := parts_of_readMembers read
      exact object opened parts (Nat.le_of_lt_succ fewer) ih
    · exact scalar h

end Values

section Nesting

theorem itemsNesting_le_iff {items : List Value} {n : Nat} :
    itemsNesting items ≤ n ↔ ∀ v ∈ items, v.nesting ≤ n := by
  induction items with
  | nil => simp [itemsNesting]
  | cons v items ih => rw [itemsNesting, max_le_iff, ih, List.forall_mem_cons]

theorem membersNesting_le_iff {members : List (String × Value)} {n : Nat} :
    membersNesting members ≤ n ↔ ∀ m ∈ members, m.2.nesting ≤ n := by
  induction members with
  | nil => simp [membersNesting]
  | cons m members ih => rw [membersNesting, max_le_iff, ih, List.forall_mem_cons]

theorem ScalarRead.nesting_eq_zero {s rest : List Char} {v : Value} (h : ScalarRead s v rest) :
    v.nesting = 0 := by
  cases h <;> rfl

theorem nesting_le_of_readValue {room : Nat} {s rest : List Char} {v : Value}
    (h : readValue room s = .ok (v, rest)) : v.nesting ≤ room := by
  refine readValue_induction (motive := fun room _ v _ => v.nesting ≤ room) ?_ ?_ ?_ h
  · intro room s v rest scalar
    exact (scalarRead scalar).nesting_eq_zero ▸ room.zero_le
  · intro room s t items rest _ parts _ ih
    exact Nat.succ_le_succ (itemsNesting_le_iff.mpr (parts.forall_mem ih))
  · intro room s t members rest _ parts _ ih
    exact Nat.succ_le_succ (membersNesting_le_iff.mpr (parts.forall_value_mem ih))

theorem Value.nesting_normalize_le (v : Value) : v.normalize.nesting ≤ v.nesting := by
  induction v with
  | null | bool b | number n | string s => exact Nat.zero_le _
  | array items ih =>
    rw [normalize, normalizeItems_eq_map]
    refine Nat.succ_le_succ (itemsNesting_le_iff.mpr ?_)
    intro v hv
    obtain ⟨w, hw, rfl⟩ := List.mem_map.mp hv
    exact (ih w hw).trans (itemsNesting_le_iff.mp le_rfl w hw)
  | object members ih =>
    refine Nat.succ_le_succ (membersNesting_le_iff.mpr ?_)
    refine forall_mem_normalizeMembers (p := fun v => v.nesting ≤ membersNesting members) ?_
    intro m hm
    exact (ih m hm).trans (membersNesting_le_iff.mp le_rfl m hm)

end Nesting

section Finite

/-- Every number in the value is finite. -/
inductive Value.FiniteNumbers : Value → Prop where
  | null : FiniteNumbers .null
  | bool (b : Bool) : FiniteNumbers (.bool b)
  | number {n : Number} (finite : n.toFloat.isFinite = true) : FiniteNumbers (.number n)
  | string (s : String) : FiniteNumbers (.string s)
  | array {items : List Value} (inside : ∀ v ∈ items, FiniteNumbers v) :
      FiniteNumbers (.array items)
  | object {members : List (String × Value)} (inside : ∀ m ∈ members, FiniteNumbers m.2) :
      FiniteNumbers (.object members)

theorem ScalarRead.finiteNumbers {s rest : List Char} {v : Value} (h : ScalarRead s v rest) :
    v.FiniteNumbers := by
  cases h with
  | null name => exact .null
  | yes name => exact .bool true
  | no name => exact .bool false
  | string text => exact .string _
  | number begins numeral => exact .number (readNumber_isFinite numeral)

theorem finiteNumbers_of_readValue {room : Nat} {s rest : List Char} {v : Value}
    (h : readValue room s = .ok (v, rest)) : v.FiniteNumbers := by
  refine readValue_induction (motive := fun _ _ v _ => v.FiniteNumbers) ?_ ?_ ?_ h
  · intro room s v rest scalar
    exact (scalarRead scalar).finiteNumbers
  · intro room s t items rest _ parts _ ih
    exact .array (parts.forall_mem ih)
  · intro room s t members rest _ parts _ ih
    exact .object (parts.forall_value_mem ih)

theorem Value.FiniteNumbers.normalize {v : Value} (h : v.FiniteNumbers) :
    v.normalize.FiniteNumbers := by
  induction h with
  | null => exact .null
  | bool b => exact .bool b
  | number finite => exact .number finite
  | string s => exact .string s
  | array inside ih =>
    rw [Value.normalize, normalizeItems_eq_map]
    apply FiniteNumbers.array
    intro v hv
    obtain ⟨w, hw, rfl⟩ := List.mem_map.mp hv
    exact ih w hw
  | object inside ih => exact .object (forall_mem_normalizeMembers ih)

end Finite

section Texts

variable {text : String}

theorem readWhole_eq_ok_iff {read : List Char → Except Fault (α × List Char)} {a : α} :
    readWhole read text = .ok a ↔
      ∃ rest, read text.toList = .ok (a, rest) ∧ skipBlank rest = [] := by
  simp only [readWhole]
  split
  · rename_i failed
    simp [failed]
  · rename_i b rest read
    simp only [read, Except.ok.injEq, Prod.mk.injEq]
    split
    · rename_i blank
      constructor
      · rintro ⟨⟩
        exact ⟨rest, ⟨rfl, rfl⟩, blank⟩
      · rintro ⟨_, ⟨rfl, rfl⟩, -⟩
        rfl
    · rename_i more
      constructor
      · rintro ⟨⟩
      · rintro ⟨_, ⟨rfl, rfl⟩, blank⟩
        exact absurd blank more

theorem Value.exists_of_ofText {v : Value} (h : Value.ofText text = .ok v) :
    ∃ w rest, readValue maxDepth text.toList = .ok (w, rest) ∧ w.normalize = v := by
  obtain ⟨w, read, h⟩ := (bind_eq_ok_iff ..).mp h
  obtain ⟨rest, read, -⟩ := readWhole_eq_ok_iff.mp read
  exact ⟨w, rest, read, Except.ok.inj h⟩

theorem Value.nesting_le_of_ofText {v : Value} (h : Value.ofText text = .ok v) :
    v.nesting ≤ maxDepth := by
  obtain ⟨w, rest, read, rfl⟩ := exists_of_ofText h
  exact w.nesting_normalize_le.trans (nesting_le_of_readValue read)

theorem Value.finiteNumbers_of_ofText {v : Value} (h : Value.ofText text = .ok v) :
    v.FiniteNumbers := by
  obtain ⟨w, rest, read, rfl⟩ := exists_of_ofText h
  exact (finiteNumbers_of_readValue read).normalize

end Texts

end FactFormula.Json
