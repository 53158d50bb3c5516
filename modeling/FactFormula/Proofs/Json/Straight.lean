import FactFormula.Proofs.Json.Passing
import FactFormula.Proofs.Json.Slots

/-!
Typed data straight off the text. Where a value could be read, a format makes of the text what it
makes of the value. Elsewhere it may find something too, because what it passes over is not read;
what the parts have of all that they read, the whole has.
-/
namespace FactFormula.Json

variable {α β σ : Type}

section Outcomes

variable {rest t : List Char} {a : α}

theorem settle_eq_ok_iff {outcome : Except Mismatch α} :
    settle outcome rest = .ok (a, t) ↔ outcome = .ok a ∧ rest = t := by
  cases outcome <;> simp [settle]

theorem closeList_eq_ok_iff {outcome : Except Fault α} :
    closeList outcome = .ok a ↔ outcome = .ok a := by
  unfold closeList
  split
  · split <;> simp
  · rfl

theorem closeObject_eq_ok_iff {outcome : Except Fault α} :
    closeObject outcome = .ok a ↔ outcome = .ok a := by
  unfold closeObject
  split
  · split <;> simp
  · rfl

theorem enter_eq_ok_iff {room : Nat} {inside : Nat → Except Fault α} :
    enter room rest inside = .ok a ↔ ∃ less, room = less + 1 ∧ inside less = .ok a := by
  cases room <;> simp [enter]

/-- The text behind a part is where the next part begins. -/
theorem exists_behind_iff {p : α → Prop} {q : α → List Char → Prop} :
    (∃ a u, (p a ∧ rest = u) ∧ q a u) ↔ ∃ a, p a ∧ q a rest := by
  constructor
  · rintro ⟨a, _, ⟨here, rfl⟩, behind⟩
    exact ⟨a, here, behind⟩
  · rintro ⟨a, here, behind⟩
    exact ⟨a, rest, ⟨here, rfl⟩, behind⟩

end Outcomes

/-- Where a value can be read, the format reads what it makes of the value. -/
def Format.Streams (f : Format α) : Prop :=
  ∀ ⦃room s v rest⦄, readValue room s = .ok (v, rest) →
    ∀ a t, f.read room s = .ok (a, t) ↔ f.ofValue v = .ok a ∧ rest = t

def Field.Streams (g : Field σ) : Prop :=
  ∀ ⦃room s v rest⦄, readValue room s = .ok (v, rest) →
    ∀ slots slots' t, g.read room s slots = .ok (slots', t) ↔
      g.ofValue v slots = .ok slots' ∧ rest = t

/-- All that the format reads off a text has the property. -/
def Format.Only (f : Format α) (p : α → Prop) : Prop :=
  ∀ ⦃room s a rest⦄, f.read room s = .ok (a, rest) → p a

def Field.Keeps (g : Field σ) (inv : σ → Prop) : Prop :=
  ∀ ⦃room s slots slots' rest⦄, inv slots → g.read room s slots = .ok (slots', rest) → inv slots'

/-- A container that is not entered must not be taken for anything. -/
def RefusesContainers (ofValue : Value → Except Mismatch α) : Prop :=
  ∀ v, 0 < v.nesting → ∀ a, ofValue v ≠ .ok a

namespace Format

theorem simple_streams {ofValue : Value → Except Mismatch α} (refuses : RefusesContainers ofValue) :
    (simple ofValue).Streams := by
  intro room s v rest h
  refine readValue_induction (motive := fun room s v rest =>
    ∀ a t, readSimple ofValue s = .ok (a, t) ↔ ofValue v = .ok a ∧ rest = t) ?_ ?_ ?_ h
  · intro room s v rest scalar a t
    unfold readSimple
    split
    · exact absurd ‹_› ((scalarRead scalar).opens_nothing _).1
    · exact absurd ‹_› ((scalarRead scalar).opens_nothing _).2
    · rw [scalar, ok_bind]
      exact settle_eq_ok_iff
  · intro room s u items rest here _ _ _ a t
    have refused (items : List Value) := refuses (.array items) (Nat.succ_pos _) a
    simp [readSimple, here, settle_eq_ok_iff, refused]
  · intro room s u members rest here _ _ _ a t
    have refused (members : List (String × Value)) := refuses (.object members) (Nat.succ_pos _) a
    simp [readSimple, here, settle_eq_ok_iff, refused]

theorem readSimple_unlike_ne_ok (expected : Expected) (s : List Char)
    {outcome : α × List Char} : readSimple (unlike expected) s ≠ .ok outcome := by
  have refused (v : Value) (rest : List Char) :
      settle (unlike expected v : Except Mismatch α) rest ≠ .ok outcome :=
    fun h => nomatch (settle_eq_ok_iff.mp h).1
  unfold readSimple
  split
  · exact refused _ _
  · exact refused _ _
  · rw [ne_eq, bind_eq_ok_iff]
    rintro ⟨⟨v, rest⟩, -, h⟩
    exact refused v rest h

theorem simple_only {ofValue : Value → Except Mismatch α} {p : α → Prop}
    (refuses : RefusesContainers ofValue)
    (scalars : ∀ {s v rest a}, ScalarRead s v rest → ofValue v = .ok a → p a) :
    (simple ofValue).Only p := by
  intro room s a rest h
  have h : readSimple ofValue s = .ok (a, rest) := h
  unfold readSimple at h
  split at h
  · exact absurd (settle_eq_ok_iff.mp h).1 (refuses (.array []) (Nat.succ_pos _) a)
  · exact absurd (settle_eq_ok_iff.mp h).1 (refuses (.object []) (Nat.succ_pos _) a)
  · obtain ⟨⟨v, t⟩, scalar, settled⟩ := (bind_eq_ok_iff ..).mp h
    exact scalars (scalarRead scalar) (settle_eq_ok_iff.mp settled).1

theorem matched_streams (ofValue : Value → Except Mismatch α) : (matched ofValue).Streams := by
  intro room s v rest read a t
  simp only [matched, read, ok_bind]
  cases ofValue v <;> simp

theorem string_streams : string.Streams :=
  simple_streams fun v container a => by cases v <;> simp [Value.nesting] at container ⊢

theorem word_streams : word.Streams :=
  simple_streams fun v container a => by cases v <;> simp [Value.nesting] at container ⊢

theorem number_streams : number.Streams :=
  simple_streams fun v container a => by cases v <;> simp [Value.nesting] at container ⊢

theorem number_only : number.Only (·.isFinite = true) := by
  apply simple_only
  · intro v container a
    cases v <;> simp [Value.nesting] at container ⊢
  · intro s v rest a scalar matched
    have finite := scalar.finiteNumbers
    cases finite <;> cases matched
    assumption

theorem Only.field {f : Format β} {p : β → Prop} (only : f.Only p) {inv : σ → Prop} (key : String)
    (get : σ → Option β) {put : β → σ → σ} (keeps : ∀ b s, p b → inv s → inv (put b s)) :
    (f.field key get put).Keeps inv := by
  intro room s slots slots' rest start h
  obtain ⟨⟨b, t⟩, read, h⟩ := (bind_eq_ok_iff ..).mp h
  cases h
  exact keeps b slots (only read) start

theorem list_only {f : Format α} {p : α → Prop} (only : f.Only p) :
    (list f).Only (∀ a ∈ ·, p a) := by
  intro room s items rest h
  simp only [list] at h
  split at h
  · obtain ⟨less, -, inside⟩ := enter_eq_ok_iff.mp h
    obtain ⟨parts, -⟩ := parts_of_readItems (closeList_eq_ok_iff.mp inside)
    exact parts.forall_mem fun head => only head
  · exact absurd h (readSimple_unlike_ne_ok _ _)

theorem Only.ofText {f : Format α} {p : α → Prop} (only : f.Only p) {text : String} {a : α}
    (h : f.ofText text = .ok a) : p a := by
  obtain ⟨rest, read, -⟩ := readWhole_eq_ok_iff.mp h
  exact only read

theorem Streams.field {f : Format β} (streams : f.Streams) (key : String) (get : σ → Option β)
    (put : β → σ → σ) : (f.field key get put).Streams := by
  intro room s v rest read slots slots' t
  rw [field_ofValue_eq_ok_iff]
  simp only [Format.field, bind_eq_ok_iff, pure_eq_ok, Except.ok.injEq, Prod.mk.injEq,
    Prod.exists, streams read, exists_behind_iff]
  simp only [← and_assoc, exists_and_right]

/-- Items are read one by one as they come. -/
theorem readItems_eq_ok_iff {f : Format α} (streams : f.Streams) {room : Nat} {first : Bool}
    {s rest : List Char} {items : List Value}
    (parts : Parts nextItem (fun _ => readValue room) first s items rest) {fuel : Nat}
    (enough : items.length < fuel) (as : List α) (t : List Char) :
    readItems (f.read room) fuel first s = .ok (as, t) ↔
      items.mapM f.ofValue = .ok as ∧ rest = t := by
  induction parts generalizing fuel as t with
  | closed found =>
    obtain ⟨fuel, rfl⟩ := Nat.exists_eq_succ_of_ne_zero (Nat.ne_zero_of_lt enough)
    simp [readItems, found]
  | part found head tail ih =>
    obtain ⟨fuel, rfl⟩ := Nat.exists_eq_succ_of_ne_zero (Nat.ne_zero_of_lt enough)
    have later := ih (Nat.lt_of_succ_lt_succ enough)
    simp only [readItems, found, ok_bind, bind_eq_ok_iff, Prod.exists, streams head,
      exists_behind_iff, later, List.mapM_cons, pure_eq_ok, Except.ok.injEq, Prod.mk.injEq]
    simp only [← and_assoc, exists_and_right]

theorem list_streams {f : Format α} (streams : f.Streams) : (list f).Streams := by
  intro room s v rest h
  refine readValue_induction (motive := fun room s v rest =>
    ∀ as t, (list f).read room s = .ok (as, t) ↔ (list f).ofValue v = .ok as ∧ rest = t) ?_ ?_ ?_ h
  · intro room s v rest scalar as t
    have scalar := scalarRead scalar
    have refused : (list f).ofValue v ≠ .ok as := by
      have scalar := scalar.nesting_eq_zero
      cases v with
      | array items => cases scalar
      | null | bool b | number n | string s | object members => nofun
    simp only [list]
    split
    · exact absurd ‹_› (scalar.opens_nothing _).1
    · exact iff_of_false (readSimple_unlike_ne_ok _ _) fun h => refused h.1
  · intro room s u items rest here parts fewer _ as t
    simp only [list, here, enter, closeList_eq_ok_iff]
    exact readItems_eq_ok_iff streams parts (Nat.lt_succ_of_le fewer) as t
  · intro room s u members rest here _ _ _ as t
    have refused : (list f).ofValue (.object members) ≠ .ok as := nofun
    simp only [list, here]
    exact iff_of_false (readSimple_unlike_ne_ok _ _) fun h => refused h.1

end Format

namespace Record

variable {r : Record σ α} {room : Nat} {first : Bool} {s rest : List Char}

/-- Members are filled in as they come; those that are no fields are passed over. -/
theorem readMembers_eq_ok_iff (streams : ∀ g ∈ r.fields, g.Streams)
    {members : List (String × Value)}
    (parts : Parts nextKey (readMember (readValue room)) first s members rest) {fuel : Nat}
    (enough : members.length < fuel) (slots u : σ) (t : List Char) :
    r.readMembers room fuel first slots s = .ok (u, t) ↔
      r.fillMembers slots members = .ok u ∧ rest = t := by
  induction parts generalizing fuel slots with
  | closed found =>
    obtain ⟨fuel, rfl⟩ := Nat.exists_eq_succ_of_ne_zero (Nat.ne_zero_of_lt enough)
    simp [readMembers, found, fillMembers]
  | @part first s mid after rest key m later found head tail ih =>
    obtain ⟨fuel, rfl⟩ := Nat.exists_eq_succ_of_ne_zero (Nat.ne_zero_of_lt enough)
    obtain ⟨rfl, w, colon, value⟩ := readMember_eq_ok_iff.mp head
    have later := ih (Nat.lt_of_succ_lt_succ enough)
    simp only [readMembers, found, ok_bind, fillMembers, colon]
    cases hk : r.field? m.1 with
    | none => simp only [skipValue_of_readValue value, ok_bind, later]
    | some g =>
      simp only
      split
      · simp
      · simp only [bind_eq_ok_iff, Prod.exists, streams g (key_of_field? hk).1 value,
          exists_behind_iff, later]
        simp only [← and_assoc, exists_and_right]

theorem endList_eq_ok_iff {t : List Char} : endList s = .ok t ↔ skipBlank s = ']' :: t := by
  unfold endList
  split
  · rename_i here
    simp [here]
  · rename_i here
    simp [here]
  · rename_i here
    rw [here]
    split <;> simp
  · rename_i other _
    exact iff_of_false nofun (other t)

/-- No item stands where a list ends. -/
theorem endList_of_nextItem {t u : List Char} (h : nextItem first s = .ok (.part () u)) :
    endList s ≠ .ok t := by
  rw [ne_eq, endList_eq_ok_iff]
  cases itemFound_of_nextItem h with
  | first here more => simp [here, more]
  | later here => simp [here]

theorem readItems_eq_ok_iff {fields : List (Field σ)} (streams : ∀ g ∈ fields, g.Streams)
    {items : List Value} (parts : Parts nextItem (fun _ => readValue room) first s items rest)
    {count : Nat} (start : first = (count == 0)) (slots u : σ) (t : List Char) :
    r.readItems room count slots s fields = .ok (u, t) ↔
      r.fillItems slots count fields items = .ok u ∧ rest = t := by
  induction fields generalizing first s items count slots with
  | nil =>
    simp only [readItems, bind_eq_ok_iff, pure_eq_ok, Except.ok.injEq, Prod.mk.injEq]
    cases parts with
    | closed found =>
      have here : skipBlank s = ']' :: rest := by
        cases itemFound_of_nextItem found with
        | closed here => exact here
      simp [endList_eq_ok_iff, here, fillItems, and_comm]
    | part found head tail =>
      simp [endList_of_nextItem found, fillItems]
  | cons g fields ih =>
    obtain ⟨streams, others⟩ := List.forall_mem_cons.mp streams
    cases parts with
    | closed found => simp [readItems, ← start, found, fillItems]
    | @part _ _ mid after _ _ v _ found head tail =>
      have second : false = (count + 1 == 0) := rfl
      have later := ih others tail second
      simp only [readItems, ← start, found, ok_bind, bind_eq_ok_iff, Prod.exists, streams head,
        fillItems, exists_behind_iff, later]
      simp only [← and_assoc, exists_and_right]

theorem ofValue_scalar_ne_ok {v : Value} (scalar : v.nesting = 0) (a : α) :
    r.ofValue v ≠ .ok a := by
  cases v with
  | null | bool b | number n | string s => nofun
  | array items => cases scalar
  | object members => cases scalar

/-- A record is read straight off the text if its fields are. -/
theorem format_streams (streams : ∀ g ∈ r.fields, g.Streams) : r.format.Streams := by
  intro room s v rest h
  refine readValue_induction (motive := fun room s v rest =>
    ∀ a t, r.read room s = .ok (a, t) ↔ r.ofValue v = .ok a ∧ rest = t) ?_ ?_ ?_ h
  · intro room s v rest scalar a t
    have scalar := scalarRead scalar
    have refused : r.ofValue v ≠ .ok a := ofValue_scalar_ne_ok scalar.nesting_eq_zero a
    unfold Record.read
    split
    · exact absurd ‹_› (scalar.opens_nothing _).1
    · exact absurd ‹_› (scalar.opens_nothing _).2
    · exact iff_of_false (Format.readSimple_unlike_ne_ok _ _) fun h => refused h.1
  · intro room s u items rest here parts _ _ a t
    have atFirst : true = (0 == 0) := rfl
    simp only [Record.read, here, enter, closeList_eq_ok_iff, bind_eq_ok_iff, Prod.exists,
      settle_eq_ok_iff, readItems_eq_ok_iff streams parts atFirst, ofValue, exists_behind_iff]
    simp only [← and_assoc, exists_and_right]
  · intro room s u members rest here parts fewer _ a t
    simp only [Record.read, here, enter, closeObject_eq_ok_iff, bind_eq_ok_iff, Prod.exists,
      settle_eq_ok_iff, readMembers_eq_ok_iff streams parts (Nat.lt_succ_of_le fewer), ofValue,
      exists_behind_iff]
    simp only [← and_assoc, exists_and_right]

section Invariants

variable {inv : σ → Prop} {fuel count : Nat} {slots u : σ}

theorem readMembers_keeps (keeps : ∀ g ∈ r.fields, g.Keeps inv) (start : inv slots)
    (h : r.readMembers room fuel first slots s = .ok (u, rest)) : inv u := by
  induction fuel generalizing first slots s with
  | zero => cases h
  | succ fuel ih =>
    obtain ⟨next, -, h⟩ := (bind_eq_ok_iff ..).mp h
    cases next with
    | closed t =>
      cases h
      exact start
    | part key t =>
      simp only at h
      split at h
      · obtain ⟨v, -, h⟩ := (bind_eq_ok_iff ..).mp h
        obtain ⟨w, -, h⟩ := (bind_eq_ok_iff ..).mp h
        exact ih start h
      · rename_i g found
        split at h
        · cases h
        · obtain ⟨v, -, h⟩ := (bind_eq_ok_iff ..).mp h
          obtain ⟨⟨slots', w⟩, filled, h⟩ := (bind_eq_ok_iff ..).mp h
          exact ih (keeps g (key_of_field? found).1 start filled) h

theorem readItems_keeps {fields : List (Field σ)} (keeps : ∀ g ∈ fields, g.Keeps inv)
    (start : inv slots) (h : r.readItems room count slots s fields = .ok (u, rest)) : inv u := by
  induction fields generalizing count slots s with
  | nil =>
    obtain ⟨t, -, h⟩ := (bind_eq_ok_iff ..).mp h
    cases h
    exact start
  | cons g fields ih =>
    obtain ⟨here, others⟩ := List.forall_mem_cons.mp keeps
    obtain ⟨next, -, h⟩ := (bind_eq_ok_iff ..).mp h
    cases next with
    | closed t => cases h
    | part key t =>
      obtain ⟨⟨slots', w⟩, filled, h⟩ := (bind_eq_ok_iff ..).mp h
      exact ih others (here start filled) h

/-- An invariant of the slots that every field keeps holds where the record is built. -/
theorem format_only {p : α → Prop} (vacant : inv r.vacant) (keeps : ∀ g ∈ r.fields, g.Keeps inv)
    (build : ∀ slots a, inv slots → r.build slots = .ok a → p a) : r.format.Only p := by
  intro room s a rest h
  have h : r.read room s = .ok (a, rest) := h
  unfold Record.read at h
  split at h
  · obtain ⟨less, -, inside⟩ := enter_eq_ok_iff.mp h
    obtain ⟨⟨slots, t⟩, filled, settled⟩ :=
      (bind_eq_ok_iff ..).mp (closeList_eq_ok_iff.mp inside)
    exact build slots a (readItems_keeps keeps vacant filled) (settle_eq_ok_iff.mp settled).1
  · obtain ⟨less, -, inside⟩ := enter_eq_ok_iff.mp h
    obtain ⟨⟨slots, t⟩, filled, settled⟩ :=
      (bind_eq_ok_iff ..).mp (closeObject_eq_ok_iff.mp inside)
    exact build slots a (readMembers_keeps keeps vacant filled) (settle_eq_ok_iff.mp settled).1
  · exact absurd h (Format.readSimple_unlike_ne_ok _ _)

end Invariants

end Record

/-- A text that can be read as a value holds what the format makes of the value. -/
theorem Format.Streams.ofText_eq_ok_iff {f : Format α} (streams : f.Streams) {text : String}
    {v : Value} (read : readWhole (readValue maxDepth) text = .ok v) (a : α) :
    f.ofText text = .ok a ↔ f.ofValue v = .ok a := by
  obtain ⟨rest, read, blank⟩ := readWhole_eq_ok_iff.mp read
  simp only [ofText, readWhole_eq_ok_iff, streams read]
  constructor
  · rintro ⟨_, ⟨h, rfl⟩, -⟩
    exact h
  · intro h
    exact ⟨rest, ⟨h, rfl⟩, blank⟩

end FactFormula.Json
