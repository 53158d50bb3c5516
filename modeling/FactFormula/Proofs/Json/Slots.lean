import FactFormula.Json.Record
import FactFormula.Proofs.Json.Normal

/-!
Records out of members. Each field has a slot of its own, so the order of the members does not
matter: a slot holds what the one member of its key stands for.
-/
namespace FactFormula.Json

variable {σ α β : Type}

/-- `get` and `put` are the slot of the field `key`, which no other field touches. -/
structure Record.Slot (r : Record σ α) (f : Format β) (key : String) (get : σ → Option β)
    (put : β → σ → σ) : Prop where
  found : r.field? key = some (f.field key get put)
  get_put : ∀ b s, get (put b s) = some b
  keeps : ∀ g ∈ r.fields, g.key ≠ key → ∀ v s t, g.ofValue v s = .ok t → get t = get s

theorem Format.field_ofValue_eq_ok_iff (f : Format β) (key : String) (get : σ → Option β)
    (put : β → σ → σ) (v : Value) (s t : σ) :
    (f.field key get put).ofValue v s = .ok t ↔ ∃ b, f.ofValue v = .ok b ∧ put b s = t := by
  simp [Format.field, bind_eq_ok_iff]

theorem Format.exists_field_ofValue {f : Format β} {v : Value} {b : β} (h : f.ofValue v = .ok b)
    (key : String) (get : σ → Option β) (put : β → σ → σ) (s : σ) :
    ∃ t, (f.field key get put).ofValue v s = .ok t :=
  ⟨put b s, (f.field_ofValue_eq_ok_iff ..).mpr ⟨b, h, rfl⟩⟩

theorem required_eq_ok_iff (key : String) (slot : Option β) (b : β) :
    required key slot = .ok b ↔ slot = some b := by
  cases slot <;> simp [required]

theorem Record.key_of_field? {r : Record σ α} {key : String} {g : Field σ}
    (h : r.field? key = some g) : g ∈ r.fields ∧ g.key = key := by
  unfold field? at h
  exact ⟨List.mem_of_find?_eq_some h, by simpa using List.find?_some h⟩

/-- A member is passed over, or it fills an empty slot. -/
theorem Record.fillMembers_cons {r : Record σ α} {s t : σ} {key : String} {v : Value}
    {rest : List (String × Value)} (h : r.fillMembers s ((key, v) :: rest) = .ok t) :
    (r.field? key = none ∧ r.fillMembers s rest = .ok t) ∨
      ∃ g u, r.field? key = some g ∧ g.isFilled s = false ∧ g.ofValue v s = .ok u ∧
        r.fillMembers u rest = .ok t := by
  rw [fillMembers] at h
  cases hk : r.field? key with
  | none => exact .inl ⟨rfl, by simpa only [hk] using h⟩
  | some g =>
    simp only [hk] at h
    split at h
    · cases h
    · rename_i hf
      obtain ⟨u, hu, h⟩ := (bind_eq_ok_iff ..).mp h
      exact .inr ⟨g, u, rfl, by simpa using hf, hu, h⟩

/-- A member is read into the slot of its field if that is empty. -/
theorem Record.fillMembers_vacant {r : Record σ α} {f : Format β} {key : String}
    {get : σ → Option β} {put : β → σ → σ} {slots : σ}
    (found : r.field? key = some (f.field key get put)) (vacant : get slots = none) (v : Value)
    (rest : List (String × Value)) :
    r.fillMembers slots ((key, v) :: rest) =
      f.ofValue v >>= fun b => r.fillMembers (put b slots) rest := by
  cases read : f.ofValue v <;> simp [Record.fillMembers, found, Format.field, vacant, read]

/-- A member fills the slot of its field if that is empty. -/
theorem Record.fillMembers_field {r : Record σ α} {f : Format β} {key : String} {get : σ → Option β}
    {put : β → σ → σ} {slots : σ} {v : Value} {b : β}
    (found : r.field? key = some (f.field key get put)) (vacant : get slots = none)
    (read : f.ofValue v = .ok b) (rest : List (String × Value)) :
    r.fillMembers slots ((key, v) :: rest) = r.fillMembers (put b slots) rest := by
  rw [fillMembers_vacant found vacant, read, ok_bind]

namespace Record.Slot

variable {r : Record σ α} {f : Format β} {key : String} {get : σ → Option β} {put : β → σ → σ}

theorem get_step (slot : r.Slot f key get put) {g : Field σ} {other : String} {v : Value}
    {s t : σ} (hg : r.field? other = some g) (ht : g.ofValue v s = .ok t) (hne : other ≠ key) :
    get t = get s := by
  obtain ⟨hmem, rfl⟩ := key_of_field? hg
  exact slot.keeps g hmem hne v s t ht

/-- What a slot holds was there before, or a member of its key stands for it. -/
theorem get_eq_some (slot : r.Slot f key get put) {members : List (String × Value)} {s t : σ}
    {b : β} (h : r.fillMembers s members = .ok t) (hb : get t = some b) :
    get s = some b ∨ ∃ v, (key, v) ∈ members ∧ f.ofValue v = .ok b := by
  induction members generalizing s with
  | nil =>
    cases h
    exact .inl hb
  | cons m rest ih =>
    obtain ⟨k, v⟩ := m
    rcases fillMembers_cons h with ⟨-, h⟩ | ⟨g, u, hg, -, hu, h⟩
    · exact (ih h).imp_right fun ⟨w, hw, hf⟩ => ⟨w, List.mem_cons_of_mem _ hw, hf⟩
    · rcases ih h with hs | ⟨w, hw, hf⟩
      · by_cases hk : k = key
        · subst hk
          cases slot.found.symm.trans hg
          obtain ⟨c, hc, rfl⟩ := (f.field_ofValue_eq_ok_iff ..).mp hu
          cases (slot.get_put c s).symm.trans hs
          exact .inr ⟨v, List.mem_cons_self, hc⟩
        · exact .inl (slot.get_step hg hu hk ▸ hs)
      · exact .inr ⟨w, List.mem_cons_of_mem _ hw, hf⟩

/-- A slot that is filled stays as it is. -/
theorem get_of_filled (slot : r.Slot f key get put) {members : List (String × Value)} {s t : σ}
    {b : β} (h : r.fillMembers s members = .ok t) (hb : get s = some b) : get t = some b := by
  induction members generalizing s with
  | nil =>
    cases h
    exact hb
  | cons m rest ih =>
    obtain ⟨k, v⟩ := m
    rcases fillMembers_cons h with ⟨-, h⟩ | ⟨g, u, hg, hfree, hu, h⟩
    · exact ih h hb
    · by_cases hk : k = key
      · subst hk
        cases slot.found.symm.trans hg
        simp [Format.field, hb] at hfree
      · exact ih h ((slot.get_step hg hu hk).trans hb)

theorem exists_get (slot : r.Slot f key get put) {members : List (String × Value)} {s t : σ}
    {v : Value} (h : r.fillMembers s members = .ok t) (hv : (key, v) ∈ members) :
    ∃ b, get t = some b := by
  induction members generalizing s with
  | nil => cases hv
  | cons m rest ih =>
    obtain ⟨k, w⟩ := m
    rcases fillMembers_cons h with ⟨hnone, h⟩ | ⟨g, u, hg, -, hu, h⟩
    · rcases List.mem_cons.mp hv with hv | hv
      · cases hv
        cases hnone.symm.trans slot.found
      · exact ih h hv
    · rcases List.mem_cons.mp hv with hv | hv
      · cases hv
        cases slot.found.symm.trans hg
        obtain ⟨c, -, rfl⟩ := (f.field_ofValue_eq_ok_iff ..).mp hu
        exact ⟨c, slot.get_of_filled h (slot.get_put c s)⟩
      · exact ih h hv

/-- A filled slot is not filled again. -/
theorem absent_of_filled (slot : r.Slot f key get put) {members : List (String × Value)} {s t : σ}
    {b : β} (h : r.fillMembers s members = .ok t) (hb : get s = some b) :
    ∀ m ∈ members, m.1 ≠ key := by
  induction members generalizing s with
  | nil => nofun
  | cons m rest ih =>
    obtain ⟨k, v⟩ := m
    rcases fillMembers_cons h with ⟨hnone, h⟩ | ⟨g, u, hg, hfree, hu, h⟩
    · refine List.forall_mem_cons.mpr ⟨?_, ih h hb⟩
      rintro rfl
      cases hnone.symm.trans slot.found
    · have other : k ≠ key := by
        rintro rfl
        cases slot.found.symm.trans hg
        simp [Format.field, hb] at hfree
      exact List.forall_mem_cons.mpr ⟨other, ih h ((slot.get_step hg hu other).trans hb)⟩

theorem once (slot : r.Slot f key get put) {members : List (String × Value)} {s t : σ}
    (h : r.fillMembers s members = .ok t) : Once key members := by
  induction members generalizing s with
  | nil => exact .nil
  | cons m rest ih =>
    obtain ⟨k, v⟩ := m
    rcases fillMembers_cons h with ⟨hnone, h⟩ | ⟨g, u, hg, -, hu, h⟩
    · refine List.pairwise_cons.mpr ⟨fun n _ same => ?_, ih h⟩
      subst same
      cases hnone.symm.trans slot.found
    · refine List.pairwise_cons.mpr ⟨fun n hn same => ?_, ih h⟩
      subst same
      cases slot.found.symm.trans hg
      obtain ⟨c, -, rfl⟩ := (f.field_ofValue_eq_ok_iff ..).mp hu
      exact slot.absent_of_filled h (slot.get_put c s) n hn

/-- An empty slot gets what the only member of its key stands for. -/
theorem get_eq_some_iff (slot : r.Slot f key get put) {members : List (String × Value)} {s t : σ}
    (h : r.fillMembers s members = .ok t) (vacant : get s = none) (b : β) :
    get t = some b ↔ ∃ v, sole? key members = some v ∧ f.ofValue v = .ok b := by
  have once := slot.once h
  constructor
  · intro hb
    rcases slot.get_eq_some h hb with hs | ⟨v, hv, hf⟩
    · cases vacant.symm.trans hs
    · exact ⟨v, sole?_eq_some_iff.mpr ⟨once, hv⟩, hf⟩
  · rintro ⟨v, sole, hf⟩
    have hv := (sole?_eq_some_iff.mp sole).2
    obtain ⟨c, hc⟩ := slot.exists_get h hv
    rcases slot.get_eq_some h hc with hs | ⟨w, hw, hg⟩
    · cases vacant.symm.trans hs
    · cases once.eq_of_mem hv hw
      cases hf.symm.trans hg
      exact hc

end Record.Slot

/-- No field fills the slot of another. -/
def Record.Apart (r : Record σ α) : Prop :=
  ∀ g ∈ r.fields, ∀ g' ∈ r.fields, g.key ≠ g'.key →
    ∀ v s t, g.ofValue v s = .ok t → g'.isFilled t = g'.isFilled s

/-- Members fill a record if each that is a field of it fits and stands there once. -/
theorem Record.exists_fillMembers {r : Record σ α} (apart : r.Apart)
    {members : List (String × Value)} (once : ∀ g ∈ r.fields, Once g.key members) {s : σ}
    (fits : ∀ g ∈ r.fields, ∀ v, (g.key, v) ∈ members →
      g.isFilled s = false ∧ ∀ u, ∃ t, g.ofValue v u = .ok t) :
    ∃ t, r.fillMembers s members = .ok t := by
  induction members generalizing s with
  | nil => exact ⟨s, rfl⟩
  | cons m rest ih =>
    obtain ⟨k, v⟩ := m
    have onceLater : ∀ g ∈ r.fields, Once g.key rest := fun g hg =>
      (List.pairwise_cons.mp (once g hg)).2
    cases hk : r.field? k with
    | none =>
      obtain ⟨t, ht⟩ := ih onceLater fun g hg w hw => fits g hg w (List.mem_cons_of_mem _ hw)
      exact ⟨t, by simpa only [fillMembers, hk] using ht⟩
    | some g =>
      obtain ⟨hg, rfl⟩ := key_of_field? hk
      obtain ⟨hfree, hfit⟩ := fits g hg v List.mem_cons_self
      obtain ⟨u, hu⟩ := hfit s
      have later : ∀ g' ∈ r.fields, ∀ w, (g'.key, w) ∈ rest →
          g'.isFilled u = false ∧ ∀ u, ∃ t, g'.ofValue w u = .ok t := by
        intro g' hg' w hw
        obtain ⟨hfree', hfit'⟩ := fits g' hg' w (List.mem_cons_of_mem _ hw)
        have hne : g.key ≠ g'.key := ((List.pairwise_cons.mp (once g hg)).1 _ hw rfl).symm
        exact ⟨(apart g hg g' hg' hne v s u hu).trans hfree', hfit'⟩
      obtain ⟨t, ht⟩ := ih onceLater later
      refine ⟨t, ?_⟩
      simp only [fillMembers, hk, hfree, Bool.false_eq_true, ↓reduceIte, hu, ok_bind, ht]

end FactFormula.Json
