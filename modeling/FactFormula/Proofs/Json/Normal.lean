import Mathlib.Data.String.Basic
import FactFormula.Json.Reader
import FactFormula.Proofs.Outcome

/-!
Normal values: the members of every object stand in strictly increasing order of their keys.
Every value that is read from a text is normal, and normal values are their own normal form.
-/
namespace FactFormula.Json

variable {α : Type}

/-- No key stands twice. -/
def SortedKeys (members : List (String × α)) : Prop := members.Pairwise fun m n => m.1 < n.1

/-- Induction over the items and members of a value. -/
@[induction_eliminator]
theorem Value.induction {motive : Value → Prop} (null : motive .null)
    (bool : ∀ b, motive (.bool b)) (number : ∀ n, motive (.number n))
    (string : ∀ s, motive (.string s))
    (array : ∀ items, (∀ v ∈ items, motive v) → motive (.array items))
    (object : ∀ members, (∀ m ∈ members, motive m.2) → motive (.object members)) :
    ∀ v, motive v
  | .null => null
  | .bool b => bool b
  | .number n => number n
  | .string s => string s
  | .array items => array items fun v _ => Value.induction null bool number string array object v
  | .object members =>
    object members fun m _ => Value.induction null bool number string array object m.2
decreasing_by
  · have := List.sizeOf_lt_of_mem ‹v ∈ items›
    simp only [Value.array.sizeOf_spec]
    omega
  · have := List.sizeOf_lt_of_mem ‹m ∈ members›
    have : sizeOf m.2 < sizeOf m := by cases m; simp
    simp only [Value.object.sizeOf_spec]
    omega

inductive Value.Normal : Value → Prop where
  | null : Normal .null
  | bool (b : Bool) : Normal (.bool b)
  | number (n : Number) : Normal (.number n)
  | string (s : String) : Normal (.string s)
  | array {items : List Value} (inside : ∀ v ∈ items, Normal v) : Normal (.array items)
  | object {members : List (String × Value)} (sorted : SortedKeys members)
      (inside : ∀ m ∈ members, Normal m.2) : Normal (.object members)

theorem mem_insertMember {key : String} {v : Value} {members : List (String × Value)}
    {m : String × Value} (h : m ∈ insertMember key v members) : m = (key, v) ∨ m ∈ members := by
  induction members with
  | nil => simpa [insertMember] using h
  | cons n rest ih =>
    rw [insertMember] at h
    split_ifs at h with hlt heq
    · simpa using h
    · exact .inr h
    · rcases List.mem_cons.mp h with rfl | h
      · exact .inr List.mem_cons_self
      · exact (ih h).imp_right (List.mem_cons_of_mem _)

theorem SortedKeys.insertMember {members : List (String × Value)} (h : SortedKeys members)
    (key : String) (v : Value) : SortedKeys (insertMember key v members) := by
  induction members with
  | nil => simp [Json.insertMember, SortedKeys]
  | cons n rest ih =>
    obtain ⟨hn, hrest⟩ := List.pairwise_cons.mp h
    rw [Json.insertMember]
    split_ifs with hlt heq
    · refine List.pairwise_cons.mpr ⟨?_, h⟩
      intro m hm
      rcases List.mem_cons.mp hm with rfl | hm
      · exact hlt
      · exact hlt.trans (hn m hm)
    · exact h
    · refine List.pairwise_cons.mpr ⟨?_, ih hrest⟩
      intro m hm
      rcases mem_insertMember hm with rfl | hm
      · exact lt_of_le_of_ne (not_lt.mp hlt) (Ne.symm heq)
      · exact hn m hm

/-- A member before all others stays in front. -/
theorem insertMember_of_lt {key : String} {v : Value} {members : List (String × Value)}
    (h : ∀ m ∈ members, key < m.1) : insertMember key v members = (key, v) :: members := by
  cases members with
  | nil => rfl
  | cons n rest => rw [insertMember, if_pos (h n List.mem_cons_self)]

theorem normalizeItems_eq_map (items : List Value) :
    normalizeItems items = items.map Value.normalize := by
  induction items with
  | nil => rfl
  | cons v rest ih => rw [normalizeItems, ih, List.map_cons]

/-- What normal forms of members have, members of the normal form have. -/
theorem forall_mem_normalizeMembers {p : Value → Prop} {members : List (String × Value)}
    (h : ∀ m ∈ members, p m.2.normalize) : ∀ m ∈ normalizeMembers members, p m.2 := by
  induction members with
  | nil =>
    intro m hm
    cases hm
  | cons n rest ih =>
    intro m hm
    rcases mem_insertMember hm with rfl | hm
    · exact h n List.mem_cons_self
    · exact ih (fun m hm => h m (List.mem_cons_of_mem _ hm)) m hm

theorem sortedKeys_normalizeMembers (members : List (String × Value)) :
    SortedKeys (normalizeMembers members) := by
  induction members with
  | nil => exact .nil
  | cons n rest ih => exact ih.insertMember n.1 n.2.normalize

theorem Value.normalize_normal (v : Value) : v.normalize.Normal := by
  induction v with
  | null => exact .null
  | bool b => exact .bool b
  | number n => exact .number n
  | string s => exact .string s
  | array items ih =>
    rw [normalize, normalizeItems_eq_map]
    apply Normal.array
    intro v hv
    obtain ⟨w, hw, rfl⟩ := List.mem_map.mp hv
    exact ih w hw
  | object members ih =>
    exact .object (sortedKeys_normalizeMembers members) (forall_mem_normalizeMembers ih)

theorem normalizeMembers_eq {members : List (String × Value)} (sorted : SortedKeys members)
    (h : ∀ m ∈ members, m.2.normalize = m.2) : normalizeMembers members = members := by
  induction members with
  | nil => rfl
  | cons n rest ih =>
    obtain ⟨hn, hrest⟩ := List.pairwise_cons.mp sorted
    rw [normalizeMembers, ih hrest fun m hm => h m (List.mem_cons_of_mem _ hm),
      h n List.mem_cons_self, insertMember_of_lt hn]

/-- Normal values are their own normal form. -/
theorem Value.Normal.normalize_eq {v : Value} (h : v.Normal) : v.normalize = v := by
  induction h with
  | null | bool b | number n | string s => rfl
  | array inside ih =>
    rw [Value.normalize, normalizeItems_eq_map, List.map_congr_left ih, List.map_id']
  | object sorted inside ih => rw [Value.normalize, normalizeMembers_eq sorted ih]

theorem Value.normal_of_ofText {text : String} {v : Value} (h : Value.ofText text = .ok v) :
    v.Normal := by
  obtain ⟨w, -, hw⟩ := (bind_eq_ok_iff ..).mp h
  cases hw
  exact w.normalize_normal

/-- No two members have the key. -/
def Once (key : String) (members : List (String × α)) : Prop :=
  members.Pairwise fun m n => m.1 = key → n.1 ≠ key

section Once

variable {key : String} {members : List (String × α)} {m : String × α} {v w : α}

theorem Once.eq_of_mem (h : Once key members) (hv : (key, v) ∈ members)
    (hw : (key, w) ∈ members) : v = w := by
  induction members with
  | nil => cases hv
  | cons m rest ih =>
    obtain ⟨hm, hrest⟩ := List.pairwise_cons.mp h
    rcases List.mem_cons.mp hv with rfl | hv'
    · rcases List.mem_cons.mp hw with hw' | hw'
      · exact (Prod.mk.inj hw').2.symm
      · exact absurd rfl (hm (key, w) hw' rfl)
    · rcases List.mem_cons.mp hw with rfl | hw'
      · exact absurd rfl (hm (key, v) hv' rfl)
      · exact ih hrest hv' hw'

theorem sole?_cons_of_ne (h : m.1 ≠ key) : sole? key (m :: members) = sole? key members := by
  simp [sole?, h]

theorem sole?_cons_of_eq (h : m.1 = key) :
    sole? key (m :: members) = some v ↔ m.2 = v ∧ ∀ n ∈ members, n.1 ≠ key := by
  cases found : members.filter (·.1 == key) with
  | nil =>
    have none := List.filter_eq_nil_iff.mp found
    simp only [beq_iff_eq] at none
    simpa [sole?, h, found] using fun _ => none
  | cons n more =>
    have hn : n ∈ members ∧ n.1 = key := by
      simpa using List.mem_filter.mp (found ▸ List.mem_cons_self : n ∈ members.filter (·.1 == key))
    simp only [sole?, h, beq_self_eq_true, List.filter_cons_of_pos, found, reduceCtorEq, false_iff]
    rintro ⟨-, none⟩
    exact none n hn.1 hn.2

theorem once_of_forall_ne (h : ∀ n ∈ members, n.1 ≠ key) : Once key members :=
  List.pairwise_of_forall_mem_list fun _ _ n hn _ => h n hn

/-- A key is sole if it has a member and does not stand twice. -/
theorem sole?_eq_some_iff :
    sole? key members = some v ↔ Once key members ∧ (key, v) ∈ members := by
  induction members with
  | nil => simp [sole?]
  | cons m rest ih =>
    rw [Once, List.pairwise_cons, List.mem_cons]
    by_cases h : m.1 = key
    · rw [sole?_cons_of_eq h]
      constructor
      · rintro ⟨rfl, none⟩
        exact ⟨⟨fun n hn _ => none n hn, once_of_forall_ne none⟩, .inl (h ▸ rfl)⟩
      · rintro ⟨⟨none, -⟩, here | there⟩
        · exact ⟨here ▸ rfl, fun n hn => none n hn h⟩
        · exact absurd rfl (none _ there h)
    · rw [sole?_cons_of_ne h, ih]
      constructor
      · rintro ⟨once, there⟩
        exact ⟨⟨fun n _ same => absurd same h, once⟩, .inr there⟩
      · rintro ⟨⟨-, once⟩, here | there⟩
        · exact absurd (here ▸ rfl) h
        · exact ⟨once, there⟩

theorem sole?_map {β : Type} (f : α → β) (key : String) (members : List (String × α)) :
    sole? key (members.map fun m => (m.1, f m.2)) = (sole? key members).map f := by
  have keys : ((·.1 == key) ∘ fun m : String × α => (m.1, f m.2)) = (·.1 == key) := rfl
  rw [sole?, sole?, List.filter_map, keys]
  generalize members.filter (·.1 == key) = found
  match found with
  | [] | [_] | _ :: _ :: _ => rfl

end Once

namespace SortedKeys

theorem tail {m : String × α} {members : List (String × α)} (h : SortedKeys (m :: members)) :
    SortedKeys members := (List.pairwise_cons.mp h).2

theorem once {members : List (String × α)} (h : SortedKeys members) (key : String) :
    Once key members := by
  refine List.Pairwise.imp ?_ h
  rintro m n lt rfl same
  exact lt_irrefl m.1 (same ▸ lt)

theorem eq_of_mem {members : List (String × α)} (h : SortedKeys members) {key : String} {v w : α}
    (hv : (key, v) ∈ members) (hw : (key, w) ∈ members) : v = w :=
  (h.once key).eq_of_mem hv hw

/-- Where keys are sorted, the only member of a key is any member of it. -/
theorem sole?_eq_some_iff {members : List (String × α)} (h : SortedKeys members) (key : String)
    (v : α) : sole? key members = some v ↔ (key, v) ∈ members :=
  Json.sole?_eq_some_iff.trans (and_iff_right (h.once key))

end SortedKeys

end FactFormula.Json
