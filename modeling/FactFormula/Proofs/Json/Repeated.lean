import FactFormula.Proofs.Json.Normal

/-!
Repeated keys. The normal form of an object keeps the last member of each key, and what has a key
alone keeps it alone.
-/
namespace FactFormula.Json

variable {α : Type} {key : String}

/-- Every key of every object in the value is there once. -/
inductive Value.Distinct : Value → Prop where
  | null : Distinct .null
  | bool (b : Bool) : Distinct (.bool b)
  | number (n : Number) : Distinct (.number n)
  | string (s : String) : Distinct (.string s)
  | array {items : List Value} (inside : ∀ v ∈ items, Distinct v) : Distinct (.array items)
  | object {members : List (String × Value)} (keys : (members.map Prod.fst).Nodup)
      (inside : ∀ m ∈ members, Distinct m.2) : Distinct (.object members)

/-- The value belongs to the last member that has the key. -/
inductive IsLast (key : String) (v : α) : List (String × α) → Prop where
  | here {rest : List (String × α)} (none : ∀ m ∈ rest, m.1 ≠ key) : IsLast key v ((key, v) :: rest)
  | later {m : String × α} {rest : List (String × α)} (last : IsLast key v rest) :
      IsLast key v (m :: rest)

section Members

variable {members : List (String × α)} {v : α}

theorem once_of_nodup (h : (members.map Prod.fst).Nodup) (key : String) : Once key members := by
  refine List.Pairwise.imp ?_ (List.pairwise_map.mp h)
  rintro m n differ rfl
  exact differ.symm

theorem IsLast.mem (h : IsLast key v members) : (key, v) ∈ members := by
  induction h with
  | here none => exact List.mem_cons_self
  | later last ih => exact List.mem_cons_of_mem _ ih

theorem Once.isLast (once : Once key members) (h : (key, v) ∈ members) : IsLast key v members := by
  induction members with
  | nil => cases h
  | cons m rest ih =>
    obtain ⟨others, once⟩ := List.pairwise_cons.mp once
    rcases List.mem_cons.mp h with rfl | h
    · exact .here fun n hn => others n hn rfl
    · exact .later (ih once h)

end Members

section Normalize

variable {members : List (String × Value)} {m : String × Value} {u v : Value}

/-- A member is put in unless its key is there. -/
theorem mem_insertMember_iff (sorted : SortedKeys members) :
    m ∈ insertMember key v members ↔
      m ∈ members ∨ m = (key, v) ∧ ∀ n ∈ members, n.1 ≠ key := by
  induction members with
  | nil => simp [insertMember]
  | cons n rest ih =>
    obtain ⟨k, w⟩ := n
    obtain ⟨behind, sortedRest⟩ := List.pairwise_cons.mp sorted
    rw [insertMember, List.forall_mem_cons]
    split_ifs with before same
    · have other : k ≠ key := before.ne'
      have none : ∀ m ∈ rest, m.1 ≠ key := fun m hm => (before.trans (behind m hm)).ne'
      simp only [List.mem_cons]
      tauto
    · simp [same]
    · have other : k ≠ key := Ne.symm same
      simp only [List.mem_cons, ih sortedRest]
      tauto

theorem forall_insertMember_ne_iff {k : String} :
    (∀ n ∈ insertMember k v members, n.1 ≠ key) ↔ k ≠ key ∧ ∀ n ∈ members, n.1 ≠ key := by
  induction members with
  | nil => simp [insertMember]
  | cons n rest ih =>
    rw [insertMember]
    split_ifs with before same
    · exact List.forall_mem_cons
    · rw [List.forall_mem_cons, same]
      tauto
    · rw [List.forall_mem_cons, ih, List.forall_mem_cons]
      tauto

/-- The normal form has the same keys. -/
theorem forall_normalizeMembers_ne_iff :
    (∀ n ∈ normalizeMembers members, n.1 ≠ key) ↔ ∀ n ∈ members, n.1 ≠ key := by
  induction members with
  | nil => exact Iff.rfl
  | cons n rest ih => rw [normalizeMembers, forall_insertMember_ne_iff, ih, List.forall_mem_cons]

/-- Of the members of one key the last is kept. -/
theorem mem_normalizeMembers_iff :
    (key, u) ∈ normalizeMembers members ↔ ∃ v, IsLast key v members ∧ v.normalize = u := by
  induction members with
  | nil =>
    constructor
    · nofun
    · rintro ⟨v, last, -⟩
      cases last
  | cons n rest ih =>
    obtain ⟨k, w⟩ := n
    rw [normalizeMembers, mem_insertMember_iff (sortedKeys_normalizeMembers rest), ih,
      forall_normalizeMembers_ne_iff, Prod.mk.injEq]
    constructor
    · rintro (⟨v, last, rfl⟩ | ⟨⟨rfl, rfl⟩, none⟩)
      · exact ⟨v, .later last, rfl⟩
      · exact ⟨w, .here none, rfl⟩
    · rintro ⟨v, last, rfl⟩
      cases last with
      | here none => exact .inr ⟨⟨rfl, rfl⟩, none⟩
      | later last => exact .inl ⟨v, last, rfl⟩

theorem sole?_normalizeMembers (h : sole? key members = some v) :
    sole? key (normalizeMembers members) = some v.normalize := by
  obtain ⟨once, member⟩ := sole?_eq_some_iff.mp h
  rw [(sortedKeys_normalizeMembers members).sole?_eq_some_iff, mem_normalizeMembers_iff]
  exact ⟨v, once.isLast member, rfl⟩

theorem exists_sole?_of_normalizeMembers (once : Once key members)
    (h : sole? key (normalizeMembers members) = some u) :
    ∃ v, sole? key members = some v ∧ v.normalize = u := by
  rw [(sortedKeys_normalizeMembers members).sole?_eq_some_iff, mem_normalizeMembers_iff] at h
  obtain ⟨v, last, same⟩ := h
  exact ⟨v, sole?_eq_some_iff.mpr ⟨once, last.mem⟩, same⟩

end Normalize

end FactFormula.Json
