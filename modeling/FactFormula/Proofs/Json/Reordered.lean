import Mathlib.Data.List.Sort
import FactFormula.Proofs.Json.Layout
import FactFormula.Proofs.Json.Repeated

/-!
Members in another order. Where no key is repeated, the order in which the members of an object
stand leaves no trace in the normal form.
-/
namespace FactFormula.Json

section Members

variable {members members' : List (String × Value)} {m : String × Value} {v w : Value}

theorem mem_normalizeMembers_iff_of_nodup (keys : (members.map Prod.fst).Nodup) :
    m ∈ normalizeMembers members ↔ ∃ v, (m.1, v) ∈ members ∧ v.normalize = m.2 := by
  refine mem_normalizeMembers_iff.trans (exists_congr fun v => and_congr_left' ?_)
  exact ⟨IsLast.mem, (once_of_nodup keys m.1).isLast⟩

theorem SortedKeys.eq_of_mem_iff (sorted : SortedKeys members) (sorted' : SortedKeys members')
    (same : ∀ m, m ∈ members ↔ m ∈ members') : members = members' := by
  have : Std.Antisymm fun m n : String × Value => m.1 < n.1 :=
    ⟨fun m n before behind => absurd behind before.asymm⟩
  have : Std.Irrefl fun m n : String × Value => m.1 < n.1 := ⟨fun m => lt_irrefl m.1⟩
  exact List.Pairwise.eq_of_mem_iff sorted sorted' same

theorem normalizeMembers_eq_of_perm (perm : members.Perm members')
    (keys : (members.map Prod.fst).Nodup) :
    normalizeMembers members = normalizeMembers members' := by
  have keys' : (members'.map Prod.fst).Nodup := (perm.map Prod.fst).nodup keys
  apply (sortedKeys_normalizeMembers members).eq_of_mem_iff (sortedKeys_normalizeMembers members')
  intro m
  rw [mem_normalizeMembers_iff_of_nodup keys, mem_normalizeMembers_iff_of_nodup keys']
  simp only [perm.mem_iff]

theorem normalizeMembers_append_congr (same : v.normalize = w.normalize) (key : String)
    (before after : List (String × Value)) :
    normalizeMembers (before ++ (key, v) :: after) =
      normalizeMembers (before ++ (key, w) :: after) := by
  induction before with
  | nil => rw [List.nil_append, normalizeMembers, same, List.nil_append, normalizeMembers]
  | cons m before ih =>
    rw [List.cons_append, normalizeMembers, ih, List.cons_append, normalizeMembers]

end Members

/-- The same tokens, but members of objects may stand in another order, at any depth. -/
inductive TokenTree.Reordered : TokenTree → TokenTree → Prop where
  | refl (σ : TokenTree) : Reordered σ σ
  | trans {σ τ υ : TokenTree} (first : Reordered σ τ) (second : Reordered τ υ) : Reordered σ υ
  | item {σ τ : TokenTree} (before after : List TokenTree) (inside : Reordered σ τ) :
      Reordered (.array (before ++ σ :: after)) (.array (before ++ τ :: after))
  | member {σ τ : TokenTree} (before after : List (KeyToken × TokenTree)) (key : KeyToken)
      (inside : Reordered σ τ) :
      Reordered (.object (before ++ (key, σ) :: after)) (.object (before ++ (key, τ) :: after))
  | members {members members' : List (KeyToken × TokenTree)} (perm : members.Perm members') :
      Reordered (.object members) (.object members')

namespace TokenTree

variable {σ τ : TokenTree}

/-- Another order of members leaves the keys distinct and the normal form what it is. -/
theorem Reordered.normalize_eq (h : σ.Reordered τ) (distinct : σ.value.Distinct) :
    τ.value.Distinct ∧ σ.value.normalize = τ.value.normalize := by
  induction h with
  | refl σ => exact ⟨distinct, rfl⟩
  | trans first second ih ih' =>
    obtain ⟨distinct, same⟩ := ih distinct
    obtain ⟨distinct, same'⟩ := ih' distinct
    exact ⟨distinct, same.trans same'⟩
  | item before after inside ih =>
    simp only [value, itemValues_eq_map, List.map_append, List.map_cons] at distinct ⊢
    cases distinct with
    | array inside =>
      simp only [List.forall_mem_append, List.forall_mem_cons] at inside
      obtain ⟨behind, here, later⟩ := inside
      obtain ⟨here, same⟩ := ih here
      refine ⟨.array ?_, ?_⟩
      · simp only [List.forall_mem_append, List.forall_mem_cons]
        exact ⟨behind, here, later⟩
      · simp only [Value.normalize, normalizeItems_eq_map, List.map_append, List.map_cons, same]
  | member before after key inside ih =>
    simp only [value, memberValues_eq_map, List.map_append, List.map_cons] at distinct ⊢
    cases distinct with
    | object keys inside =>
      simp only [List.forall_mem_append, List.forall_mem_cons] at inside
      obtain ⟨behind, here, later⟩ := inside
      obtain ⟨here, same⟩ := ih here
      refine ⟨.object ?_ ?_, ?_⟩
      · simpa using keys
      · simp only [List.forall_mem_append, List.forall_mem_cons]
        exact ⟨behind, here, later⟩
      · rw [Value.normalize, Value.normalize, normalizeMembers_append_congr same]
  | members perm =>
    simp only [value, memberValues_eq_map] at distinct ⊢
    have perm := perm.map fun m => (m.1.key, m.2.value)
    cases distinct with
    | object keys inside =>
      refine ⟨.object ((perm.map Prod.fst).nodup keys) ?_, ?_⟩
      · exact fun m hm => inside m (perm.mem_iff.mpr hm)
      · rw [Value.normalize, Value.normalize, normalizeMembers_eq_of_perm perm keys]

end TokenTree

end FactFormula.Json
