import Mathlib.Tactic.MkIffOfInductiveProp
import Mathlib.Tactic.Tauto
import FactFormula.Facts.Store
import FactFormula.Proofs.Outcome

/-!
The indices of the fact tables against the rows they are built from. After every row an index holds
just the rows so far, and the first row that repeats a key ends the loop.
-/
namespace FactFormula

/-- Under a new key a map has one more entry, and the others as before. -/
theorem getElem?_insert_fresh {κ ν : Type} {cmp : κ → κ → Ordering} [Std.TransCmp cmp]
    [Std.LawfulEqCmp cmp] {map : Std.TreeMap κ ν cmp} {Row : κ → ν → Prop}
    (h : ∀ k v, map[k]? = some v ↔ Row k v) {key : κ} (fresh : ∀ v, ¬ Row key v) (value : ν)
    (k : κ) (v : ν) :
    (map.insert key value)[k]? = some v ↔ Row k v ∨ (k = key ∧ v = value) := by
  rw [Std.TreeMap.getElem?_insert]
  by_cases same : key = k
  · subst same
    rw [if_pos Std.ReflCmp.compare_self]
    simp [fresh, eq_comm]
  · have other : ¬ k = key := fun h => same h.symm
    simp [same, other, h]

theorem contains_iff_of_getElem? {κ ν : Type} {cmp : κ → κ → Ordering} [Std.TransCmp cmp]
    {map : Std.TreeMap κ ν cmp} {Row : κ → ν → Prop} (h : ∀ k v, map[k]? = some v ↔ Row k v)
    (k : κ) : map.contains k = true ↔ ∃ v, Row k v := by
  simp only [Std.TreeMap.contains_eq_isSome_getElem?, Option.isSome_iff_exists, h]

namespace NameIndex

/-- No two rows have the same id or the same name. -/
@[mk_iff]
structure Distinct (rows : List (UInt32 × String)) : Prop where
  ids : (rows.map Prod.fst).Nodup
  names : (rows.map Prod.snd).Nodup

/-- An index has the ids of the rows, and for each name the id of its row. -/
structure Holds (index : NameIndex) (rows : List (UInt32 × String)) : Prop where
  ids : ∀ id, index.ids.contains id = true ↔ id ∈ rows.map Prod.fst
  byName : ∀ name id, index.byName[name]? = some id ↔ (id, name) ∈ rows
  distinct : Distinct rows

variable {index index' : NameIndex} {rows : List (UInt32 × String)} {id : UInt32} {name : String}

theorem holds_empty : NameIndex.empty.Holds [] where
  ids := by simp [NameIndex.empty]
  byName := by simp [NameIndex.empty]
  distinct := ⟨List.nodup_nil, List.nodup_nil⟩

theorem distinct_append_singleton :
    Distinct (rows ++ [(id, name)]) ↔
      Distinct rows ∧ id ∉ rows.map Prod.fst ∧ name ∉ rows.map Prod.snd := by
  simp only [distinct_iff, nodup_keys_append_singleton]
  tauto

theorem Distinct.of_append {later : List (UInt32 × String)} (h : Distinct (rows ++ later)) :
    Distinct rows where
  ids := nodup_keys_of_append _ h.ids
  names := nodup_keys_of_append _ h.names

theorem Holds.contains_name_iff (h : index.Holds rows) :
    index.byName.contains name = true ↔ name ∈ rows.map Prod.snd := by
  rw [contains_iff_of_getElem? h.byName]
  simp

/-- A row goes in exactly when both its id and its name are new. -/
theorem insert_eq_ok_iff :
    index.insert id name = .ok index' ↔
      ¬ index.ids.contains id = true ∧ ¬ index.byName.contains name = true ∧
        (⟨index.ids.insert id (), index.byName.insert name id⟩ : NameIndex) = index' := by
  unfold insert
  split
  · simp [*]
  · split
    · simp [*]
    · simp [*]

theorem Holds.insert (h : index.Holds rows) (inserted : index.insert id name = .ok index') :
    index'.Holds (rows ++ [(id, name)]) := by
  obtain ⟨newId, newName, rfl⟩ := insert_eq_ok_iff.mp inserted
  rw [h.ids] at newId
  rw [h.contains_name_iff] at newName
  constructor
  · intro other
    simp only [Std.TreeMap.contains_insert, Bool.or_eq_true, beq_iff_eq,
      Std.LawfulEqCmp.compare_eq_iff_eq, h.ids, List.map_append, List.mem_append,
      List.map_singleton, List.mem_singleton]
    tauto
  · -- No row has the name, so that the entry does not take the place of another.
    have fresh : ∀ i, (i, name) ∉ rows := fun i hi => newName (List.mem_map_of_mem hi)
    intro other i
    rw [getElem?_insert_fresh h.byName fresh]
    simp [and_comm]
  · exact distinct_append_singleton.mpr ⟨h.distinct, newId, newName⟩

theorem loopInvariant :
    LoopInvariant (fun (index : NameIndex) row => index.insert row.1 row.2) Holds Distinct where
  fit_of_holds h := h.distinct
  fit_of_append h := h.of_append
  accepts {index rows row} h fit := by
    obtain ⟨-, newId, newName⟩ := distinct_append_singleton.mp fit
    rw [← h.ids] at newId
    rw [← h.contains_name_iff] at newName
    exact ⟨_, insert_eq_ok_iff.mpr ⟨newId, newName, rfl⟩⟩
  keeps h inserted := h.insert inserted

/-- Rows have an index exactly when they are distinct. -/
theorem exists_ofRows_iff (rows : List (UInt32 × String)) :
    (∃ index, ofRows rows = .ok index) ↔ Distinct rows :=
  loopInvariant.exists_run_iff holds_empty

theorem holds_of_ofRows (built : ofRows rows = .ok index) : index.Holds rows :=
  loopInvariant.keeps_run holds_empty built

end NameIndex

def Fact.key (f : Fact) : FactKey := (f.securityId, f.attributeId)

namespace FactIndex

/-- An index has the value of every fact, and as many entries as there are facts. -/
structure Holds (index : FactIndex) (rows : List Fact) : Prop where
  values : ∀ (key : FactKey) (x : Float), index[key]? = some x ↔ ⟨key.1, key.2, x⟩ ∈ rows
  size : index.size = rows.length
  distinct : (rows.map Fact.key).Nodup

variable {index index' : FactIndex} {rows : List Fact} {f : Fact}

theorem holds_empty : Holds ∅ [] where
  values := by simp
  size := by simp
  distinct := List.nodup_nil

theorem Holds.contains_key_iff (h : index.Holds rows) :
    index.contains f.key = true ↔ f.key ∈ rows.map Fact.key := by
  rw [contains_iff_of_getElem? h.values, List.mem_map]
  constructor
  · rintro ⟨x, hx⟩
    exact ⟨_, hx, rfl⟩
  · rintro ⟨g, hg, same⟩
    refine ⟨g.value, ?_⟩
    rwa [← same]

theorem insertFact_eq_ok_iff :
    index.insertFact f = .ok index' ↔
      ¬ index.contains f.key = true ∧ index.insert f.key f.value = index' := by
  change (if index.contains f.key = true then .error f.key
    else .ok (index.insert f.key f.value)) = Except.ok index' ↔ _
  split
  · simp [*]
  · simp [*]

theorem Holds.insertFact (h : index.Holds rows) (inserted : index.insertFact f = .ok index') :
    index'.Holds (rows ++ [f]) := by
  obtain ⟨new, rfl⟩ := insertFact_eq_ok_iff.mp inserted
  have size : (index.insert f.key f.value).size = (rows ++ [f]).length := by
    rw [Std.TreeMap.size_insert, if_neg new, h.size, List.length_append, List.length_singleton]
  rw [h.contains_key_iff] at new
  refine ⟨?_, size, ?_⟩
  · have fresh : ∀ x, ⟨f.key.1, f.key.2, x⟩ ∉ rows := by
      intro x hx
      exact new (List.mem_map.mpr ⟨_, hx, rfl⟩)
    intro key x
    rw [getElem?_insert_fresh h.values fresh, List.mem_append, List.mem_singleton]
    obtain ⟨s, a, y⟩ := f
    simp [Fact.key, Prod.ext_iff, and_assoc]
  · exact (nodup_keys_append_singleton _).mpr ⟨new, h.distinct⟩

theorem loopInvariant :
    LoopInvariant insertFact Holds fun rows => (rows.map Fact.key).Nodup where
  fit_of_holds h := h.distinct
  fit_of_append h := nodup_keys_of_append _ h
  accepts {index rows f} h fit := by
    obtain ⟨new, -⟩ := (nodup_keys_append_singleton _).mp fit
    rw [← h.contains_key_iff] at new
    exact ⟨_, insertFact_eq_ok_iff.mpr ⟨new, rfl⟩⟩
  keeps h inserted := h.insertFact inserted

/-- Facts have an index exactly when no two have the same key. -/
theorem exists_ofRows_iff (rows : List Fact) :
    (∃ index, ofRows rows = .ok index) ↔ (rows.map Fact.key).Nodup :=
  loopInvariant.exists_run_iff holds_empty

theorem holds_of_ofRows (built : ofRows rows = .ok index) : index.Holds rows :=
  loopInvariant.keeps_run holds_empty built

end FactIndex

end FactFormula
