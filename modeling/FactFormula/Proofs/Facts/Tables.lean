import FactFormula.Facts.Loading
import FactFormula.Proofs.Facts.Index

/-!
Fact stores against their tables. Tables have a store exactly when their rows are distinct, and
every look-up in the store answers as a scan of the rows would.
-/
namespace FactFormula

/-- The rows that a store is made of. -/
structure Tables where
  securities : List Security
  attributes : List Attribute
  facts : List Fact

namespace Tables

def store (t : Tables) : Except StoreError FactStore :=
  FactStore.ofRows t.securities t.attributes t.facts

/-- Nothing is named twice, and no value is given twice. The ids of a fact need not be those of a
security and an attribute. -/
@[mk_iff]
structure Distinct (t : Tables) : Prop where
  securityIds : (t.securities.map Security.id).Nodup
  symbols : (t.securities.map Security.symbol).Nodup
  attributeIds : (t.attributes.map Attribute.id).Nodup
  names : (t.attributes.map Attribute.name).Nodup
  factKeys : (t.facts.map Fact.key).Nodup

instance (t : Tables) : Decidable t.Distinct := decidable_of_iff' _ (distinct_iff t)

def securityNames (t : Tables) : List (UInt32 × String) :=
  t.securities.map fun r => (r.id, r.symbol)

def attributeNames (t : Tables) : List (UInt32 × String) :=
  t.attributes.map fun r => (r.id, r.name)

variable {t : Tables} {store : FactStore}

theorem mem_securityNames {id : SecurityId} {symbol : String} :
    (id, symbol) ∈ t.securityNames ↔ ⟨id, symbol⟩ ∈ t.securities := by
  grind [securityNames, cases Security]

theorem mem_attributeNames {id : AttributeId} {name : String} :
    (id, name) ∈ t.attributeNames ↔ ⟨id, name⟩ ∈ t.attributes := by
  grind [attributeNames, cases Attribute]

theorem distinct_iff_names : t.Distinct ↔ NameIndex.Distinct t.securityNames ∧
    NameIndex.Distinct t.attributeNames ∧ (t.facts.map Fact.key).Nodup := by
  simp only [distinct_iff, NameIndex.distinct_iff, securityNames, attributeNames, List.map_map,
    Function.comp_def, and_assoc]

/-- A store is the rows with the three indices of them. -/
theorem store_eq_ok_iff :
    t.store = .ok store ↔ ∃ s a f, NameIndex.ofRows t.securityNames = .ok s ∧
      NameIndex.ofRows t.attributeNames = .ok a ∧ FactIndex.ofRows t.facts = .ok f ∧
      (⟨t.securities, t.attributes, s.byName, a.byName, f⟩ : FactStore) = store := by
  simp only [Tables.store, FactStore.ofRows, FactStore.ofTables, mapError_eq_ok_iff,
    bind_eq_ok_iff, pure_eq_ok, Except.ok.injEq, securityNames, attributeNames]
  constructor
  · rintro ⟨s, hs, a, ha, f, hf, rfl⟩
    exact ⟨s, a, f, hs, ha, hf, rfl⟩
  · rintro ⟨s, a, f, hs, ha, hf, rfl⟩
    exact ⟨s, hs, a, ha, f, hf, rfl⟩

theorem exists_store_iff (t : Tables) : (∃ store, t.store = .ok store) ↔ t.Distinct := by
  simp only [store_eq_ok_iff, distinct_iff_names, ← NameIndex.exists_ofRows_iff,
    ← FactIndex.exists_ofRows_iff]
  constructor
  · rintro ⟨_, s, a, f, hs, ha, hf, -⟩
    exact ⟨⟨s, hs⟩, ⟨a, ha⟩, ⟨f, hf⟩⟩
  · rintro ⟨⟨s, hs⟩, ⟨a, ha⟩, ⟨f, hf⟩⟩
    exact ⟨_, s, a, f, hs, ha, hf, rfl⟩

end Tables

/-- A look-up that has the answer of the rows, and an error of its own when they have none. -/
structure Finds {α : Type} (lookup : Except LookupError α) (Row : α → Prop)
    (missing : LookupError) : Prop where
  found : ∀ x, lookup = .ok x ↔ Row x
  missing : lookup = .error missing ↔ ∀ x, ¬ Row x

namespace Finds

variable {α : Type} {lookup lookup' : Except LookupError α} {Row Row' : α → Prop}
variable {missing : LookupError}

theorem of_entry {entry : Option α} (h : ∀ x, entry = some x ↔ Row x)
    (present : ∀ x, entry = some x → lookup = .ok x)
    (absent : entry = none → lookup = .error missing) : Finds lookup Row missing := by
  cases entry with
  | none =>
    have none : ∀ x, ¬ Row x := by simpa using h
    rw [absent rfl]
    exact ⟨by simpa using none, by simpa using none⟩
  | some x =>
    have only : ∀ y, x = y ↔ Row y := by simpa using h
    rw [present x rfl]
    exact ⟨by simpa using only, by simpa using ⟨x, (only x).mp rfl⟩⟩

/-- Look-ups in the same rows are the same. -/
theorem congr (h : Finds lookup Row missing) (h' : Finds lookup' Row' missing)
    (same : ∀ x, Row x ↔ Row' x) : lookup = lookup' := by
  cases found : lookup with
  | ok x => exact ((h'.found x).mpr ((same x).mp ((h.found x).mp found))).symm
  | error e =>
    have none : ∀ x, ¬ Row x := by
      intro x hx
      cases found.symm.trans ((h.found x).mpr hx)
    have none' : ∀ x, ¬ Row' x := fun x hx => none x ((same x).mpr hx)
    rw [h'.missing.mpr none', ← found, h.missing.mpr none]

end Finds

/-- Every look-up in a store is a scan of the rows of its tables. -/
structure FactStore.Scans (store : FactStore) (t : Tables) : Prop where
  securityId : ∀ symbol, Finds (store.securityId symbol) (fun id => ⟨id, symbol⟩ ∈ t.securities)
    (.unknownSecurity symbol)
  attributeId : ∀ name, Finds (store.attributeId name) (fun id => ⟨id, name⟩ ∈ t.attributes)
    (.unknownAttribute name)
  factValue : ∀ s a, Finds (store.factValue s a) (fun x => ⟨s, a, x⟩ ∈ t.facts) (.missingFact s a)
  hasSecurity : ∀ symbol, store.hasSecurity symbol = true ↔ ∃ id, store.securityId symbol = .ok id
  hasAttribute : ∀ name, store.hasAttribute name = true ↔ ∃ id, store.attributeId name = .ok id
  securities : store.securities = t.securities
  attributes : store.attributes = t.attributes
  factCount : store.factCount = t.facts.length

namespace Tables

variable {t : Tables} {store : FactStore}

theorem scans_of_store (built : t.store = .ok store) : store.Scans t := by
  obtain ⟨s, a, f, hs, ha, hf, rfl⟩ := store_eq_ok_iff.mp built
  have facts := FactIndex.holds_of_ofRows hf
  have symbols : ∀ symbol id, s.byName[symbol]? = some id ↔ ⟨id, symbol⟩ ∈ t.securities := by
    intro symbol id
    rw [(NameIndex.holds_of_ofRows hs).byName, mem_securityNames]
  have names : ∀ name id, a.byName[name]? = some id ↔ ⟨id, name⟩ ∈ t.attributes := by
    intro name id
    rw [(NameIndex.holds_of_ofRows ha).byName, mem_attributeNames]
  refine ⟨?_, ?_, ?_, FactStore.hasSecurity_iff _, FactStore.hasAttribute_iff _, rfl, rfl,
    facts.size⟩
  · intro symbol
    exact .of_entry (symbols symbol) (by simp +contextual [FactStore.securityId])
      (by simp +contextual [FactStore.securityId])
  · intro name
    exact .of_entry (names name) (by simp +contextual [FactStore.attributeId])
      (by simp +contextual [FactStore.attributeId])
  · intro i j
    exact .of_entry (facts.values (i, j)) (by simp +contextual [FactStore.factValue])
      (by simp +contextual [FactStore.factValue])

/-- Tables have a store exactly when they are distinct, and every look-up in it is a scan of their
rows. -/
theorem store_scans_rows (t : Tables) :
    ((∃ store, t.store = .ok store) ↔ t.Distinct) ∧
      ∀ store, t.store = .ok store → store.Scans t :=
  ⟨t.exists_store_iff, fun _ built => scans_of_store built⟩

end Tables

end FactFormula
