import Std.Data.TreeMap
import FactFormula.Facts.Source

/-!
Fact tables with their indices. A table names each of its rows once and gives each an id of its
own, and there is at most one fact for a security and an attribute.
-/
namespace FactFormula

/-- Ids by name, and the ids in use. -/
structure NameIndex where
  ids : Std.TreeMap UInt32 Unit
  byName : Std.TreeMap String UInt32

def NameIndex.empty : NameIndex := ⟨∅, ∅⟩

/-- Which part of a row has been used before. -/
inductive Clash where
  | id (id : UInt32)
  | name (name : String)
  deriving DecidableEq

def NameIndex.insert (index : NameIndex) (id : UInt32) (name : String) :
    Except Clash NameIndex :=
  if index.ids.contains id then .error (.id id)
  else if index.byName.contains name then .error (.name name)
  else .ok ⟨index.ids.insert id (), index.byName.insert name id⟩

/-- The index of rows of ids and names; a row that clashes with an earlier one ends it. -/
def NameIndex.ofRows (rows : List (UInt32 × String)) : Except Clash NameIndex :=
  rows.foldlM (fun index row => index.insert row.1 row.2) .empty

abbrev FactKey := SecurityId × AttributeId

/-- By security, then by attribute. -/
def FactKey.compare : FactKey → FactKey → Ordering :=
  compareLex (compareOn Prod.fst) (compareOn Prod.snd)

abbrev FactIndex := Std.TreeMap FactKey Float FactKey.compare

instance : Std.TransCmp FactKey.compare :=
  inferInstanceAs (Std.TransCmp (compareLex (compareOn Prod.fst) (compareOn Prod.snd)))

theorem FactKey.compare_eq_eq_iff {p q : FactKey} : FactKey.compare p q = .eq ↔ p = q := by
  simp [FactKey.compare, compareLex_eq_eq, compareOn, Prod.ext_iff]

instance : Std.LawfulEqCmp FactKey.compare where
  eq_of_compare := FactKey.compare_eq_eq_iff.mp

def FactIndex.insertFact (index : FactIndex) (f : Fact) : Except FactKey FactIndex :=
  if index.contains (f.securityId, f.attributeId) then .error (f.securityId, f.attributeId)
  else .ok (index.insert (f.securityId, f.attributeId) f.value)

def FactIndex.ofRows (rows : List Fact) : Except FactKey FactIndex :=
  rows.foldlM FactIndex.insertFact ∅

/-- Rows that cannot stand in one table. -/
inductive DuplicateError where
  | securitySymbol (symbol : String)
  | securityId (id : SecurityId)
  | attributeName (name : String)
  | attributeId (id : AttributeId)
  | fact (securityId : SecurityId) (attributeId : AttributeId)
  deriving DecidableEq

def DuplicateError.text : DuplicateError → String
  | .securitySymbol symbol => "duplicate security symbol: " ++ symbol
  | .securityId id => "duplicate security id: " ++ wordText id
  | .attributeName name => "duplicate attribute name: " ++ name
  | .attributeId id => "duplicate attribute id: " ++ wordText id
  | .fact s a =>
    "duplicate fact for security " ++ wordText s ++ ", attribute " ++ wordText a

structure FactStore where
  securities : List Security
  attributes : List Attribute
  securityIds : Std.TreeMap String SecurityId
  attributeIds : Std.TreeMap String AttributeId
  facts : FactIndex

namespace FactStore

def securityClash : Clash → DuplicateError
  | .id id => .securityId id
  | .name symbol => .securitySymbol symbol

def attributeClash : Clash → DuplicateError
  | .id id => .attributeId id
  | .name name => .attributeName name

/-- Facts about ids that the other tables do not have are kept; no name leads to them. -/
def ofTables (securities : List Security) (attributes : List Attribute) (facts : List Fact) :
    Except DuplicateError FactStore := do
  let s ← (NameIndex.ofRows (securities.map fun r => (r.id, r.symbol))).mapError securityClash
  let a ← (NameIndex.ofRows (attributes.map fun r => (r.id, r.name))).mapError attributeClash
  let f ← (FactIndex.ofRows facts).mapError fun key => .fact key.1 key.2
  return ⟨securities, attributes, s.byName, a.byName, f⟩

def securityId (store : FactStore) (symbol : String) : Except LookupError SecurityId :=
  match store.securityIds[symbol]? with
  | some id => .ok id
  | none => .error (.unknownSecurity symbol)

def attributeId (store : FactStore) (name : String) : Except LookupError AttributeId :=
  match store.attributeIds[name]? with
  | some id => .ok id
  | none => .error (.unknownAttribute name)

def factValue (store : FactStore) (securityId : SecurityId) (attributeId : AttributeId) :
    Except LookupError Float :=
  match store.facts[(securityId, attributeId)]? with
  | some x => .ok x
  | none => .error (.missingFact securityId attributeId)

def hasSecurity (store : FactStore) (symbol : String) : Bool := store.securityIds.contains symbol

def hasAttribute (store : FactStore) (name : String) : Bool := store.attributeIds.contains name

def factCount (store : FactStore) : Nat := store.facts.size

def source (store : FactStore) : FactSource :=
  ⟨store.securityId, store.attributeId, store.factValue⟩

def catalog (store : FactStore) : Catalog := ⟨store.hasSecurity, store.hasAttribute⟩

/-- The catalog of a store has the securities that the store resolves. -/
theorem hasSecurity_iff (store : FactStore) (symbol : String) :
    store.catalog.hasSecurity symbol = true ↔ ∃ id, store.securityId symbol = .ok id := by
  simp only [catalog, hasSecurity, securityId, Std.TreeMap.contains_eq_isSome_getElem?]
  cases store.securityIds[symbol]? <;> simp

theorem hasAttribute_iff (store : FactStore) (name : String) :
    store.catalog.hasAttribute name = true ↔ ∃ id, store.attributeId name = .ok id := by
  simp only [catalog, hasAttribute, attributeId, Std.TreeMap.contains_eq_isSome_getElem?]
  cases store.attributeIds[name]? <;> simp

/-- A catalog is settled by which names resolve; the ids do not matter. -/
theorem catalog_eq {store store' : FactStore}
    (securities : ∀ symbol, (∃ id, store.securityId symbol = .ok id) ↔
      ∃ id, store'.securityId symbol = .ok id)
    (attributes : ∀ name, (∃ id, store.attributeId name = .ok id) ↔
      ∃ id, store'.attributeId name = .ok id) : store.catalog = store'.catalog := by
  have hasSecurity : store.hasSecurity = store'.hasSecurity := by
    funext symbol
    rw [Bool.eq_iff_iff]
    exact (store.hasSecurity_iff symbol).trans
      ((securities symbol).trans (store'.hasSecurity_iff symbol).symm)
  have hasAttribute : store.hasAttribute = store'.hasAttribute := by
    funext name
    rw [Bool.eq_iff_iff]
    exact (store.hasAttribute_iff name).trans
      ((attributes name).trans (store'.hasAttribute_iff name).symm)
  rw [catalog, hasSecurity, hasAttribute, catalog]

end FactStore

end FactFormula
