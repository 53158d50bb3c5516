import FactFormula.Proofs.Evaluation.Locality
import FactFormula.Proofs.Evaluation.Meaning
import FactFormula.Proofs.Facts.Tables

/-!
Sources that answer more than others. A document that has a value keeps it when rows are added to
the tables and operators to the registry, and when ids are renamed on the way.
-/
namespace FactFormula

/-- Whatever a source answers another one answers too, under ids of its own. -/
structure FactSource.Embeds (source source' : FactSource) (ρ : SecurityId → SecurityId)
    (σ : AttributeId → AttributeId) : Prop where
  securityId : ∀ symbol s, source.securityId symbol = .ok s →
    source'.securityId symbol = .ok (ρ s)
  attributeId : ∀ name a, source.attributeId name = .ok a → source'.attributeId name = .ok (σ a)
  factValue : ∀ s a x, source.factValue s a = .ok x → source'.factValue (ρ s) (σ a) = .ok x

/-- Every operator of a registry stands under the same symbol in another. -/
def OperatorRegistry.Within (ops ops' : OperatorRegistry) : Prop :=
  ∀ symbol f, ops.get? symbol = some f → ops'.get? symbol = some f

variable {source source' : FactSource} {ops ops' : OperatorRegistry}
variable {ρ : SecurityId → SecurityId} {σ : AttributeId → AttributeId}

namespace OperatorRegistry

theorem Within.refl (ops : OperatorRegistry) : ops.Within ops := fun _ _ h => h

/-- New symbols do not take the place of old ones. -/
theorem within_registerAll {added : List Operator}
    (fresh : ∀ f ∈ added, ops.contains f.symbol = false) : ops.Within (ops.registerAll added) := by
  intro symbol f registered
  have other : ∀ g ∈ added, g.symbol ≠ symbol := by
    rintro g hg rfl
    have absent := fresh g hg
    rw [contains_eq_isSome_get?, registered] at absent
    cases absent
  rw [get?_registerAll_of_ne ops added symbol other, registered]

end OperatorRegistry

theorem FactSource.Embeds.answers (h : source.Embeds source' ρ σ) {s : SecurityId} {name : String}
    {x : Float} (known : source.Answers s name x) : source'.Answers (ρ s) name x := by
  obtain ⟨a, resolved, value⟩ := known
  exact ⟨σ a, h.attributeId name a resolved, h.factValue s a x value⟩

theorem Operand.HasValue.embed (h : source.Embeds source' ρ σ) (within : ops.Within ops')
    {o : Operand} {s : SecurityId} {x : Float} (value : o.HasValue source ops s x) :
    o.HasValue source' ops' (ρ s) x := by
  induction value with
  | literal x => exact .literal x
  | fact known => exact .fact (h.answers known)
  | node registered _ _ applied finite left right =>
    exact .node (within _ _ registered) left right applied finite

theorem Document.evaluateWith_of_embeds (h : source.Embeds source' ρ σ)
    (within : ops.Within ops') {d : Document} {x : Float}
    (value : d.evaluateWith source ops = .ok x) : d.evaluateWith source' ops' = .ok x := by
  rw [evaluateWith_eq_ok_iff] at value ⊢
  obtain ⟨s, resolved, value⟩ := value
  exact ⟨ρ s, h.securityId _ s resolved, value.embed h within⟩

def Security.rename (ρ : SecurityId → SecurityId) (r : Security) : Security :=
  { r with id := ρ r.id }

def Attribute.rename (σ : AttributeId → AttributeId) (r : Attribute) : Attribute :=
  { r with id := σ r.id }

def Fact.rename (ρ : SecurityId → SecurityId) (σ : AttributeId → AttributeId) (f : Fact) : Fact :=
  ⟨ρ f.securityId, σ f.attributeId, f.value⟩

/-- Every row of some tables, its ids renamed, stands in others. -/
structure Tables.Embeds (t t' : Tables) (ρ : SecurityId → SecurityId)
    (σ : AttributeId → AttributeId) : Prop where
  securities : ∀ r ∈ t.securities, r.rename ρ ∈ t'.securities
  attributes : ∀ r ∈ t.attributes, r.rename σ ∈ t'.attributes
  facts : ∀ f ∈ t.facts, f.rename ρ σ ∈ t'.facts

theorem Tables.Embeds.sources {t t' : Tables} {store store' : FactStore} (h : t.Embeds t' ρ σ)
    (scans : store.Scans t) (scans' : store'.Scans t') :
    store.source.Embeds store'.source ρ σ where
  securityId symbol s resolved := by
    have row := ((scans.securityId symbol).found s).mp resolved
    exact ((scans'.securityId symbol).found (ρ s)).mpr (h.securities _ row)
  attributeId name a resolved := by
    have row := ((scans.attributeId name).found a).mp resolved
    exact ((scans'.attributeId name).found (σ a)).mpr (h.attributes _ row)
  factValue s a x value := by
    have row := ((scans.factValue s a).found x).mp value
    exact ((scans'.factValue (ρ s) (σ a)).found x).mpr (h.facts _ row)

/-- More rows and further operators neither take the value of a document away nor change it. -/
theorem Document.evaluateWith_extended (d : Document) (t t' : Tables) (store store' : FactStore)
    (ops : OperatorRegistry) (added : List Operator) (x : Float) (built : t.store = .ok store)
    (built' : t'.store = .ok store') (securities : t.securities ⊆ t'.securities)
    (attributes : t.attributes ⊆ t'.attributes) (facts : t.facts ⊆ t'.facts)
    (fresh : ∀ f ∈ added, ops.contains f.symbol = false)
    (value : d.evaluateWith store.source ops = .ok x) :
    d.evaluateWith store'.source (ops.registerAll added) = .ok x := by
  have embeds : t.Embeds t' id id :=
    ⟨fun _ hr => securities hr, fun _ hr => attributes hr, fun _ hf => facts hf⟩
  have sources : store.source.Embeds store'.source id id :=
    embeds.sources (Tables.scans_of_store built) (Tables.scans_of_store built')
  exact evaluateWith_of_embeds sources (OperatorRegistry.within_registerAll fresh) value

/-- The price of one security. -/
def priceTables : Tables := ⟨[⟨1, "ABC"⟩], [⟨7, "price"⟩], [⟨1, 7, 4⟩]⟩

/-- The same price among other rows, one of them about ids that have no name. -/
def marketTables : Tables where
  securities := [⟨2, "BCD"⟩, ⟨1, "ABC"⟩]
  attributes := [⟨7, "price"⟩, ⟨8, "eps"⟩]
  facts := [⟨2, 7, 5⟩, ⟨9, 9, 0⟩, ⟨1, 7, 4⟩, ⟨1, 8, 3⟩]

/-- Two operators under one new symbol, and rows before and behind the one that matters. -/
theorem Document.evaluateWith_extended_market :
    ∃ store store', priceTables.store = .ok store ∧ marketTables.store = .ok store' ∧
      priceDocument.evaluateWith store.source .builtins = .ok 24 ∧
      priceDocument.evaluateWith store'.source (OperatorRegistry.builtins.registerAll
        [⟨"first", fun x _ => some x⟩, ⟨"first", fun _ _ => none⟩]) = .ok 24 := by
  obtain ⟨store, built⟩ := priceTables.exists_store_iff.mpr (by decide)
  obtain ⟨store', built'⟩ := marketTables.exists_store_iff.mpr (by decide)
  have value : priceDocument.evaluateWith store.source .builtins = .ok 24 :=
    eq_of_map_eq_ok (f := fun s => priceDocument.evaluateWith s.source .builtins) built
      (by decide +kernel)
  refine ⟨store, store', built, built', value, ?_⟩
  apply Document.evaluateWith_extended priceDocument priceTables marketTables store store'
    .builtins _ 24 built built' _ _ _ _ value
  · decide
  · decide
  · decide
  · decide +kernel

end FactFormula
