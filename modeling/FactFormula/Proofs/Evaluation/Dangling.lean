import FactFormula.Check
import FactFormula.Proofs.Evaluation.Extension

/-!
Facts about ids that no other table has. Names lead to ids of the tables only, so an evaluation
never asks for such a fact, and runs as it would without it.
-/
namespace FactFormula

/-- Sources that resolve names alike and know the same of what names lead to. -/
structure FactSource.AgreesByName (source source' : FactSource) : Prop where
  securityId : ∀ symbol, source.securityId symbol = source'.securityId symbol
  attributeId : ∀ name, source.attributeId name = source'.attributeId name
  factValue : ∀ symbol s name a, source.securityId symbol = .ok s →
    source.attributeId name = .ok a → source.factValue s a = source'.factValue s a

/-- What no name leads to is not seen in a run. -/
theorem FactSource.AgreesByName.run_eq {source source' : FactSource}
    (h : source.AgreesByName source') (d : Document) (ops : OperatorRegistry) :
    d.run source ops = d.run source' ops := by
  unfold Document.run
  rw [← h.securityId]
  cases resolved : source.securityId d.security with
  | error e => rfl
  | ok s =>
    have formula : d.expression.run source ops s = d.expression.run source' ops s :=
      d.expression.toOperand.run_congr (fun name _ => h.attributeId name)
        (fun name _ a => h.factValue d.security s name a resolved) fun _ _ => rfl
    simp only [formula]

namespace Tables

/-- No security or no attribute has the id that the fact is about. -/
def Dangling (t : Tables) (f : Fact) : Prop :=
  f.securityId ∉ t.securities.map Security.id ∨ f.attributeId ∉ t.attributes.map Attribute.id

instance (t : Tables) (f : Fact) : Decidable (t.Dangling f) :=
  inferInstanceAs (Decidable (_ ∨ _))

variable {t : Tables} {extra facts : List Fact} {store store' : FactStore}

/-- Ids that names resolve to stand in the tables, so that no fact about them dangles. -/
theorem not_dangling {symbol name : String} {f : Fact}
    (hs : ⟨f.securityId, symbol⟩ ∈ t.securities) (ha : ⟨f.attributeId, name⟩ ∈ t.attributes) :
    ¬ t.Dangling f := by
  rintro (absent | absent)
  · exact absent (List.mem_map.mpr ⟨_, hs, rfl⟩)
  · exact absent (List.mem_map.mpr ⟨_, ha, rfl⟩)

theorem agreesByName_of_dangling (dangling : ∀ f ∈ extra, t.Dangling f)
    (rows : facts.Perm (t.facts ++ extra)) (scans : store.Scans t)
    (scans' : store'.Scans { t with facts := facts }) :
    store.source.AgreesByName store'.source where
  securityId symbol := (scans.securityId symbol).congr (scans'.securityId symbol) fun _ => Iff.rfl
  attributeId name := (scans.attributeId name).congr (scans'.attributeId name) fun _ => Iff.rfl
  factValue symbol s name a resolved resolved' := by
    -- Both ids are those of rows, which no further fact is about at once.
    have hs := ((scans.securityId symbol).found s).mp resolved
    have ha := ((scans.attributeId name).found a).mp resolved'
    have live : ∀ x, ⟨s, a, x⟩ ∉ extra := fun x hx => not_dangling hs ha (dangling _ hx)
    refine (scans.factValue s a).congr (scans'.factValue s a) fun x => ?_
    rw [rows.mem_iff, List.mem_append, or_iff_left (live x)]

end Tables

/-- Dangling facts among the others change neither what a document evaluates to, nor the questions
and events of its run, nor its problems. -/
theorem Document.unchanged_by_dangling_facts (t : Tables) (extra facts : List Fact)
    (store store' : FactStore) (dangling : ∀ f ∈ extra, t.Dangling f)
    (rows : facts.Perm (t.facts ++ extra)) (built : t.store = .ok store)
    (built' : Tables.store { t with facts := facts } = .ok store') (d : Document)
    (ops : OperatorRegistry) (known : OperatorSet) :
    d.evaluateWith store'.source ops = d.evaluateWith store.source ops ∧
      (d.run store'.source ops).queries = (d.run store.source ops).queries ∧
      (d.run store'.source ops).events = (d.run store.source ops).events ∧
      d.check store'.catalog known = d.check store.catalog known ∧
      d.problems store'.catalog known = d.problems store.catalog known := by
  have agrees : store.source.AgreesByName store'.source :=
    Tables.agreesByName_of_dangling dangling rows (Tables.scans_of_store built)
      (Tables.scans_of_store built')
  have run : d.run store.source ops = d.run store'.source ops := agrees.run_eq d ops
  have catalog : store.catalog = store'.catalog := by
    apply FactStore.catalog_eq
    · intro symbol
      rw [show store.securityId symbol = store'.securityId symbol from agrees.securityId symbol]
    · intro name
      rw [show store.attributeId name = store'.attributeId name from agrees.attributeId name]
  rw [evaluateWith, evaluateWith, run, catalog]
  exact ⟨rfl, rfl, rfl, rfl, rfl⟩

/-- A price of an absent security and an absent attribute of the one that is there, on either side
of the price. -/
theorem Document.unchanged_by_dangling_price :
    ∃ store store', priceTables.store = .ok store ∧
      Tables.store { priceTables with facts := [⟨9, 7, 5⟩, ⟨1, 7, 4⟩, ⟨1, 9, 3⟩] } = .ok store' ∧
      priceDocument.evaluateWith store.source .builtins = .ok 24 ∧
      priceDocument.evaluateWith store'.source .builtins = .ok 24 := by
  obtain ⟨store, built⟩ := priceTables.exists_store_iff.mpr (by decide)
  obtain ⟨store', built'⟩ := (Tables.exists_store_iff
    { priceTables with facts := [⟨9, 7, 5⟩, ⟨1, 7, 4⟩, ⟨1, 9, 3⟩] }).mpr (by decide)
  have dangling : ∀ f ∈ [(⟨9, 7, 5⟩ : Fact), ⟨1, 9, 3⟩], priceTables.Dangling f := by
    decide
  have value : priceDocument.evaluateWith store.source .builtins = .ok 24 :=
    eq_of_map_eq_ok (f := fun s => priceDocument.evaluateWith s.source .builtins) built
      (by decide +kernel)
  have same := Document.unchanged_by_dangling_facts priceTables _ _ store store' dangling
    (by decide +kernel) built built' priceDocument .builtins fun _ => true
  exact ⟨store, store', built, built', value, same.1.trans value⟩

end FactFormula
