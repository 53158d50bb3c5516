import Mathlib.Data.Prod.Basic
import FactFormula.Check
import FactFormula.Proofs.Evaluation.Extension

/-!
Tables with their rows in another order and with other ids. They have a store exactly when the
tables before had one, and no document tells the two stores apart.
-/
namespace FactFormula

/-- The rows of some tables in any order, every id replaced in all three tables. -/
structure Tables.Renamed (t t' : Tables) (ρ : SecurityId → SecurityId)
    (σ : AttributeId → AttributeId) : Prop where
  securities : t'.securities.Perm (t.securities.map (Security.rename ρ))
  attributes : t'.attributes.Perm (t.attributes.map (Attribute.rename σ))
  facts : t'.facts.Perm (t.facts.map (Fact.rename ρ σ))

/-- Rows keep their keys apart in any order and under other names for the keys. -/
theorem nodup_keys_iff_of_perm {α κ : Type} {rows rows' : List α} {f : α → α} {key : α → κ}
    {g : κ → κ} (perm : rows'.Perm (rows.map f)) (injective : Function.Injective g)
    (renamed : ∀ r, key (f r) = g (key r)) : (rows'.map key).Nodup ↔ (rows.map key).Nodup := by
  have keys : (rows.map f).map key = (rows.map key).map g := by
    simp only [List.map_map, Function.comp_def, renamed]
  rw [(perm.map key).nodup_iff, keys, List.nodup_map_iff injective]

variable {t t' : Tables} {store store' : FactStore}
variable {ρ ρ' : SecurityId → SecurityId} {σ σ' : AttributeId → AttributeId}

theorem Security.rename_rename (inverse : Function.LeftInverse ρ' ρ) (r : Security) :
    (r.rename ρ).rename ρ' = r := by
  simp only [rename, inverse r.id]

theorem Attribute.rename_rename (inverse : Function.LeftInverse σ' σ) (r : Attribute) :
    (r.rename σ).rename σ' = r := by
  simp only [rename, inverse r.id]

theorem Fact.rename_rename (hρ : Function.LeftInverse ρ' ρ) (hσ : Function.LeftInverse σ' σ)
    (f : Fact) : (f.rename ρ σ).rename ρ' σ' = f := by
  simp only [rename, hρ f.securityId, hσ f.attributeId]

namespace Tables.Renamed

theorem embeds (h : t.Renamed t' ρ σ) : t.Embeds t' ρ σ where
  securities _ hr := h.securities.mem_iff.mpr (List.mem_map_of_mem hr)
  attributes _ hr := h.attributes.mem_iff.mpr (List.mem_map_of_mem hr)
  facts _ hf := h.facts.mem_iff.mpr (List.mem_map_of_mem hf)

/-- What undoes a renaming leads back to the rows before it. -/
theorem embeds_back (h : t.Renamed t' ρ σ) (hρ : Function.LeftInverse ρ' ρ)
    (hσ : Function.LeftInverse σ' σ) : t'.Embeds t ρ' σ' where
  securities r' hr' := by
    obtain ⟨r, hr, rfl⟩ := List.mem_map.mp (h.securities.mem_iff.mp hr')
    rwa [Security.rename_rename hρ]
  attributes r' hr' := by
    obtain ⟨r, hr, rfl⟩ := List.mem_map.mp (h.attributes.mem_iff.mp hr')
    rwa [Attribute.rename_rename hσ]
  facts f' hf' := by
    obtain ⟨f, hf, rfl⟩ := List.mem_map.mp (h.facts.mem_iff.mp hf')
    rwa [Fact.rename_rename hρ hσ]

theorem distinct_iff (h : t.Renamed t' ρ σ) (hρ : Function.Injective ρ)
    (hσ : Function.Injective σ) : t'.Distinct ↔ t.Distinct := by
  have securityIds : (t'.securities.map Security.id).Nodup ↔
      (t.securities.map Security.id).Nodup :=
    nodup_keys_iff_of_perm h.securities hρ fun _ => rfl
  have symbols : (t'.securities.map Security.symbol).Nodup ↔
      (t.securities.map Security.symbol).Nodup :=
    nodup_keys_iff_of_perm h.securities Function.injective_id fun _ => rfl
  have attributeIds : (t'.attributes.map Attribute.id).Nodup ↔
      (t.attributes.map Attribute.id).Nodup :=
    nodup_keys_iff_of_perm h.attributes hσ fun _ => rfl
  have names : (t'.attributes.map Attribute.name).Nodup ↔
      (t.attributes.map Attribute.name).Nodup :=
    nodup_keys_iff_of_perm h.attributes Function.injective_id fun _ => rfl
  have factKeys : (t'.facts.map Fact.key).Nodup ↔ (t.facts.map Fact.key).Nodup :=
    nodup_keys_iff_of_perm h.facts (Function.Injective.prodMap hρ hσ) fun _ => rfl
  rw [Tables.distinct_iff, Tables.distinct_iff, securityIds, symbols, attributeIds, names,
    factKeys]

end Tables.Renamed

/-- Sources that answer the same names have the same catalog. -/
theorem FactStore.catalog_eq_of_embeds (there : store.source.Embeds store'.source ρ σ)
    (back : store'.source.Embeds store.source ρ' σ') : store.catalog = store'.catalog := by
  apply FactStore.catalog_eq
  · intro symbol
    constructor
    · rintro ⟨s, resolved⟩
      exact ⟨ρ s, there.securityId symbol s resolved⟩
    · rintro ⟨s, resolved⟩
      exact ⟨ρ' s, back.securityId symbol s resolved⟩
  · intro name
    constructor
    · rintro ⟨a, resolved⟩
      exact ⟨σ a, there.attributeId name a resolved⟩
    · rintro ⟨a, resolved⟩
      exact ⟨σ' a, back.attributeId name a resolved⟩

/-- With one way to fail, outcomes are the same when they have the same values. -/
theorem outcome_eq_of_values {x y : Except EvaluationFailure Float}
    (there : ∀ v, x = .ok v → y = .ok v) (back : ∀ v, y = .ok v → x = .ok v) : x = y := by
  cases x with
  | ok v => exact (there v rfl).symm
  | error e =>
    cases y with
    | ok v => cases back v rfl
    | error f =>
      cases e
      cases f
      rfl

/-- Neither the order of the rows nor the choice of the ids makes a difference: the tables are
accepted or refused alike, and every document has the same value and the same problems. -/
theorem Document.unchanged_by_renaming (t t' : Tables) (ρ : SecurityId → SecurityId)
    (σ : AttributeId → AttributeId) (hρ : Function.Injective ρ) (hσ : Function.Injective σ)
    (renamed : t.Renamed t' ρ σ) :
    ((∃ store, t.store = .ok store) ↔ ∃ store', t'.store = .ok store') ∧
      ∀ store store', t.store = .ok store → t'.store = .ok store' →
        ∀ (d : Document) (ops : OperatorRegistry) (known : OperatorSet),
          d.evaluateWith store'.source ops = d.evaluateWith store.source ops ∧
            d.check store'.catalog known = d.check store.catalog known ∧
            d.problems store'.catalog known = d.problems store.catalog known := by
  constructor
  · rw [t.exists_store_iff, t'.exists_store_iff, renamed.distinct_iff hρ hσ]
  · intro store store' built built' d ops known
    have scans := Tables.scans_of_store built
    have scans' := Tables.scans_of_store built'
    -- An injective renaming has a way back, and each store then answers whatever the other does.
    have there := renamed.embeds.sources scans scans'
    have back := (renamed.embeds_back (Function.leftInverse_invFun hρ)
      (Function.leftInverse_invFun hσ)).sources scans' scans
    have within := OperatorRegistry.Within.refl ops
    refine ⟨outcome_eq_of_values (fun _ => evaluateWith_of_embeds back within)
      fun _ => evaluateWith_of_embeds there within, ?_⟩
    rw [FactStore.catalog_eq_of_embeds there back]
    exact ⟨rfl, rfl⟩

/-- The rows of the market from the last to the first. The two ids of each kind have changed
places. -/
def mirroredTables : Tables where
  securities := [⟨2, "ABC"⟩, ⟨1, "BCD"⟩]
  attributes := [⟨7, "eps"⟩, ⟨8, "price"⟩]
  facts := [⟨2, 7, 3⟩, ⟨2, 8, 4⟩, ⟨4294967290, 6, 0⟩, ⟨1, 8, 5⟩]

/-- Ids are mirrored, so that those in use are used again for something else. -/
theorem Document.unchanged_by_mirroring :
    ∃ store store', marketTables.store = .ok store ∧ mirroredTables.store = .ok store' ∧
      priceDocument.evaluateWith store.source .builtins = .ok 24 ∧
      priceDocument.evaluateWith store'.source .builtins = .ok 24 := by
  have hρ : Function.Involutive fun s : SecurityId => 3 - s := by
    intro s
    grind
  have hσ : Function.Involutive fun a : AttributeId => 15 - a := by
    intro a
    grind
  have renamed : marketTables.Renamed mirroredTables (fun s => 3 - s) fun a => 15 - a := by
    constructor <;> decide +kernel
  have same := Document.unchanged_by_renaming marketTables mirroredTables _ _ hρ.injective
    hσ.injective renamed
  obtain ⟨store, built⟩ := marketTables.exists_store_iff.mpr (by decide)
  obtain ⟨store', built'⟩ := same.1.mp ⟨store, built⟩
  have value : priceDocument.evaluateWith store.source .builtins = .ok 24 :=
    eq_of_map_eq_ok (f := fun s => priceDocument.evaluateWith s.source .builtins) built
      (by decide +kernel)
  have value' := (same.2 store store' built built' priceDocument .builtins fun _ => true).1
  exact ⟨store, store', built, built', value, value'.trans value⟩

end FactFormula
