import FactFormula.Facts.Bundled
import FactFormula.Proofs.Facts.Tables
import FactFormula.Proofs.Json.Straight

/-!
Facts from texts are finite. A table is refused if one of its values is none or too large, so no
store that is loaded answers with anything that is not finite.
-/
namespace FactFormula
open Json

/-- Every value that the source has is finite. -/
def FactSource.FiniteFacts (source : FactSource) : Prop :=
  ∀ s a x, source.factValue s a = .ok x → x.isFinite = true

/-- A store that comes from texts, from files or with the program. -/
inductive FactStore.Loaded (store : FactStore) : Prop where
  | texts {securities attributes facts : String}
      (built : FactStore.ofTexts securities attributes facts = .ok store)
  | directory {files : Files} {dir : String} (built : FactStore.load files dir = .ok store)
  | bundled (built : Bundled.store = .ok store)

/-- The slot of the value holds nothing that is not finite. -/
def Fact.FiniteSlot (slots : Option SecurityId × Option AttributeId × Option Float) : Prop :=
  ∀ x, slots.2.2 = some x → x.isFinite = true

theorem Fact.format_only : Fact.format.Only (·.value.isFinite = true) := by
  have any : Format.word.Only fun _ => True := fun _ _ _ _ _ => trivial
  have keeps : ∀ g ∈ Fact.record.fields, g.Keeps FiniteSlot := by
    simp only [record, List.forall_mem_cons, List.not_mem_nil, false_imp_iff, implies_true,
      and_true]
    refine ⟨any.field _ _ fun _ _ _ slot => slot, any.field _ _ fun _ _ _ slot => slot, ?_⟩
    refine Format.number_only.field _ _ fun x slots finite _ y same => ?_
    cases same
    exact finite
  have vacant : FiniteSlot record.vacant := nofun
  refine Record.format_only vacant keeps fun slots fact slot built => ?_
  simp only [record, bind_eq_ok_iff, required_eq_ok_iff, pure_eq_ok, Except.ok.injEq] at built
  obtain ⟨s, -, a, -, x, hx, rfl⟩ := built
  exact slot x hx

namespace FactStore

variable {store : FactStore}

theorem finiteFacts_of_tables {t : Tables} (built : t.store = .ok store)
    (finite : ∀ f ∈ t.facts, f.value.isFinite = true) : store.source.FiniteFacts := by
  intro s a x found
  have scan := (Tables.scans_of_store built).factValue s a
  exact finite ⟨s, a, x⟩ ((scan.found x).mp found)

theorem finiteFacts_of_texts {securities attributes facts : String}
    (built : ofTexts securities attributes facts = .ok store) : store.source.FiniteFacts := by
  obtain ⟨s, -, built⟩ := (bind_eq_ok_iff ..).mp built
  obtain ⟨a, -, built⟩ := (bind_eq_ok_iff ..).mp built
  obtain ⟨f, read, built⟩ := (bind_eq_ok_iff ..).mp built
  have rows : (Format.list Fact.format).ofText facts = .ok f := (mapError_eq_ok_iff ..).mp read
  have tables : (Tables.mk s a f).store = .ok store := built
  exact finiteFacts_of_tables tables ((Format.list_only Fact.format_only).ofText rows)

theorem Loaded.finiteFacts (loaded : store.Loaded) : store.source.FiniteFacts := by
  cases loaded with
  | texts built => exact finiteFacts_of_texts built
  | directory built =>
    obtain ⟨s, -, built⟩ := (bind_eq_ok_iff ..).mp built
    obtain ⟨a, -, built⟩ := (bind_eq_ok_iff ..).mp built
    obtain ⟨f, -, built⟩ := (bind_eq_ok_iff ..).mp built
    exact finiteFacts_of_texts built
  | bundled built => exact finiteFacts_of_texts built

end FactStore

namespace Bundled

/-- The rows that the bundled texts hold. -/
def tables : Tables where
  securities := [⟨1, "ABC"⟩, ⟨2, "BCD"⟩, ⟨3, "CDE"⟩]
  attributes := [
    ⟨1, "price"⟩, ⟨2, "eps"⟩, ⟨3, "sales"⟩, ⟨4, "shares"⟩, ⟨5, "assets"⟩, ⟨6, "liabilities"⟩,
    ⟨7, "dividend"⟩]
  facts := [
    ⟨1, 1, 12⟩, ⟨1, 2, 3⟩, ⟨1, 3, 4⟩, ⟨1, 4, 100⟩, ⟨1, 5, 250⟩, ⟨1, 6, 50⟩, ⟨1, 7, 0.25⟩,
    ⟨2, 1, 4⟩, ⟨2, 2, 8⟩, ⟨2, 3, 16⟩, ⟨2, 4, 40⟩, ⟨2, 5, 120⟩, ⟨2, 6, 70⟩,
    ⟨3, 1, 7⟩, ⟨3, 2, 1⟩, ⟨3, 3, 9⟩, ⟨3, 4, 2⟩, ⟨3, 5, 30⟩, ⟨3, 6, 10⟩]

/-- A table is read from the characters of its text, and with these the kernel can compute. -/
theorem readTable_ofList {α : Type} {row : Format α} {table : TableName} {chars : List Char}
    {rows : List α}
    (read : ((Format.list row).read maxDepth chars).toOption = some (rows, ['\n'])) :
    FactStore.readTable row table (String.ofList chars) = .ok rows := by
  have taken : (Format.list row).read maxDepth chars = .ok (rows, ['\n']) := by
    cases outcome : (Format.list row).read maxDepth chars with
    | error f => simp [outcome, Except.toOption] at read
    | ok taken => simpa [outcome, Except.toOption] using read
  refine (mapError_eq_ok_iff ..).mpr (readWhole_eq_ok_iff.mpr ⟨['\n'], ?_, rfl⟩)
  rwa [String.toList_ofList]

set_option maxRecDepth 8000 in
theorem store_eq : store = tables.store := by
  have readSecurities : FactStore.readTable Security.format .securities securities =
      .ok tables.securities := by
    unfold securities
    refine readTable_ofList ?_
    decide +kernel
  have readAttributes : FactStore.readTable Attribute.format .attributes attributes =
      .ok tables.attributes := by
    unfold attributes
    refine readTable_ofList ?_
    decide +kernel
  have readFacts : FactStore.readTable Fact.format .facts facts = .ok tables.facts := by
    unfold facts
    refine readTable_ofList ?_
    decide +kernel
  rw [store, FactStore.ofTexts, readSecurities, readAttributes, readFacts]
  rfl

/-- Without other tables there are always these. -/
theorem exists_store : ∃ built, store = .ok built := by
  rw [store_eq]
  exact tables.exists_store_iff.mpr (by decide +kernel)

end Bundled

end FactFormula
