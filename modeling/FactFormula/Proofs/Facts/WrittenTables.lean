import FactFormula.Proofs.Facts.Tables
import FactFormula.Proofs.Json.Straight
import FactFormula.Proofs.Json.WholeNumber

/-!
Tables through their own texts. Rows that are written out and loaded again have the store that they
had before, or are refused for the same reason: nothing of a row is lost, moved or changed.
-/
namespace FactFormula
open Json

/-- A row is read from the value that is written for it, and that is read from its text. -/
structure Survives {α : Type} (row : Format α) (toValue : α → Value) (r : α) : Prop where
  reads : row.ofValue (toValue r) = .ok r
  restores : (toValue r).Restores
  nesting : (toValue r).nesting = 1

/-- What is known of a security is a number, and the number is read back from its text. -/
structure Fact.Writable (f : Fact) : Prop where
  finite : f.value.isFinite = true
  restores : RestoresBits f.value

section Parts

theorem word_ofValue_wordValue (n : UInt32) : Format.word.ofValue (wordValue n) = .ok n := by
  have bound : n.toNat < 0x100000000 := n.toNat_lt
  simp [Format.word, Format.simple, wordValue, bound]

theorem restores_wordValue (n : UInt32) : (wordValue n).Restores := by
  have bound : n.toNat < 0x100000000 := n.toNat_lt
  have fits : n.toNat < significandLimit := bound.trans (by decide)
  exact .number (readNumber_integer_chars fits)

end Parts

section Named

variable {α : Type} {r : Record (Option UInt32 × Option String) α} {key : String}

/-- A record of an id and of a name that goes by `key`. -/
structure Named (r : Record (Option UInt32 × Option String) α) (key : String) : Prop where
  fields : r.fields = [
    Format.word.field "id" (·.1) fun id s => (some id, s.2),
    Format.string.field key (·.2) fun t s => (s.1, some t)]
  vacant : r.vacant = (none, none)
  apart : "id" ≠ key

theorem Named.streams (named : Named r key) : r.format.Streams := by
  apply Record.format_streams
  simp only [named.fields, List.forall_mem_cons, List.not_mem_nil, false_imp_iff, implies_true,
    and_true]
  exact ⟨Format.word_streams.field _ _ _, Format.string_streams.field _ _ _⟩

theorem Named.fillMembers (named : Named r key) (id : UInt32) (name : String) :
    r.fillMembers r.vacant [("id", wordValue id), (key, .string name)] =
      .ok (some id, some name) := by
  have idField : r.field? "id" =
      some (Format.word.field "id" (·.1) fun id s => (some id, s.2)) := by
    simp [Record.field?, named.fields, Format.field]
  have nameField : r.field? key =
      some (Format.string.field key (·.2) fun t s => (s.1, some t)) := by
    simp [Record.field?, named.fields, Format.field, named.apart]
  have nameText : Format.string.ofValue (.string name) = .ok name := rfl
  rw [named.vacant, Record.fillMembers_field idField rfl (word_ofValue_wordValue id),
    Record.fillMembers_field nameField rfl nameText]
  rfl

theorem Named.survives (named : Named r key) {toValue : α → Value} {row : α} {id : UInt32}
    {name : String} (written : toValue row = .object [("id", wordValue id), (key, .string name)])
    (built : r.build (some id, some name) = .ok row) : Survives r.format toValue row where
  reads := by
    simp only [written, Record.format, Record.ofValue, named.fillMembers, ok_bind, built]
  restores := by
    rw [written]
    apply Value.Restores.object
    simp only [List.forall_mem_cons, List.not_mem_nil, false_imp_iff, implies_true, and_true]
    exact ⟨restores_wordValue id, .string name⟩
  nesting := by
    rw [written]
    rfl

theorem Security.record_named : Named Security.record "symbol" := ⟨rfl, rfl, by decide⟩

theorem Attribute.record_named : Named Attribute.record "name" := ⟨rfl, rfl, by decide⟩

theorem Security.format_streams : Security.format.Streams := record_named.streams

theorem Attribute.format_streams : Attribute.format.Streams := record_named.streams

theorem Security.survives (s : Security) : Survives Security.format Security.toValue s :=
  record_named.survives rfl rfl

theorem Attribute.survives (a : Attribute) : Survives Attribute.format Attribute.toValue a :=
  record_named.survives rfl rfl

end Named

section Facts

theorem Fact.format_streams : Fact.format.Streams := by
  apply Record.format_streams
  simp only [record, List.forall_mem_cons, List.not_mem_nil, false_imp_iff, implies_true, and_true]
  exact ⟨Format.word_streams.field _ _ _, Format.word_streams.field _ _ _,
    Format.number_streams.field _ _ _⟩

theorem Fact.Writable.toValue_eq {f : Fact} (h : f.Writable) :
    f.toValue = .object [("security_id", wordValue f.securityId),
      ("attribute_id", wordValue f.attributeId), ("value", .number (.float f.value))] := by
  rw [Fact.toValue, floatValue, if_pos h.finite]

theorem Fact.fillMembers (securityId attributeId : UInt32) (x : Float) :
    record.fillMembers record.vacant [("security_id", wordValue securityId),
        ("attribute_id", wordValue attributeId), ("value", .number (.float x))] =
      .ok (some securityId, some attributeId, some x) := by
  have value : Format.number.ofValue (.number (.float x)) = .ok x := rfl
  rw [Record.fillMembers_field rfl rfl (word_ofValue_wordValue securityId),
    Record.fillMembers_field rfl rfl (word_ofValue_wordValue attributeId),
    Record.fillMembers_field rfl rfl value]
  rfl

theorem Fact.Writable.survives {f : Fact} (h : f.Writable) :
    Survives Fact.format Fact.toValue f where
  reads := by
    simp only [h.toValue_eq, Fact.format, Record.format, Record.ofValue, Fact.fillMembers]
    rfl
  restores := by
    rw [h.toValue_eq]
    apply Value.Restores.object
    simp only [List.forall_mem_cons, List.not_mem_nil, false_imp_iff, implies_true, and_true]
    exact ⟨restores_wordValue f.securityId, restores_wordValue f.attributeId,
      .number h.restores.readNumber_eq⟩
  nesting := by
    rw [h.toValue_eq]
    rfl

end Facts

section Lists

variable {α : Type} {row : Format α} {toValue : α → Value} {rows : List α}

theorem mapM_ofValue_map (survives : ∀ r ∈ rows, Survives row toValue r) :
    (rows.map toValue).mapM row.ofValue = .ok rows := by
  induction rows with
  | nil => rfl
  | cons r rows ih =>
    obtain ⟨here, others⟩ := List.forall_mem_cons.mp survives
    rw [List.map_cons, List.mapM_cons, here.reads, ok_bind, ih others]
    rfl

theorem nesting_table_le (survives : ∀ r ∈ rows, Survives row toValue r) :
    (Value.array (rows.map toValue)).nesting ≤ maxDepth := by
  have inside : itemsNesting (rows.map toValue) ≤ 1 := by
    rw [itemsNesting_le_iff, List.forall_mem_map]
    exact fun r hr => (survives r hr).nesting.le
  exact (Nat.succ_le_succ inside).trans (by decide)

/-- Rows that survive one by one survive as a table, all of them and in their order. -/
theorem ofText_tableText (streams : row.Streams)
    (survives : ∀ r ∈ rows, Survives row toValue r) :
    (Format.list row).ofText (tableText toValue rows) = .ok rows := by
  have restores : (Value.array (rows.map toValue)).Restores := by
    apply Value.Restores.array
    rw [List.forall_mem_map]
    exact fun r hr => (survives r hr).restores
  have read := restores.readWhole_text (nesting_table_le survives)
  exact ((Format.list_streams streams).ofText_eq_ok_iff read rows).mpr (mapM_ofValue_map survives)

theorem readTable_tableText (streams : row.Streams)
    (survives : ∀ r ∈ rows, Survives row toValue r) (table : TableName) :
    FactStore.readTable row table (tableText toValue rows) = .ok rows := by
  rw [FactStore.readTable, ofText_tableText streams survives]
  rfl

end Lists

/-- Tables that are written out and loaded have the store that they had, or the same rows of them
clash. -/
theorem Tables.ofTexts_tableText (t : Tables) (writable : ∀ f ∈ t.facts, f.Writable) :
    FactStore.ofTexts (tableText Security.toValue t.securities)
      (tableText Attribute.toValue t.attributes) (tableText Fact.toValue t.facts) = t.store := by
  have securities := readTable_tableText Security.format_streams
    (fun s (_ : s ∈ t.securities) => s.survives) .securities
  have attributes := readTable_tableText Attribute.format_streams
    (fun a (_ : a ∈ t.attributes) => a.survives) .attributes
  have facts := readTable_tableText Fact.format_streams
    (fun f hf => (writable f hf).survives) .facts
  rw [FactStore.ofTexts, securities, attributes, facts]
  rfl

/-- The least and the greatest id, names that need escapes, a value that is written with an
exponent, a negative zero, and a fact about ids that nothing has. -/
def oddTables : Tables where
  securities := [⟨0, "A \"B\"\n"⟩, ⟨4294967295, "Ünïcode \\ 🦀"⟩]
  attributes := [⟨4294967295, ""⟩]
  facts := [⟨0, 4294967295, 0.1⟩, ⟨4294967295, 4294967295, -0.0⟩, ⟨7, 8, 1e16⟩]

theorem Tables.ofTexts_oddTables : (∀ f ∈ oddTables.facts, f.Writable) ∧
    ∃ store, FactStore.ofTexts (tableText Security.toValue oddTables.securities)
      (tableText Attribute.toValue oddTables.attributes)
      (tableText Fact.toValue oddTables.facts) = .ok store := by
  have writable : ∀ f ∈ oddTables.facts, f.Writable := by
    simp only [oddTables, List.forall_mem_cons, List.not_mem_nil, false_imp_iff, implies_true,
      and_true]
    exact ⟨⟨by decide +kernel, .float 0.1, rfl, rfl⟩,
      ⟨by decide +kernel, .float (-0.0), rfl, rfl⟩, ⟨by decide +kernel, .float 1e16, rfl, rfl⟩⟩
  obtain ⟨store, built⟩ := oddTables.exists_store_iff.mpr (by decide)
  exact ⟨writable, store, (ofTexts_tableText oddTables writable).trans built⟩

end FactFormula
