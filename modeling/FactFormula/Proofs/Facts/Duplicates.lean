import FactFormula.Proofs.Facts.Tables

/-!
Which of several rows that clash is reported. It is the first row to clash with an earlier one; of
its parts the id is named before the name, and of the tables the securities come before the
attributes and these before the facts.
-/
namespace FactFormula

variable {ε δ ρ ρ' κ : Type}

/-- Row `k` has the key of an earlier row. -/
def Repeats (key : ρ → κ) (rows : List ρ) (k : Nat) : Prop :=
  ∃ row, rows[k]? = some row ∧ key row ∈ (rows.take k).map key

/-- Row `k` has the id or the name of an earlier row. -/
def Clashes (id : ρ → UInt32) (name : ρ → String) (rows : List ρ) (k : Nat) : Prop :=
  Repeats id rows k ∨ Repeats name rows k

/-- What is told of the first row that clashes with an earlier one: its id if that is used before,
and else its name. -/
inductive FirstClash (id : ρ → UInt32) (name : ρ → String) (ofId : UInt32 → ε)
    (ofName : String → ε) (rows : List ρ) : ε → Prop where
  | id {k : Nat} {row : ρ} (here : rows[k]? = some row)
      (first : ∀ j < k, ¬ Clashes id name rows j) (used : Repeats id rows k) :
      FirstClash id name ofId ofName rows (ofId (id row))
  | name {k : Nat} {row : ρ} (here : rows[k]? = some row)
      (first : ∀ j < k, ¬ Clashes id name rows j) (fresh : ¬ Repeats id rows k)
      (used : Repeats name rows k) : FirstClash id name ofId ofName rows (ofName (name row))

/-- What is told of tables that are not distinct: the first row of the first of them that is at
fault. -/
inductive Tables.FirstDuplicate (t : Tables) : DuplicateError → Prop where
  | security {e : DuplicateError}
      (first : FirstClash Security.id Security.symbol .securityId .securitySymbol t.securities e) :
      FirstDuplicate t e
  | attribute {e : DuplicateError}
      (securities : ∀ k, ¬ Clashes Security.id Security.symbol t.securities k)
      (first : FirstClash Attribute.id Attribute.name .attributeId .attributeName t.attributes e) :
      FirstDuplicate t e
  | fact {k : Nat} {f : Fact}
      (securities : ∀ k, ¬ Clashes Security.id Security.symbol t.securities k)
      (attributes : ∀ k, ¬ Clashes Attribute.id Attribute.name t.attributes k)
      (here : t.facts[k]? = some f) (first : ∀ j < k, ¬ Repeats Fact.key t.facts j)
      (used : Repeats Fact.key t.facts k) :
      FirstDuplicate t (.fact f.securityId f.attributeId)

section Repeats

variable {key : ρ → κ} {rows : List ρ} {row : ρ} {k : Nat}

theorem repeats_iff (here : rows[k]? = some row) :
    Repeats key rows k ↔ key row ∈ (rows.take k).map key := by
  simp [Repeats, here]

theorem Repeats.lt_length (h : Repeats key rows k) : k < rows.length := by
  obtain ⟨row, here, -⟩ := h
  exact (List.getElem?_eq_some_iff.mp here).1

theorem nodup_take_iff : ((rows.take k).map key).Nodup ↔ ∀ j < k, ¬ Repeats key rows j := by
  induction k with
  | zero => simp
  | succ k ih =>
    rw [Nat.forall_lt_succ_right, ← ih, List.take_add_one]
    cases here : rows[k]? with
    | none => simp [Repeats, here]
    | some row =>
      rw [Option.toList_some, nodup_keys_append_singleton, repeats_iff here, and_comm]

theorem nodup_iff_forall_not_repeats : (rows.map key).Nodup ↔ ∀ k, ¬ Repeats key rows k := by
  rw [← List.take_length (l := rows), nodup_take_iff, List.take_length]
  constructor
  · intro h k used
    exact h k used.lt_length used
  · intro h k _
    exact h k

theorem repeats_map (f : ρ → ρ') (key : ρ' → κ) :
    Repeats key (rows.map f) k ↔ Repeats (fun r => key (f r)) rows k := by
  simp [Repeats, List.map_take, Function.comp_def]

end Repeats

section Clashes

variable {id : ρ → UInt32} {name : ρ → String} {rows : List ρ} {k : Nat}

theorem forall_not_clashes_iff {p : Nat → Prop} :
    (∀ j, p j → ¬ Clashes id name rows j) ↔
      (∀ j, p j → ¬ Repeats id rows j) ∧ ∀ j, p j → ¬ Repeats name rows j := by
  simp only [Clashes, not_or, imp_and, forall_and]

theorem clashes_map (f : ρ' → ρ) (rows : List ρ') :
    Clashes id name (rows.map f) k ↔ Clashes (fun r => id (f r)) (fun r => name (f r)) rows k := by
  simp only [Clashes, repeats_map]

/-- A row of ids and names and the row that it was taken from are told of alike. -/
theorem firstClash_map {ofId : UInt32 → ε} {ofName : String → ε} (f : ρ' → ρ) (rows : List ρ')
    (e : ε) : FirstClash id name ofId ofName (rows.map f) e ↔
      FirstClash (fun r => id (f r)) (fun r => name (f r)) ofId ofName rows e := by
  constructor
  · intro h
    cases h with
    | id here first used =>
      rw [List.getElem?_map, Option.map_eq_some_iff] at here
      obtain ⟨row, here, rfl⟩ := here
      simp only [clashes_map, repeats_map] at first used
      exact .id here first used
    | name here first fresh used =>
      rw [List.getElem?_map, Option.map_eq_some_iff] at here
      obtain ⟨row, here, rfl⟩ := here
      simp only [clashes_map, repeats_map] at first fresh used
      exact .name here first fresh used
  · intro h
    cases h with
    | @id k row here first used =>
      have mapped : (rows.map f)[k]? = some (f row) := by simp [here]
      simp only [← clashes_map, ← repeats_map] at first used
      exact .id mapped first used
    | @name k row here first fresh used =>
      have mapped : (rows.map f)[k]? = some (f row) := by simp [here]
      simp only [← clashes_map, ← repeats_map] at first fresh used
      exact .name mapped first fresh used

theorem firstClash_comp {ofId : UInt32 → ε} {ofName : String → ε} (f : ε → δ) (e : δ) :
    FirstClash id name (f ∘ ofId) (f ∘ ofName) rows e ↔
      ∃ c, FirstClash id name ofId ofName rows c ∧ f c = e := by
  constructor
  · intro h
    cases h with
    | id here first used => exact ⟨_, .id here first used, rfl⟩
    | name here first fresh used => exact ⟨_, .name here first fresh used, rfl⟩
  · rintro ⟨c, h, rfl⟩
    cases h with
    | id here first used => exact .id here first used
    | name here first fresh used => exact .name here first fresh used

end Clashes

namespace NameIndex

variable {index : NameIndex} {rows : List (UInt32 × String)} {row : UInt32 × String} {c : Clash}

/-- Why a row cannot follow others. -/
inductive Refused (rows : List (UInt32 × String)) (row : UInt32 × String) : Clash → Prop where
  | id (used : row.1 ∈ rows.map Prod.fst) : Refused rows row (.id row.1)
  | name (fresh : row.1 ∉ rows.map Prod.fst) (used : row.2 ∈ rows.map Prod.snd) :
      Refused rows row (.name row.2)

theorem Holds.insert_eq_error_iff (h : index.Holds rows) :
    index.insert row.1 row.2 = .error c ↔ Refused rows row c := by
  unfold NameIndex.insert
  simp only [h.ids, h.contains_name_iff]
  split
  next used =>
    constructor
    · rintro ⟨⟩
      exact .id used
    · rintro (_ | ⟨fresh, _⟩)
      · rfl
      · exact absurd used fresh
  next fresh =>
    split
    next used =>
      constructor
      · rintro ⟨⟩
        exact .name fresh used
      · rintro (used | _)
        · exact absurd used fresh
        · rfl
    next unused =>
      constructor
      · rintro ⟨⟩
      · rintro (used | ⟨_, used⟩)
        · exact absurd used fresh
        · exact absurd used unused

theorem distinct_take_iff {k : Nat} :
    Distinct (rows.take k) ↔ ∀ j < k, ¬ Clashes Prod.fst Prod.snd rows j := by
  rw [distinct_iff, nodup_take_iff, nodup_take_iff, forall_not_clashes_iff]

theorem distinct_iff_forall_not_clashes :
    Distinct rows ↔ ∀ k, ¬ Clashes Prod.fst Prod.snd rows k := by
  rw [distinct_iff, nodup_iff_forall_not_repeats, nodup_iff_forall_not_repeats]
  simp only [Clashes, not_or, forall_and]

theorem ofRows_eq_error_iff :
    ofRows rows = .error c ↔ FirstClash Prod.fst Prod.snd Clash.id Clash.name rows c := by
  refine (loopInvariant.run_eq_error_iff Holds.insert_eq_error_iff holds_empty).trans ?_
  constructor
  · rintro ⟨k, row, here, distinct, refused⟩
    rw [distinct_take_iff] at distinct
    cases refused with
    | id used => exact .id here distinct ((repeats_iff here).mpr used)
    | name fresh used =>
      exact .name here distinct (mt (repeats_iff here).mp fresh) ((repeats_iff here).mpr used)
  · intro first
    cases first with
    | id here first used =>
      exact ⟨_, _, here, distinct_take_iff.mpr first, .id ((repeats_iff here).mp used)⟩
    | name here first fresh used =>
      exact ⟨_, _, here, distinct_take_iff.mpr first,
        .name (mt (repeats_iff here).mpr fresh) ((repeats_iff here).mp used)⟩

section Rows

variable (id : ρ → UInt32) (name : ρ → String) (rows : List ρ) (tell : Clash → δ)

theorem mapError_ofRows_eq_error_iff (e : δ) :
    (ofRows (rows.map fun r => (id r, name r))).mapError tell = .error e ↔
      FirstClash id name (tell ∘ .id) (tell ∘ .name) rows e := by
  rw [mapError_eq_error_iff, firstClash_comp]
  simp only [ofRows_eq_error_iff, firstClash_map]

theorem exists_mapError_ofRows_iff :
    (∃ index, (ofRows (rows.map fun r => (id r, name r))).mapError tell = .ok index) ↔
      ∀ k, ¬ Clashes id name rows k := by
  simp only [mapError_eq_ok_iff, exists_ofRows_iff, distinct_iff_forall_not_clashes, clashes_map]

end Rows

end NameIndex

namespace FactIndex

variable {index : FactIndex} {rows : List Fact} {f : Fact} {key : FactKey}

theorem Holds.insertFact_eq_error_iff (h : index.Holds rows) :
    index.insertFact f = .error key ↔ f.key ∈ rows.map Fact.key ∧ f.key = key := by
  rw [← h.contains_key_iff]
  change (if index.contains f.key = true then .error f.key
    else .ok (index.insert f.key f.value)) = Except.error key ↔ _
  split <;> simp [*]

theorem ofRows_eq_error_iff :
    ofRows rows = .error key ↔ ∃ k f, rows[k]? = some f ∧
      (∀ j < k, ¬ Repeats Fact.key rows j) ∧ Repeats Fact.key rows k ∧ f.key = key := by
  refine (loopInvariant.run_eq_error_iff Holds.insertFact_eq_error_iff holds_empty).trans ?_
  refine exists_congr fun k => exists_congr fun f => and_congr_right fun here => ?_
  rw [nodup_take_iff, repeats_iff here]

end FactIndex

namespace Tables

/-- Tables are refused for the first duplicate in them. -/
theorem ofTables_eq_error_iff (t : Tables) (e : DuplicateError) :
    FactStore.ofTables t.securities t.attributes t.facts = .error e ↔ t.FirstDuplicate e := by
  have securities := NameIndex.exists_mapError_ofRows_iff Security.id Security.symbol
    t.securities FactStore.securityClash
  have attributes := NameIndex.exists_mapError_ofRows_iff Attribute.id Attribute.name
    t.attributes FactStore.attributeClash
  simp only [FactStore.ofTables, bind_eq_error_iff, NameIndex.mapError_ofRows_eq_error_iff,
    pure_eq_ok]
  constructor
  · rintro (first | ⟨s, hs, first | ⟨a, ha, fact | ⟨f, -, done⟩⟩⟩)
    · exact .security first
    · exact .attribute (securities.mp ⟨s, hs⟩) first
    · obtain ⟨key, duplicate, rfl⟩ := (mapError_eq_error_iff ..).mp fact
      obtain ⟨k, f, here, first, used, rfl⟩ := FactIndex.ofRows_eq_error_iff.mp duplicate
      exact .fact (securities.mp ⟨s, hs⟩) (attributes.mp ⟨a, ha⟩) here first used
    · cases done
  · rintro (first | ⟨none, first⟩ | ⟨none, none', here, first, used⟩)
    · exact .inl first
    · obtain ⟨s, hs⟩ := securities.mpr none
      exact .inr ⟨s, hs, .inl first⟩
    · obtain ⟨s, hs⟩ := securities.mpr none
      obtain ⟨a, ha⟩ := attributes.mpr none'
      refine .inr ⟨s, hs, .inr ⟨a, ha, .inl ?_⟩⟩
      have duplicate := FactIndex.ofRows_eq_error_iff.mpr ⟨_, _, here, first, used, rfl⟩
      exact (mapError_eq_error_iff ..).mpr ⟨_, duplicate, rfl⟩

theorem store_eq_error_iff (t : Tables) (e : StoreError) :
    t.store = .error e ↔ ∃ d, t.FirstDuplicate d ∧ .duplicate d = e := by
  rw [Tables.store, FactStore.ofRows, mapError_eq_error_iff]
  simp only [ofTables_eq_error_iff]

/-- The second row repeats a symbol, before the third repeats an id. -/
example : (Tables.mk [⟨1, "A"⟩, ⟨2, "A"⟩, ⟨1, "B"⟩] [] []).store =
    .error (.duplicate (.securitySymbol "A")) := rfl

/-- Of a row that repeats both, the id is told. -/
example : (Tables.mk [⟨1, "A"⟩, ⟨1, "A"⟩] [] []).store =
    .error (.duplicate (.securityId 1)) := rfl

end Tables

end FactFormula
