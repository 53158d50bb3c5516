import FactFormula.Proofs.Facts.Duplicates

/-!
The loading of a directory, which reports the first failure there is: of the files the first that
cannot be read, then of the tables the first that is malformed, and then the first duplicate.
-/
namespace FactFormula
open Json

namespace TableName

/-- The place of a table among the three. -/
def rank : TableName → Nat
  | .securities => 0
  | .attributes => 1
  | .facts => 2

/-- The path of the file of a table. -/
def path (dir : String) (t : TableName) : String := joinPath dir t.fileName

def Row : TableName → Type
  | .securities => Security
  | .attributes => Attribute
  | .facts => Fact

def rowFormat : (t : TableName) → Format t.Row
  | .securities => Security.format
  | .attributes => Attribute.format
  | .facts => Fact.format

/-- What the text of a table is read as. -/
def rowsOfText (t : TableName) (text : String) : Except Json.Error (List t.Row) :=
  (Format.list t.rowFormat).ofText text

end TableName

/-- The failure of a directory, which is the first of those that apply. -/
inductive FirstFailure (files : Files) (dir : String) : StoreError → Prop where
  /-- No earlier file is unreadable; some may be malformed. -/
  | unreadable {table : TableName} {e : ReadError}
      (earlier : ∀ u : TableName, u.rank < table.rank →
        ∃ text, files.readText (u.path dir) = .ok text)
      (failed : files.readText (table.path dir) = .error e) :
      FirstFailure files dir (.unreadable (table.path dir) e)
  /-- No earlier table is malformed; some may have duplicates. -/
  | malformed {texts : TableName → String} {table : TableName} {e : Json.Error}
      (read : ∀ u : TableName, files.readText (u.path dir) = .ok (texts u))
      (earlier : ∀ u : TableName, u.rank < table.rank → ∃ rows, u.rowsOfText (texts u) = .ok rows)
      (refused : table.rowsOfText (texts table) = .error e) :
      FirstFailure files dir (.malformed table e)
  | duplicate {texts : TableName → String} {rows : (u : TableName) → List u.Row}
      {e : DuplicateError} (read : ∀ u : TableName, files.readText (u.path dir) = .ok (texts u))
      (decoded : ∀ u : TableName, u.rowsOfText (texts u) = .ok (rows u))
      (first : Tables.FirstDuplicate ⟨rows .securities, rows .attributes, rows .facts⟩ e) :
      FirstFailure files dir (.duplicate e)

section InTurn

variable {ε β : Type} {α : TableName → Type}

/-- What is done with each of the three tables in turn, and then with all of them. -/
def inTurn (step : (t : TableName) → Except ε (α t))
    (next : α .securities → α .attributes → α .facts → Except ε β) : Except ε β := do
  let s ← step .securities
  let a ← step .attributes
  let f ← step .facts
  next s a f

/-- The first table that fails is the failure of all; without one it is what follows that fails. -/
theorem inTurn_eq_error_iff (step : (t : TableName) → Except ε (α t))
    (next : α .securities → α .attributes → α .facts → Except ε β) (e : ε) :
    inTurn step next = .error e ↔
      (∃ t, (∀ u : TableName, u.rank < t.rank → ∃ a, step u = .ok a) ∧ step t = .error e) ∨
      ∃ all : (t : TableName) → α t, (∀ t, step t = .ok (all t)) ∧
        next (all .securities) (all .attributes) (all .facts) = .error e := by
  simp only [inTurn, bind_eq_error_iff]
  constructor
  · rintro (failed | ⟨s, hs, failed | ⟨a, ha, failed | ⟨f, hf, failed⟩⟩⟩)
    · exact .inl ⟨.securities, fun u before => absurd before (Nat.not_lt_zero _), failed⟩
    · refine .inl ⟨.attributes, fun u before => ?_, failed⟩
      cases u with
      | securities => exact ⟨s, hs⟩
      | attributes | facts => exact absurd before (by decide)
    · refine .inl ⟨.facts, fun u before => ?_, failed⟩
      cases u with
      | securities => exact ⟨s, hs⟩
      | attributes => exact ⟨a, ha⟩
      | facts => exact absurd before (by decide)
    · let all : (t : TableName) → α t
        | .securities => s
        | .attributes => a
        | .facts => f
      refine .inr ⟨all, fun t => ?_, failed⟩
      cases t with
      | securities => exact hs
      | attributes => exact ha
      | facts => exact hf
  · rintro (⟨t, earlier, failed⟩ | ⟨all, done, failed⟩)
    · cases t with
      | securities => exact .inl failed
      | attributes =>
        obtain ⟨s, hs⟩ := earlier .securities (by decide)
        exact .inr ⟨s, hs, .inl failed⟩
      | facts =>
        obtain ⟨s, hs⟩ := earlier .securities (by decide)
        obtain ⟨a, ha⟩ := earlier .attributes (by decide)
        exact .inr ⟨s, hs, .inr ⟨a, ha, .inl failed⟩⟩
    · exact .inr ⟨_, done .securities, .inr ⟨_, done .attributes, .inr ⟨_, done .facts, failed⟩⟩⟩

end InTurn

namespace FactStore

variable (files : Files) (dir : String)

theorem readFile_eq_ok_iff (t : TableName) (text : String) :
    readFile files dir t = .ok text ↔ files.readText (t.path dir) = .ok text :=
  mapError_eq_ok_iff ..

theorem readFile_eq_error_iff (t : TableName) (e : StoreError) :
    readFile files dir t = .error e ↔
      ∃ cause, files.readText (t.path dir) = .error cause ∧ .unreadable (t.path dir) cause = e :=
  mapError_eq_error_iff ..

theorem load_eq_inTurn : load files dir = inTurn (readFile files dir) ofTexts := rfl

theorem readTable_eq_ok_iff (t : TableName) (text : String) (rows : List t.Row) :
    readTable t.rowFormat t text = .ok rows ↔ t.rowsOfText text = .ok rows :=
  mapError_eq_ok_iff ..

theorem readTable_eq_error_iff (t : TableName) (text : String) (e : StoreError) :
    readTable t.rowFormat t text = .error e ↔
      ∃ cause, t.rowsOfText text = .error cause ∧ .malformed t cause = e :=
  mapError_eq_error_iff ..

theorem ofTexts_eq_error_iff (texts : TableName → String) (e : StoreError) :
    ofTexts (texts .securities) (texts .attributes) (texts .facts) = .error e ↔
      (∃ t, (∀ u : TableName, u.rank < t.rank → ∃ rows, u.rowsOfText (texts u) = .ok rows) ∧
        ∃ cause, t.rowsOfText (texts t) = .error cause ∧ .malformed t cause = e) ∨
      ∃ rows : (t : TableName) → List t.Row,
        (∀ t : TableName, t.rowsOfText (texts t) = .ok (rows t)) ∧
        ∃ d, Tables.FirstDuplicate ⟨rows .securities, rows .attributes, rows .facts⟩ d ∧
          .duplicate d = e := by
  have turns := inTurn_eq_error_iff (fun t => readTable t.rowFormat t (texts t)) ofRows e
  simp only [readTable_eq_ok_iff, readTable_eq_error_iff] at turns
  refine turns.trans (or_congr Iff.rfl (exists_congr fun rows => and_congr_right fun _ => ?_))
  exact Tables.store_eq_error_iff ⟨rows .securities, rows .attributes, rows .facts⟩ e

theorem load_eq_error_iff (e : StoreError) :
    load files dir = .error e ↔ FirstFailure files dir e := by
  rw [load_eq_inTurn, inTurn_eq_error_iff]
  simp only [readFile_eq_ok_iff, readFile_eq_error_iff, ofTexts_eq_error_iff]
  constructor
  · rintro (⟨t, earlier, cause, failed, rfl⟩ |
      ⟨texts, read, ⟨t, earlier, cause, refused, rfl⟩ | ⟨rows, decoded, d, first, rfl⟩⟩)
    · exact .unreadable earlier failed
    · exact .malformed read earlier refused
    · exact .duplicate read decoded first
  · rintro (⟨earlier, failed⟩ | ⟨read, earlier, refused⟩ | ⟨read, decoded, first⟩)
    · exact .inl ⟨_, earlier, _, failed, rfl⟩
    · exact .inr ⟨_, read, .inl ⟨_, earlier, _, refused, rfl⟩⟩
    · exact .inr ⟨_, read, .inr ⟨_, decoded, _, first, rfl⟩⟩

/-- A directory is refused for the first failure that applies to it, and loaded if none does. -/
theorem load_reports_first :
    (∀ e, load files dir = .error e ↔ FirstFailure files dir e) ∧
      ((∃ store, load files dir = .ok store) ↔ ∀ e, ¬ FirstFailure files dir e) := by
  refine ⟨load_eq_error_iff files dir, ?_⟩
  simp only [← load_eq_error_iff]
  cases load files dir with
  | ok store => simp
  | error e => simp

end FactStore

end FactFormula
