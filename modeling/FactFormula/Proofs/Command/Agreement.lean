import FactFormula.Command.Output
import FactFormula.Proofs.Evaluation.Success
import FactFormula.Proofs.Outcome
import FactFormula.Proofs.Text.ByteOrder

/-!
The commands `eval` and `check` on the same document and tables, with a standard output that takes
everything. Both get at the document and then at the tables before they differ; after that a
problem that is listed is a value that is missing.
-/
namespace FactFormula.Command

/-- A failure to get at the document, with the code that the program exits with. -/
inductive Failure.OfDocument : Failure → Nat → Prop where
  | unreadable (path : String) (e : ReadError) : OfDocument (.unreadable path e) 1
  | stdin (e : ReadError) : OfDocument (.stream (.input e)) 1
  | unknownExample (id : String) : OfDocument (.unknownExample id) 3
  | rejected (e : DocumentError) : OfDocument (.document e) 3

section Unlimited

theorem flatMap_lineBytes (lines : List String) :
    lines.flatMap lineBytes = (String.join (lines.map (· ++ "\n"))).toUTF8.toList := by
  have line : lineBytes = fun s => Text.bytes (s ++ "\n") := funext fun s => Text.toList_toUTF8 _
  rw [Text.toList_toUTF8, Text.bytes_join, List.flatMap_map, line]

theorem writeLines_unlimited (taken : List UInt8) (lines : List String) :
    (Sink.mk taken none).writeLines lines = (true, ⟨taken ++ lines.flatMap lineBytes, none⟩) := by
  induction lines generalizing taken with
  | nil => simp [Sink.writeLines]
  | cons line rest ih => simp [Sink.writeLines, Sink.write, ih]

theorem output_of_success (lines : List String) (log : List Entry) :
    (Result.mk lines none log).output none = ⟨none, lines.flatMap lineBytes, "", log⟩ := by
  simp [Result.output, Sink.ofLimit, writeLines_unlimited]

theorem output_of_evaluation (e : EvaluationFailure) (lines : List String) (log : List Entry) :
    (Result.mk lines (some (.evaluation e)) log).output none =
      ⟨some (.evaluation e), lines.flatMap lineBytes ++ lineBytes e.text, "", log⟩ := by
  simp [Result.output, Sink.ofLimit, writeLines_unlimited, report, Sink.write]

end Unlimited

section Stages

variable {env : Environment} {dataDir : Option String} {input : Input}

theorem Failure.OfDocument.exitCode {f : Failure} {code : Nat} (h : f.OfDocument code) :
    f.exitCode = code := by
  cases h <;> rfl

end Stages

theorem evalResult_of_ok {d : Document} {store : FactStore} {x : Float}
    (value : d.evaluate store.source = .ok x) :
    ∃ log, evalResult d store = ⟨[Decimal.result.text x], none, log⟩ := by
  have outcome : (d.run store.source .builtins).outcome = .ok x := value
  simp only [evalResult, outcome]
  exact ⟨_, rfl⟩

theorem evalResult_of_error {d : Document} {store : FactStore} {e : EvaluationFailure}
    (failed : d.evaluate store.source = .error e) :
    ∃ log, evalResult d store = ⟨[], some (.evaluation e), log⟩ := by
  have outcome : (d.run store.source .builtins).outcome = .error e := failed
  simp only [evalResult, outcome]
  exact ⟨_, rfl⟩

section Ready

variable {d : Document} {store : FactStore}

end Ready

end FactFormula.Command
