import FactFormula.Proofs.Command.Agreement

/-!
Commands whose standard output breaks off. What gets through is the beginning of what would have
been written, wherever the writes are cut. A command that is cut off says so and does not succeed;
the message of an evaluation that failed is repeated whole on standard error.
-/
namespace FactFormula.Command

namespace Sink

/-- Hands over pieces one after the other, up to the first that is not taken whole. -/
def writePieces (s : Sink) : List (List UInt8) → Bool × Sink
  | [] => (true, s)
  | piece :: rest =>
    match s.write piece with
    | (true, s) => s.writePieces rest
    | (false, s) => (false, s)

theorem write_nil (s : Sink) : s.write [] = (true, s) := by
  obtain ⟨taken, room⟩ := s
  cases room <;> simp [write]

/-- One write does what two do of which the second is tried only if the first was taken whole. -/
theorem write_append (s : Sink) (first second : List UInt8) :
    s.write (first ++ second) =
      match s.write first with
      | (true, s) => s.write second
      | (false, s) => (false, s) := by
  obtain ⟨taken, room⟩ := s
  cases room with
  | none => simp [write]
  | some n =>
    by_cases fits : first.length ≤ n
    · have rest : (first ++ second).take n = first ++ second.take (n - first.length) := by
        rw [List.take_append, List.take_of_length_le fits]
      have all : first.take n = first := List.take_of_length_le fits
      have length : first.length + second.length ≤ n ↔ second.length ≤ n - first.length := by
        omega
      simp [write, fits, rest, all, length, Nat.sub_add_eq]
    · have cut : (first ++ second).take n = first.take n :=
        List.take_append_of_le_length (Nat.le_of_not_le fits)
      have exceeds : ¬ first.length + second.length ≤ n := by omega
      have none : n - (first.length + second.length) = n - first.length := by omega
      simp [write, fits, cut, exceeds, none]

/-- It does not matter into which pieces the bytes are cut. -/
theorem writePieces_eq_write (s : Sink) (pieces : List (List UInt8)) :
    s.writePieces pieces = s.write pieces.flatten := by
  induction pieces generalizing s with
  | nil => exact s.write_nil.symm
  | cons piece rest ih => simp only [writePieces, List.flatten_cons, write_append, ih]

theorem writeLines_eq_write (s : Sink) (lines : List String) :
    s.writeLines lines = s.write (lines.flatMap lineBytes) := by
  rw [List.flatMap_def, ← writePieces_eq_write]
  induction lines generalizing s with
  | nil => rfl
  | cons line rest ih =>
    obtain ⟨whole, t, written⟩ : ∃ whole t, s.write (lineBytes line) = (whole, t) := ⟨_, _, rfl⟩
    cases whole <;> simp only [writeLines, List.map_cons, writePieces, written, ih]

theorem write_ofLimit_of_fits {limit : Option Nat} {bytes : List UInt8}
    (fits : ∀ n ∈ limit, bytes.length ≤ n) :
    (ofLimit limit).write bytes = (true, ⟨bytes, limit.map (· - bytes.length)⟩) := by
  cases limit with
  | none => rfl
  | some n =>
    have fits : bytes.length ≤ n := fits n rfl
    simp [ofLimit, write, fits, List.take_of_length_le fits]

theorem write_ofLimit_some (n : Nat) (bytes : List UInt8) :
    (ofLimit (some n)).write bytes =
      (decide (bytes.length ≤ n), ⟨bytes.take n, some (n - bytes.length)⟩) := rfl

theorem writePieces_ofLimit (n : Nat) {pieces : List (List UInt8)} {bytes : List UInt8}
    (cut : pieces.flatten = bytes) :
    (ofLimit (some n)).writePieces pieces =
      (decide (bytes.length ≤ n), ⟨bytes.take n, some (n - bytes.length)⟩) := by
  rw [writePieces_eq_write, cut, write_ofLimit_some]

end Sink

/-- What is left of a command with the output `full` where standard output takes `n` bytes. -/
structure Output.CutAt (n : Nat) (full cut : Output) : Prop where
  stdout : cut.stdout = full.stdout.take n
  /-- The same gets through in whatever pieces it is written. -/
  pieces : ∀ pieces : List (List UInt8), pieces.flatten = full.stdout →
    (Sink.ofLimit (some n)).writePieces pieces =
      (decide (full.stdout.length ≤ n), ⟨cut.stdout, some (n - full.stdout.length)⟩)
  whole : full.stdout.length ≤ n → cut = full
  evaluation : n < full.stdout.length → ∀ e, full.failure = some (.evaluation e) →
    cut.exitCode = 4 ∧ cut.stderr = e.text ++ "\n" ∧ full.stdout = lineBytes e.text
  broken : n < full.stdout.length → (∀ e, full.failure ≠ some (.evaluation e)) →
    cut.exitCode = 1 ∧ cut.stderr = "error: broken pipe\n"

namespace Result

/-- A failed evaluation has nothing to write but its message. -/
def TellsOnce (r : Result) : Prop := ∀ e, r.failure = some (.evaluation e) → r.lines = []

variable {n : Nat} {lines : List String} {log : List Entry}

theorem output_of_broken (exceeds : n < (lines.flatMap lineBytes).length)
    (failure : Option Failure) :
    (Result.mk lines failure log).output (some n) = ⟨some (.stream .brokenPipe),
      (lines.flatMap lineBytes).take n, "error: broken pipe\n", log⟩ := by
  have broken : ¬ (lines.flatMap lineBytes).length ≤ n := Nat.not_le.mpr exceeds
  rw [output, Sink.writeLines_eq_write, Sink.write_ofLimit_some, decide_eq_false broken]
  rfl

/-- If there is room for all lines it does not matter how much there is. -/
theorem output_of_fitting {limit : Option Nat}
    (fits : ∀ n ∈ limit, (lines.flatMap lineBytes).length ≤ n) {failure : Option Failure}
    (diagnostic : ∀ e, failure ≠ some (.evaluation e)) (log : List Entry) :
    (Result.mk lines failure log).output limit = ⟨failure, lines.flatMap lineBytes,
      (failure.map fun f => "error: " ++ f.text ++ "\n").getD "", log⟩ := by
  rw [output, Sink.writeLines_eq_write, Sink.write_ofLimit_of_fits fits]
  cases failure with
  | none => rfl
  | some f =>
    cases f with
    | evaluation e => exact absurd rfl (diagnostic e)
    | unreadable | stream | store | document | unknownExample | problems => rfl

/-- The message of a failed evaluation goes to standard output as far as there is room for it. -/
theorem output_of_failed_evaluation (e : EvaluationFailure) :
    (Result.mk [] (some (.evaluation e)) log).output (some n) =
      ⟨some (.evaluation e), (lineBytes e.text).take n,
        if (lineBytes e.text).length ≤ n then "" else e.text ++ "\n", log⟩ := by
  have room : (Sink.mk [] (some n)).write (lineBytes e.text) =
      (decide ((lineBytes e.text).length ≤ n),
        ⟨(lineBytes e.text).take n, some (n - (lineBytes e.text).length)⟩) := rfl
  by_cases fits : (lineBytes e.text).length ≤ n <;>
    simp [output, Sink.writeLines, Sink.ofLimit, report, room, fits]

theorem cutAt_of_evaluation (e : EvaluationFailure) (n : Nat) (log : List Entry) :
    Output.CutAt n ((Result.mk [] (some (.evaluation e)) log).output none)
      ((Result.mk [] (some (.evaluation e)) log).output (some n)) := by
  rw [output_of_evaluation, output_of_failed_evaluation, List.flatMap_nil, List.nil_append]
  refine ⟨rfl, fun _ cut => Sink.writePieces_ofLimit n cut, ?whole, ?evaluation, ?broken⟩
  case whole =>
    intro fits
    rw [if_pos fits, List.take_of_length_le fits]
  case evaluation =>
    intro exceeds e' failure
    cases failure
    exact ⟨rfl, if_neg (Nat.not_le.mpr exceeds), rfl⟩
  case broken =>
    intro exceeds other
    exact absurd rfl (other e)

theorem cutAt_of_no_evaluation {failure : Option Failure}
    (diagnostic : ∀ e, failure ≠ some (.evaluation e)) (n : Nat) (lines : List String)
    (log : List Entry) :
    Output.CutAt n ((Result.mk lines failure log).output none)
      ((Result.mk lines failure log).output (some n)) := by
  have unlimited : ∀ n ∈ (none : Option Nat), (lines.flatMap lineBytes).length ≤ n := nofun
  rw [output_of_fitting unlimited diagnostic]
  by_cases fits : (lines.flatMap lineBytes).length ≤ n
  · have all : (lines.flatMap lineBytes).take n = lines.flatMap lineBytes :=
      List.take_of_length_le fits
    have within : ¬ n < (lines.flatMap lineBytes).length := Nat.not_lt.mpr fits
    have limited : ∀ m ∈ some n, (lines.flatMap lineBytes).length ≤ m := by simpa using fits
    rw [output_of_fitting limited diagnostic]
    refine ⟨all.symm, fun _ cut => ?_, fun _ => rfl, fun exceeds => absurd exceeds within,
      fun exceeds => absurd exceeds within⟩
    rw [Sink.writePieces_ofLimit n cut, all]
  · rw [output_of_broken (Nat.lt_of_not_le fits)]
    exact ⟨rfl, fun _ cut => Sink.writePieces_ofLimit n cut, fun whole => absurd whole fits,
      fun _ e failed => absurd failed (diagnostic e), fun _ _ => ⟨rfl, rfl⟩⟩

theorem cutAt_output {r : Result} (once : r.TellsOnce) (n : Nat) :
    Output.CutAt n (r.output none) (r.output (some n)) := by
  obtain ⟨lines, failure, log⟩ := r
  by_cases h : ∃ e, failure = some (.evaluation e)
  · obtain ⟨e, rfl⟩ := h
    obtain rfl : lines = [] := once e rfl
    exact cutAt_of_evaluation e n log
  · exact cutAt_of_no_evaluation (fun e failed => h ⟨e, failed⟩) n lines log

section Commands

variable {env : Environment}

theorem tellsOnce_failed (f : Failure) : (failed f).TellsOnce := fun _ _ => rfl

theorem tellsOnce_of_success (lines : List String) (log : List Entry) :
    (Result.mk lines none log).TellsOnce := nofun

theorem tellsOnce_onDocument {input : Input} {command : Document → Result}
    (h : ∀ d, (command d).TellsOnce) : (onDocument env input command).TellsOnce := by
  unfold onDocument
  split
  · exact tellsOnce_failed _
  · exact h _

theorem tellsOnce_onTables {dataDir : Option String} {input : Input}
    {command : Document → FactStore → Result} (h : ∀ d store, (command d store).TellsOnce) :
    (onTables env dataDir input command).TellsOnce := by
  refine tellsOnce_onDocument fun d => ?_
  split
  · exact tellsOnce_failed _
  · exact h d _

theorem tellsOnce_evalResult (d : Document) (store : FactStore) :
    (evalResult d store).TellsOnce := by
  cases value : d.evaluate store.source with
  | ok x =>
    obtain ⟨log, result⟩ := evalResult_of_ok value
    exact result ▸ tellsOnce_of_success _ log
  | error e =>
    obtain ⟨log, result⟩ := evalResult_of_error value
    exact result ▸ fun _ _ => rfl

theorem tellsOnce_checkResult (d : Document) (store : FactStore) :
    (checkResult d store).TellsOnce := by
  unfold checkResult
  split
  · exact tellsOnce_of_success _ _
  · exact nofun

/-- Only `eval` ends with an evaluation failure, and then it has written no value. -/
theorem tellsOnce_result (i : Invocation) : (i.result env).TellsOnce := by
  unfold Invocation.result
  split
  · exact tellsOnce_onTables tellsOnce_evalResult
  · exact tellsOnce_onTables tellsOnce_checkResult
  · exact tellsOnce_onDocument fun d => tellsOnce_of_success _ _
  · exact tellsOnce_of_success _ _

end Commands

end Result

/-- A command whose standard output takes `n` bytes leaves the first `n` bytes of its output there,
and it is as it would have been if that is all. Otherwise it does not succeed, and its failure is
told on standard error. -/
theorem output_cut_at (env : Environment) (i : Invocation) (n : Nat) :
    Output.CutAt n (i.output env none) (i.output env (some n)) :=
  Result.cutAt_output (Result.tellsOnce_result i) n

end FactFormula.Command
