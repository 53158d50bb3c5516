import Mathlib.Data.List.Forall2
import FactFormula.Proofs.Evaluation.Cause

/-!
What the log of an evaluation tells. The messages for debugging are the causes of its failure, and
there are some exactly when it fails. The traces are the operations that were carried out.
-/
namespace FactFormula

def Event.isAt (level : Level) (e : Event) : Bool := e.message.level == level

variable {source : FactSource} {ops : OperatorRegistry} {securityId : SecurityId}

/-- An operation whose operands have values and whose operator is registered is carried out. -/
inductive Operand.CarriedOut (source : FactSource) (ops : OperatorRegistry)
    (securityId : SecurityId) : Operand → Event → Prop where
  | node {op : String} {a b : Operand} {f : Operator} {x y : Float}
      (left : a.HasValue source ops securityId x) (right : b.HasValue source ops securityId y)
      (registered : ops.get? op = some f) :
      CarriedOut source ops securityId (.node op a b)
        (.nodeEvaluated op x y ((f.apply x y).filter Float.isFinite))

/-- An operation with its values, as the log has it. -/
def Expression.Finished (source : FactSource) (ops : OperatorRegistry) (securityId : SecurityId)
    (e : Expression) (event : Event) : Prop :=
  ∃ x y z, e.a.HasValue source ops securityId x ∧ e.b.HasValue source ops securityId y ∧
    e.toOperand.HasValue source ops securityId z ∧ z.isFinite = true ∧
    event = .nodeEvaluated e.op x y (some z)

section Operation

variable {op : String} {f : Operator} (x y : Float)

theorem applyOperator_of_unregistered (h : ops.get? op = none) :
    applyOperator ops op x y = (none, [.unknownOperator op]) := by
  simp [applyOperator, h]

/-- The trace comes last and is never left out. -/
theorem applyOperator_of_registered (h : ops.get? op = some f) {r : Option Float}
    (made : (f.apply x y).filter Float.isFinite = r) :
    applyOperator ops op x y =
      (r, (if r = none then [.noFiniteValue op x y] else []) ++ [.nodeEvaluated op x y r]) := by
  cases r <;> simp [applyOperator, h, made]

theorem filter_isFinite_eq_none_iff (r : Option Float) :
    r.filter Float.isFinite = none ↔ ∀ z, r = some z → z.isFinite = false := by
  simp [Option.filter_eq_none_iff]

theorem mem_debug_applyOperator (e : Event) :
    e ∈ (applyOperator ops op x y).2.filter (Event.isAt .debug) ↔
      (ops.get? op = none ∧ e = .unknownOperator op) ∨
        ∃ f, ops.get? op = some f ∧ (∀ z, f.apply x y = some z → z.isFinite = false) ∧
          e = .noFiniteValue op x y := by
  cases h : ops.get? op with
  | none => simp [applyOperator_of_unregistered x y h, Event.isAt, Event.message]
  | some f =>
    rw [applyOperator_of_registered x y h rfl]
    simp only [Option.some.injEq, exists_eq_left', reduceCtorEq, false_and, false_or,
      ← filter_isFinite_eq_none_iff]
    split
    next made => simp [made, Event.isAt, Event.message]
    next made => simp [made, Event.isAt, Event.message]

theorem mem_trace_applyOperator (e : Event) :
    e ∈ (applyOperator ops op x y).2.filter (Event.isAt .trace) ↔
      ∃ f, ops.get? op = some f ∧
        e = .nodeEvaluated op x y ((f.apply x y).filter Float.isFinite) := by
  cases h : ops.get? op with
  | none => simp [applyOperator_of_unregistered x y h, Event.isAt, Event.message]
  | some f =>
    rw [applyOperator_of_registered x y h rfl]
    split <;> simp [Event.isAt, Event.message]

theorem length_filter_applyOperator_le (level : Level) :
    ((applyOperator ops op x y).2.filter (Event.isAt level)).length ≤ 1 := by
  cases h : ops.get? op with
  | none =>
    rw [applyOperator_of_unregistered x y h]
    exact List.length_filter_le _ _
  | some f =>
    rw [applyOperator_of_registered x y h rfl]
    split <;> cases level <;> simp [Event.isAt, Event.message]

theorem mem_filter_combine (level : Level) (u v : Option Float) (e : Event) :
    e ∈ (combine ops op u v).2.filter (Event.isAt level) ↔
      ∃ x y, u = some x ∧ v = some y ∧
        e ∈ (applyOperator ops op x y).2.filter (Event.isAt level) := by
  cases u <;> cases v <;> simp [combine]

theorem length_filter_combine_le (level : Level) (u v : Option Float) :
    ((combine ops op u v).2.filter (Event.isAt level)).length ≤ 1 := by
  match u, v with
  | some x, some y => exact length_filter_applyOperator_le x y level
  | none, _ => simp [combine]
  | some _, none => simp [combine]

end Operation

namespace Operand

variable {o : Operand} {x : Float}

/-- One statement for all levels: what the attributes, the literals and the operations report. -/
theorem run_inPostorder {level : Level} {R : Operand → Event → Prop}
    (ofAttribute : ∀ name e,
      e ∈ (source.attributeRun securityId name).events.filter (Event.isAt level) ↔
        R (.attribute name) e)
    (ofLiteral : ∀ x e, ¬ R (.literal x) e)
    (ofNode : ∀ op a b e,
      e ∈ (combine ops op (Operand.run source ops securityId a).value
          (Operand.run source ops securityId b).value).2.filter (Event.isAt level) ↔
        R (.node op a b) e)
    (o : Operand) :
    o.InPostorder R ((o.run source ops securityId).events.filter (Event.isAt level)) := by
  -- An operation reports at most once at a level, and after all that its operands report.
  induction o with
  | «attribute» name =>
    refine inPostorder_leaf (by simp [at?]) ?_ (ofAttribute name)
    refine Nat.le_trans (List.length_filter_le _ _) ?_
    rw [run, attributeRun_events]
    split <;> simp
  | literal x => exact inPostorder_leaf (by simp [at?]) (by simp [run]) (by simp [run, ofLiteral])
  | node op a b iha ihb =>
    simp only [run, List.filter_append]
    exact inPostorder_node iha ihb (length_filter_combine_le _ _ _) (ofNode op a b)

theorem run_debug (o : Operand) :
    o.InPostorder (Cause source ops securityId)
      ((o.run source ops securityId).events.filter (Event.isAt .debug)) := by
  apply run_inPostorder
  · intro name e
    rw [attributeRun_events]
    constructor
    · intro reported
      split at reported
      next => simp at reported
      next error failed =>
        obtain rfl : e = _ := List.mem_singleton.mp (List.mem_of_mem_filter reported)
        exact .unresolved failed
    · intro cause
      cases cause with
      | unresolved failed => simp [failed, Event.isAt, Event.message]
  · intro x e cause
    cases cause
  · intro op a b e
    simp only [mem_filter_combine, run_value_eq_some_iff, mem_debug_applyOperator]
    constructor
    · rintro ⟨x, y, left, right, ⟨unregistered, rfl⟩ | ⟨f, registered, infinite, rfl⟩⟩
      · exact .unknownOperator left right unregistered
      · exact .noFiniteValue left right registered infinite
    · intro cause
      cases cause with
      | unknownOperator left right unregistered =>
        exact ⟨_, _, left, right, .inl ⟨unregistered, rfl⟩⟩
      | noFiniteValue left right registered infinite =>
        exact ⟨_, _, left, right, .inr ⟨_, registered, infinite, rfl⟩⟩

theorem run_trace (o : Operand) :
    o.InPostorder (CarriedOut source ops securityId)
      ((o.run source ops securityId).events.filter (Event.isAt .trace)) := by
  apply run_inPostorder
  · intro name e
    rw [attributeRun_events]
    constructor
    · split <;> simp [Event.isAt, Event.message]
    · intro carried
      cases carried
  · intro x e carried
    cases carried
  · intro op a b e
    simp only [mem_filter_combine, run_value_eq_some_iff, mem_trace_applyOperator]
    constructor
    · rintro ⟨x, y, left, right, f, registered, rfl⟩
      exact .node left right registered
    · intro carried
      cases carried with
      | node left right registered => exact ⟨_, _, left, right, _, registered, rfl⟩

/-- The evaluation of an operand fails exactly when it leaves a message for debugging. -/
theorem run_debug_eq_nil_iff (o : Operand) :
    (o.run source ops securityId).events.filter (Event.isAt .debug) = [] ↔
      ∃ x, o.HasValue source ops securityId x := by
  rw [List.eq_nil_iff_forall_not_mem]
  constructor
  · intro silent
    -- The operand itself need not be to blame, but some part of it is.
    by_contra missing
    obtain ⟨p, part, e, there, cause⟩ := o.exists_cause_at missing
    exact silent e ((o.run_debug.mem_iff e).mpr ⟨p, part, there, cause⟩)
  · rintro ⟨x, value⟩ e reported
    obtain ⟨p, part, there, cause⟩ := (o.run_debug.mem_iff e).mp reported
    exact cause.not_hasValue (value.at there)

/-- A success leaves one trace for each operation and nothing else. -/
theorem HasValue.run_events (h : o.HasValue source ops securityId x) :
    List.Forall₂ (Expression.Finished source ops securityId) o.operations
      (o.run source ops securityId).events := by
  induction h with
  | literal x => exact .nil
  | fact known =>
    rw [run, attributeRun_events, (source.lookup_eq_ok_iff _ _).mpr known]
    exact .nil
  | @node op a b f x y z registered left right applied finite iha ihb =>
    have made : (f.apply x y).filter Float.isFinite = some z := by
      rw [applied, Option.filter_some, if_pos finite]
    have done : Expression.Finished source ops securityId ⟨op, a, b⟩
        (.nodeEvaluated op x y (some z)) :=
      ⟨x, y, z, left, right, .node registered left right applied finite, finite, rfl⟩
    rw [← run_value_eq_some_iff] at left right
    simp only [run, left, right, combine, applyOperator_of_registered x y registered made]
    exact List.rel_append iha (List.rel_append ihb (.cons done .nil))

end Operand

/-- What the log of a formula tells: the causes of its failures in post-order, which are the least
parts without a value and not nested in each other, and in post-order the operations carried out. -/
structure Operand.Diagnosed (source : FactSource) (ops : OperatorRegistry)
    (securityId : SecurityId) (o : Operand) (events : List Event) : Prop where
  debug : o.InPostorder (Cause source ops securityId) (events.filter (Event.isAt .debug))
  single : ∀ p part e e', o.at? p = some part →
    part.Cause source ops securityId e → part.Cause source ops securityId e' → e = e'
  least : ∀ p part, o.at? p = some part →
    ((∃ e, part.Cause source ops securityId e) ↔
      (¬ ∃ x, part.HasValue source ops securityId x) ∧
        ∀ t q inner, part.at? (t :: q) = some inner → ∃ y, inner.HasValue source ops securityId y)
  apart : ∀ p q part part' e e', o.at? p = some part → o.at? q = some part' →
    part.Cause source ops securityId e → part'.Cause source ops securityId e' → p <+: q → p = q
  trace : o.InPostorder (CarriedOut source ops securityId) (events.filter (Event.isAt .trace))

theorem Operand.diagnosed_run (o : Operand) :
    o.Diagnosed source ops securityId (o.run source ops securityId).events where
  debug := o.run_debug
  single _ _ _ _ there cause cause' := o.run_debug.unique there cause cause'
  least _ part _ := part.exists_cause_iff
  apart _ _ _ _ _ _ there there' cause cause' nested :=
    Cause.position_eq there there' cause cause' nested
  trace := o.run_trace

namespace Document

variable {d : Document}

theorem run_events_of_unresolved {error : LookupError}
    (h : source.securityId d.security = .error error) :
    (d.run source ops).events = [.securityNotResolved error] := by
  simp only [Document.run, h]

theorem run_events_of_resolved (h : source.securityId d.security = .ok securityId) :
    (d.run source ops).events = (d.expression.toOperand.run source ops securityId).events := by
  simp only [Document.run, h, Expression.run]

theorem evaluateWith_of_unresolved {error : LookupError}
    (h : source.securityId d.security = .error error) :
    d.evaluateWith source ops = .error .noValue := by
  simp only [evaluateWith, Document.run, h, Run.outcome]

theorem exists_evaluateWith_iff_of_resolved (h : source.securityId d.security = .ok securityId) :
    (∃ x, d.evaluateWith source ops = .ok x) ↔
      ∃ x, d.expression.toOperand.HasValue source ops securityId x := by
  simp only [evaluateWith_eq_ok_iff, h, Except.ok.injEq, exists_eq_left']

theorem fails_iff_debug (d : Document) :
    d.evaluateWith source ops = .error .noValue ↔
      ∃ e ∈ (d.run source ops).events, e.message.level = .debug := by
  cases h : source.securityId d.security with
  | error error =>
    rw [run_events_of_unresolved h]
    exact iff_of_true (evaluateWith_of_unresolved h) ⟨_, List.mem_singleton_self _, rfl⟩
  | ok s =>
    rw [evaluateWith_eq_error_iff, exists_evaluateWith_iff_of_resolved h,
      ← Operand.run_debug_eq_nil_iff, run_events_of_resolved h, List.filter_eq_nil_iff]
    simp [Event.isAt]

/-- The log explains every failure and no success. A security that does not resolve is the whole
log. Otherwise the log diagnoses the formula, and after a success it has one finite result for each
operation and nothing else. -/
theorem log_explains_failure (source : FactSource) (ops : OperatorRegistry) (d : Document) :
    (d.evaluateWith source ops = .error .noValue ↔
        ∃ e ∈ (d.run source ops).events, e.message.level = .debug) ∧
      (∀ error, source.securityId d.security = .error error →
        (d.run source ops).events = [.securityNotResolved error]) ∧
      (∀ s, source.securityId d.security = .ok s →
        d.expression.toOperand.Diagnosed source ops s (d.run source ops).events) ∧
      ∀ x, d.evaluateWith source ops = .ok x → ∃ s, source.securityId d.security = .ok s ∧
        List.Forall₂ (Expression.Finished source ops s) d.expression.operations
          (d.run source ops).events := by
  refine ⟨d.fails_iff_debug, fun error => run_events_of_unresolved, ?_, ?_⟩
  · intro s resolved
    rw [run_events_of_resolved resolved]
    exact d.expression.toOperand.diagnosed_run
  · intro x success
    obtain ⟨s, resolved, value⟩ := (d.evaluateWith_eq_ok_iff x).mp success
    rw [run_events_of_resolved resolved]
    exact ⟨s, resolved, value.run_events⟩

/-- Both operands fail, each for its own reason; the operation above them adds nothing. -/
example :
    (Document.run
      ⟨fun _ => .ok 1, fun name => .error (.unknownAttribute name), fun _ _ => .ok 0⟩ .builtins
      ⟨⟨"+", .attribute "price", .node "^" (.literal 1) (.literal 2)⟩, "ABC"⟩).events =
    [.operandNotResolved "price" 1 (.unknownAttribute "price"), .unknownOperator "^"] := by
  decide +kernel

end Document

end FactFormula
