import FactFormula.Proofs.Evaluation.Extension
import FactFormula.Proofs.Evaluation.Log
import FactFormula.Proofs.Evaluation.Success

/-!
What the check finds and what the log of an evaluation tells. The check meets an operation before
its operands and reports all that is unknown; the log has an operation behind its operands, and
says nothing of it unless both have values. Their names come in one order all the same, since no
message of the log is about a part of what another is about.
-/
namespace FactFormula

def Problem.attribute? : Problem → Option String
  | .unknownAttribute name => some name
  | .unknownSecurity _ | .unknownOperator _ => none

def Problem.operator? : Problem → Option String
  | .unknownOperator symbol => some symbol
  | .unknownSecurity _ | .unknownAttribute _ => none

/-- The name of an operand that was not resolved because its attribute is unknown. -/
def Event.unknownAttribute? : Event → Option String
  | .operandNotResolved name _ (.unknownAttribute _) => some name
  | _ => none

def Event.unknownOperator? : Event → Option String
  | .unknownOperator symbol => some symbol
  | _ => none

/-- The messages of a run for debugging. -/
def Run.debugging (r : Run) : List Event := r.events.filter (Event.isAt .debug)

section Messages

variable {β : Type} {pick : Event → Option β}

/-- Where only messages for debugging are picked, all others may be there as well. -/
theorem filterMap_debugging (only : ∀ e, (pick e).isSome → e.message.level = .debug) (r : Run) :
    r.debugging.filterMap pick = r.events.filterMap pick := by
  rw [Run.debugging, List.filterMap_filter]
  refine List.filterMap_congr fun e _ => ?_
  split
  · rfl
  · rename_i other
    cases picked : pick e with
    | none => rfl
    | some b => exact absurd (by simp [Event.isAt, only e (by simp [picked])]) other

theorem Event.level_of_unknownAttribute? (e : Event) (h : e.unknownAttribute?.isSome) :
    e.message.level = .debug := by
  unfold unknownAttribute? at h
  split at h
  · rfl
  · cases h

theorem Event.level_of_unknownOperator? (e : Event) (h : e.unknownOperator?.isSome) :
    e.message.level = .debug := by
  unfold unknownOperator? at h
  split at h
  · rfl
  · cases h

end Messages

section Operations

variable {ops : OperatorRegistry}

/-- Operations say nothing of attributes. -/
theorem combine_unknownAttributes (op : String) (u v : Option Float) :
    (combine ops op u v).2.filterMap Event.unknownAttribute? = [] := by
  match u, v with
  | none, _ => rfl
  | some _, none => rfl
  | some x, some y =>
    cases h : ops.get? op with
    | none => rw [combine, applyOperator_of_unregistered x y h]; rfl
    | some f =>
      rw [combine, applyOperator_of_registered x y h rfl]
      split <;> rfl

/-- An unknown operator is told of where both operands have values. -/
theorem combine_unknownOperators (op : String) (u v : Option Float) :
    (combine ops op u v).2.filterMap Event.unknownOperator? =
      if u.isSome ∧ v.isSome ∧ ops.operatorSet op = false then [op] else [] := by
  match u, v with
  | none, _ => rfl
  | some _, none => rfl
  | some x, some y =>
    rw [OperatorRegistry.operatorSet, OperatorRegistry.contains_eq_isSome_get?]
    cases h : ops.get? op with
    | none => rw [combine, applyOperator_of_unregistered x y h]; rfl
    | some f =>
      rw [combine, applyOperator_of_registered x y h rfl]
      split <;> simp [Event.unknownOperator?]

end Operations

/-- An attribute is not resolved for want of its name exactly if the catalog does not have it. -/
theorem FactStore.attributeRun_unknownAttributes (store : FactStore) (s : SecurityId)
    (name : String) :
    (store.source.attributeRun s name).events.filterMap Event.unknownAttribute? =
      if store.catalog.hasAttribute name then [] else [name] := by
  rw [attributeRun_events]
  simp only [FactSource.lookup, catalog, source, hasAttribute, attributeId,
    Std.TreeMap.contains_eq_isSome_getElem?]
  cases store.attributeIds[name]? with
  | none => rfl
  | some a =>
    simp only [factValue]
    cases store.facts[(s, a)]? <;> rfl

namespace Operand

variable {ops : OperatorRegistry} {s : SecurityId}

/-- One leaf after the other, the check and the log tell of the same attributes. -/
theorem unknownAttributes_eq (store : FactStore) (o : Operand) :
    (o.problems store.catalog ops.operatorSet).filterMap Problem.attribute? =
      (o.run store.source ops s).events.filterMap Event.unknownAttribute? := by
  induction o with
  | «attribute» name =>
    rw [run, store.attributeRun_unknownAttributes, problems]
    split <;> rfl
  | literal x => rfl
  | node op a b iha ihb =>
    have operator : (if ops.operatorSet op then [] else [Problem.unknownOperator op]).filterMap
        Problem.attribute? = [] := by
      split <;> rfl
    simp only [problems, run, List.filterMap_append, operator, combine_unknownAttributes, iha, ihb,
      List.nil_append, List.append_nil]

/-- A part that has a value has told of no unknown operator. -/
theorem unknownOperators_eq_nil {source : FactSource} {o : Operand}
    (value : (o.run source ops s).value.isSome) :
    (o.run source ops s).events.filterMap Event.unknownOperator? = [] := by
  obtain ⟨x, hx⟩ := Option.isSome_iff_exists.mp value
  have silent := o.run_debug_eq_nil_iff.mpr ⟨x, (o.run_value_eq_some_iff x).mp hx⟩
  rw [← filterMap_debugging Event.level_of_unknownOperator?, Run.debugging, silent]
  rfl

theorem unknownOperators_sublist (source : FactSource) (catalog : Catalog) (o : Operand) :
    ((o.run source ops s).events.filterMap Event.unknownOperator?).Sublist
      ((o.problems catalog ops.operatorSet).filterMap Problem.operator?) := by
  induction o with
  | «attribute» name =>
    rw [run, attributeRun_events]
    split
    · exact List.nil_sublist _
    · exact List.nil_sublist _
  | literal x => exact List.nil_sublist _
  | node op a b iha ihb =>
    simp only [problems, run, List.filterMap_append, combine_unknownOperators]
    split
    next reported =>
      -- The operation is told of, so its operands have values and nothing stands before it.
      obtain ⟨left, right, unknown⟩ := reported
      rw [unknownOperators_eq_nil left, unknownOperators_eq_nil right, unknown]
      exact List.Sublist.cons_cons op (List.nil_sublist _)
    next =>
      rw [List.append_nil]
      exact (iha.append ihb).trans (List.sublist_append_right _ _)

end Operand

namespace Document

/-- For a security that the store has, the check and the log name the same unknown attributes, each
as often as it occurs, and the unknown operators of the log come in the order of the check. -/
theorem findings_agree (d : Document) (store : FactStore) (ops : OperatorRegistry)
    (known : store.catalog.hasSecurity d.security = true) :
    (d.problems store.catalog ops.operatorSet).filterMap Problem.attribute? =
        (d.run store.source ops).debugging.filterMap Event.unknownAttribute? ∧
      ((d.run store.source ops).debugging.filterMap Event.unknownOperator?).Sublist
        ((d.problems store.catalog ops.operatorSet).filterMap Problem.operator?) := by
  obtain ⟨s, resolved⟩ := (store.hasSecurity_iff d.security).mp known
  have events : (d.run store.source ops).events =
      (d.expression.toOperand.run store.source ops s).events := run_events_of_resolved resolved
  rw [filterMap_debugging Event.level_of_unknownAttribute?,
    filterMap_debugging Event.level_of_unknownOperator?, events, problems, if_pos known,
    List.nil_append]
  exact ⟨d.expression.toOperand.unknownAttributes_eq store,
    d.expression.toOperand.unknownOperators_sublist store.source store.catalog⟩

end Document

/-- An unknown attribute twice, and an unknown operator inside of another. -/
def strangeDocument : Document where
  expression := ⟨"^", .node "%" (.attribute "price") (.literal 2),
    .node "?" (.attribute "beta") (.attribute "beta")⟩
  security := "ABC"

theorem Document.findings_agree_strange : ∃ store, priceTables.store = .ok store ∧
    store.catalog.hasSecurity strangeDocument.security = true ∧
    (strangeDocument.problems store.catalog OperatorRegistry.builtins.operatorSet).filterMap
        Problem.attribute? =
      (strangeDocument.run store.source .builtins).debugging.filterMap Event.unknownAttribute? ∧
    ((strangeDocument.run store.source .builtins).debugging.filterMap
        Event.unknownOperator?).Sublist
      ((strangeDocument.problems store.catalog OperatorRegistry.builtins.operatorSet).filterMap
        Problem.operator?) := by
  obtain ⟨store, built⟩ := priceTables.exists_store_iff.mpr (by decide)
  have known : store.catalog.hasSecurity "ABC" = true :=
    eq_of_map_eq_ok (f := fun s => s.catalog.hasSecurity "ABC") built (by decide +kernel)
  exact ⟨store, built, known, findings_agree strangeDocument store .builtins known⟩

end FactFormula
