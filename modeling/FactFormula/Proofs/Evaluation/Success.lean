import FactFormula.Check
import FactFormula.Facts.Store
import FactFormula.Proofs.Evaluation.Meaning

/-!
When the evaluation of a document on a store succeeds: the check finds no problem, the facts are
there and every operation is finite. A problem found by the check always makes it fail.
-/
namespace FactFormula

/-- The store has a fact for the ids that it gives to the two names. -/
def FactStore.HasFact (store : FactStore) (security name : String) : Prop :=
  ∃ s a x, store.securityId security = .ok s ∧ store.attributeId name = .ok a ∧
    store.factValue s a = .ok x

theorem Operand.problems_eq_nil_iff (catalog : Catalog) (ops : OperatorSet) (o : Operand) :
    o.problems catalog ops = [] ↔
      (∀ name ∈ o.attributes, catalog.hasAttribute name = true) ∧
        ∀ symbol ∈ o.operators, ops symbol = true := by
  induction o with
  | «attribute» name => simp [problems, attributes, operators]
  | literal x => simp [problems, attributes, operators]
  | node op a b iha ihb =>
    simp only [problems, attributes, operators, List.append_eq_nil_iff, iha, ihb,
      List.forall_mem_cons, List.forall_mem_append, ite_eq_left_iff, List.cons_ne_nil, imp_false,
      Bool.not_eq_true, Bool.not_eq_false]
    tauto

theorem Document.problems_eq_nil_iff (catalog : Catalog) (ops : OperatorSet) (d : Document) :
    d.problems catalog ops = [] ↔ catalog.hasSecurity d.security = true ∧
      (∀ name ∈ d.expression.attributes, catalog.hasAttribute name = true) ∧
        ∀ symbol ∈ d.expression.operators, ops symbol = true := by
  simp [problems, Expression.problems, Operand.problems_eq_nil_iff, Expression.attributes,
    Expression.operators]

theorem OperatorRegistry.operatorSet_iff (ops : OperatorRegistry) (symbol : String) :
    ops.operatorSet symbol = true ↔ ∃ f, ops.get? symbol = some f := by
  rw [operatorSet, contains_eq_isSome_get?, Option.isSome_iff_exists]

namespace Document

variable {store : FactStore} {ops : OperatorRegistry} {d : Document} {x : Float}

/-- The check raises no false alarm. -/
theorem problems_eq_nil_of_evaluateWith (h : d.evaluateWith store.source ops = .ok x) :
    d.problems store.catalog ops.operatorSet = [] := by
  obtain ⟨s, hs, hx⟩ := (d.evaluateWith_eq_ok_iff x).mp h
  rw [problems_eq_nil_iff]
  refine ⟨(store.hasSecurity_iff _).mpr ⟨s, hs⟩, ?_, ?_⟩
  · intro name hn
    obtain ⟨_, a, ha, _⟩ := hx.answers name hn
    exact (store.hasAttribute_iff name).mpr ⟨a, ha⟩
  · intro symbol hsym
    exact (ops.operatorSet_iff symbol).mpr (hx.registered symbol hsym)

theorem hasFact_of_evaluateWith (h : d.evaluateWith store.source ops = .ok x) :
    ∀ name ∈ d.expression.attributes, store.HasFact d.security name := by
  obtain ⟨s, hs, hx⟩ := (d.evaluateWith_eq_ok_iff x).mp h
  intro name hn
  obtain ⟨y, a, ha, hy⟩ := hx.answers name hn
  exact ⟨s, a, y, hs, ha, hy⟩

theorem yieldsFinite_of_evaluateWith (h : d.evaluateWith store.source ops = .ok x) :
    ∀ s, store.securityId d.security = .ok s →
      ∀ e ∈ d.expression.operations, e.YieldsFinite store.source ops s := by
  obtain ⟨s, hs, hx⟩ := (d.evaluateWith_eq_ok_iff x).mp h
  intro t ht e he
  cases hs.symm.trans ht
  obtain ⟨z, hz⟩ := hx.operations e he
  exact Expression.yieldsFinite_of_hasValue hz

theorem exists_evaluateWith (clean : d.problems store.catalog ops.operatorSet = [])
    (known : ∀ name ∈ d.expression.attributes, store.HasFact d.security name)
    (finite : ∀ s, store.securityId d.security = .ok s →
      ∀ e ∈ d.expression.operations, e.YieldsFinite store.source ops s) :
    ∃ x, d.evaluateWith store.source ops = .ok x := by
  obtain ⟨hsec, -, hops⟩ := (problems_eq_nil_iff _ _ d).mp clean
  obtain ⟨s, hs⟩ := (store.hasSecurity_iff _).mp hsec
  have answers : ∀ name ∈ d.expression.attributes, ∃ y, store.source.Answers s name y := by
    intro name hn
    obtain ⟨t, a, y, ht, ha, hy⟩ := known name hn
    cases hs.symm.trans ht
    exact ⟨y, a, ha, hy⟩
  have registered : ∀ symbol ∈ d.expression.operators, ∃ f, ops.get? symbol = some f := by
    intro symbol hsym
    exact (ops.operatorSet_iff symbol).mp (hops symbol hsym)
  obtain ⟨y, hy⟩ := d.expression.toOperand.exists_hasValue answers registered (finite s hs)
  exact ⟨y, (d.evaluateWith_eq_ok_iff y).mpr ⟨s, hs, hy⟩⟩

/-- An evaluation succeeds exactly when the check is clean, every attribute has a fact and every
operation, on the values of its operands, is finite; so any problem of the check makes it fail. -/
theorem evaluateWith_succeeds_iff (store : FactStore) (ops : OperatorRegistry) (d : Document) :
    ((∃ x, d.evaluateWith store.source ops = .ok x) ↔
      d.problems store.catalog ops.operatorSet = [] ∧
      (∀ name ∈ d.expression.attributes, store.HasFact d.security name) ∧
      ∀ s, store.securityId d.security = .ok s →
        ∀ e ∈ d.expression.operations, e.YieldsFinite store.source ops s) ∧
    ∀ p ∈ d.problems store.catalog ops.operatorSet,
      d.evaluateWith store.source ops = .error .noValue := by
  refine ⟨⟨?_, ?_⟩, ?_⟩
  · rintro ⟨x, h⟩
    exact ⟨problems_eq_nil_of_evaluateWith h, hasFact_of_evaluateWith h,
      yieldsFinite_of_evaluateWith h⟩
  · rintro ⟨clean, known, finite⟩
    exact exists_evaluateWith clean known finite
  · intro p hp
    rw [evaluateWith_eq_error_iff]
    rintro ⟨x, h⟩
    rw [problems_eq_nil_of_evaluateWith h] at hp
    cases hp

end Document

end FactFormula
