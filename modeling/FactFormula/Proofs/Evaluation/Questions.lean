import Mathlib.Data.List.Basic
import FactFormula.Evaluation.Run
import FactFormula.Proofs.Occurrence

/-!
What an evaluation asks its source. The questions follow from the attributes of the formula and from
which names resolve; neither operators nor literals nor facts have a say in them.
-/
namespace FactFormula

/-- A question to a source, without its answer. -/
inductive Call where
  | security (symbol : String)
  | attributeName (name : String)
  | fact (securityId : SecurityId) (attributeId : AttributeId)
  deriving DecidableEq

def Query.call : Query → Call
  | .security symbol _ => .security symbol
  | .attributeName name _ => .attributeName name
  | .fact securityId attributeId _ => .fact securityId attributeId

namespace FactSource

/-- What a source answers to a question. -/
def answer (source : FactSource) : Call → Query
  | .security symbol => .security symbol (source.securityId symbol)
  | .attributeName name => .attributeName name (source.attributeId name)
  | .fact securityId attributeId =>
    .fact securityId attributeId (source.factValue securityId attributeId)

/-- The fact is asked for as soon as its name has resolved, and only then. -/
def attributeCalls (source : FactSource) (securityId : SecurityId) (name : String) : List Call :=
  .attributeName name ::
    match source.attributeId name with
    | .ok attributeId => [.fact securityId attributeId]
    | .error _ => []

end FactSource

/-- The security first; if it resolves, the attributes from left to right, one as often as it
occurs. -/
def Document.calls (source : FactSource) (d : Document) : List Call :=
  .security d.security ::
    match source.securityId d.security with
    | .ok securityId => d.expression.attributes.flatMap (source.attributeCalls securityId)
    | .error _ => []

variable {source source' : FactSource} {ops : OperatorRegistry} {securityId : SecurityId}

namespace FactSource

theorem call_answer (c : Call) : (source.answer c).call = c := by cases c <;> rfl

theorem attributeRun_queries (name : String) :
    (source.attributeRun securityId name).queries =
      (source.attributeCalls securityId name).map source.answer := by
  unfold attributeRun attributeCalls
  cases h : source.attributeId name with
  | error e => simp [answer, h]
  | ok id => cases hf : source.factValue securityId id <;> simp [answer, h, hf]

theorem attributeName_mem_attributeCalls (name other : String) :
    Call.attributeName other ∈ source.attributeCalls securityId name ↔ other = name := by
  unfold attributeCalls
  cases source.attributeId name <;> simp

/-- It does not matter why a name does not resolve. -/
theorem attributeCalls_congr {name : String}
    (h : (source'.attributeId name).toOption = (source.attributeId name).toOption) :
    source'.attributeCalls securityId name = source.attributeCalls securityId name := by
  unfold attributeCalls
  cases hs : source.attributeId name <;> cases hs' : source'.attributeId name <;>
    simp_all [Except.toOption]

end FactSource

/-- An operand puts the questions of its attributes, in their order. -/
theorem Operand.run_queries (o : Operand) :
    (o.run source ops securityId).queries =
      (o.attributes.flatMap (source.attributeCalls securityId)).map source.answer := by
  induction o with
  | «attribute» name => simp [run, attributes, FactSource.attributeRun_queries]
  | literal x => rfl
  | node op a b iha ihb =>
    simp only [run, attributes, iha, ihb, List.flatMap_append, List.map_append]

namespace Document

theorem run_queries (d : Document) :
    (d.run source ops).queries = (d.calls source).map source.answer := by
  unfold Document.run calls
  cases h : source.securityId d.security with
  | error e => simp [FactSource.answer, h]
  | ok s => simp [FactSource.answer, h, Expression.run, Operand.run_queries, Expression.attributes]

theorem map_call_run_queries (d : Document) :
    (d.run source ops).queries.map Query.call = d.calls source := by
  rw [run_queries, List.map_map]
  exact (List.map_congr_left fun c _ => FactSource.call_answer c).trans (List.map_id _)

theorem attributeName_mem_calls {d : Document}
    (resolved : source.securityId d.security = .ok securityId) (name : String) :
    Call.attributeName name ∈ d.calls source ↔ name ∈ d.expression.attributes := by
  simp [calls, resolved, FactSource.attributeName_mem_attributeCalls]

theorem calls_congr {d d' : Document} (security : d'.security = d.security)
    (attributes : d'.expression.attributes = d.expression.attributes)
    (hs : (source'.securityId d.security).toOption = (source.securityId d.security).toOption)
    (ha : ∀ name ∈ d.expression.attributes,
      (source'.attributeId name).toOption = (source.attributeId name).toOption) :
    d'.calls source' = d.calls source := by
  unfold calls
  rw [security, attributes]
  cases h : source.securityId d.security <;> cases h' : source'.securityId d.security <;>
    simp only [h, h', Except.toOption, Option.some.injEq, reduceCtorEq] at hs ⊢
  rw [hs]
  congr 1
  exact List.flatMap_congr fun name hn => FactSource.attributeCalls_congr (ha name hn)

/-- The questions of an evaluation, each with the answer of the source. The names among them are the
attributes that the formula depends on, unless the security does not resolve. Other operators, other
literals and other facts make no difference, and neither does the cause of a name that fails. -/
theorem queries_determined (source : FactSource) (ops : OperatorRegistry) (d : Document) :
    (d.run source ops).queries = (d.calls source).map source.answer ∧
      (∀ s, source.securityId d.security = .ok s → ∀ name,
        Call.attributeName name ∈ (d.run source ops).queries.map Query.call ↔
          name ∈ d.expression.dependencies.attributes) ∧
      ∀ (source' : FactSource) (ops' : OperatorRegistry) (d' : Document),
        d'.security = d.security → d'.expression.attributes = d.expression.attributes →
        (source'.securityId d.security).toOption = (source.securityId d.security).toOption →
        (∀ name ∈ d.expression.attributes,
          (source'.attributeId name).toOption = (source.attributeId name).toOption) →
        (d'.run source' ops').queries.map Query.call =
          (d.run source ops).queries.map Query.call := by
  simp only [map_call_run_queries, Expression.mem_dependencies_attributes]
  refine ⟨d.run_queries, ?_, ?_⟩
  · intro s resolved name
    exact attributeName_mem_calls resolved name
  · intro source' ops' d' security attributes hs ha
    exact calls_congr security attributes hs ha

end Document

end FactFormula
