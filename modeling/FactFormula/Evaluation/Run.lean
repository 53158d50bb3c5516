import FactFormula.Evaluation.Event
import FactFormula.Expression.Basic
import FactFormula.Operator.Registry

/-!
Evaluation of formulas. A run has a value or none, the questions it has put to the source with
their answers, and the events it has reported. Both operands of an operation are evaluated before
either is looked at.
-/
namespace FactFormula

/-- A question to a source, with its answer. -/
inductive Query where
  | security (symbol : String) (answer : Except LookupError SecurityId)
  | attributeName (name : String) (answer : Except LookupError AttributeId)
  | fact (securityId : SecurityId) (attributeId : AttributeId) (answer : Except LookupError Float)

structure Run where
  value : Option Float
  queries : List Query
  events : List Event

/-- The value of an operation whose operands have values, and its events. A result that is not
finite is none. -/
def applyOperator (ops : OperatorRegistry) (op : String) (a b : Float) :
    Option Float × List Event :=
  match ops.get? op with
  | none => (none, [.unknownOperator op])
  | some f =>
    match (f.apply a b).filter Float.isFinite with
    | some x => (some x, [.nodeEvaluated op a b (some x)])
    | none => (none, [.noFiniteValue op a b, .nodeEvaluated op a b none])

/-- An operation without a value for each of its operands has none, and nothing to report. -/
def combine (ops : OperatorRegistry) (op : String) : Option Float → Option Float →
    Option Float × List Event
  | some a, some b => applyOperator ops op a b
  | _, _ => (none, [])

def FactSource.attributeRun (source : FactSource) (securityId : SecurityId) (name : String) : Run :=
  match source.attributeId name with
  | .error e => ⟨none, [.attributeName name (.error e)], [.operandNotResolved name securityId e]⟩
  | .ok attributeId =>
    let asked := [.attributeName name (.ok attributeId),
      .fact securityId attributeId (source.factValue securityId attributeId)]
    match source.factValue securityId attributeId with
    | .ok x => ⟨some x, asked, []⟩
    | .error e => ⟨none, asked, [.operandNotResolved name securityId e]⟩

def Operand.run (source : FactSource) (ops : OperatorRegistry) (securityId : SecurityId) :
    Operand → Run
  | .literal x => ⟨some x, [], []⟩
  | .attribute name => source.attributeRun securityId name
  | .node op a b =>
    let left := a.run source ops securityId
    let right := b.run source ops securityId
    let (value, events) := combine ops op left.value right.value
    ⟨value, left.queries ++ right.queries, left.events ++ (right.events ++ events)⟩

/-- The run of a formula for a security that has been resolved. -/
def Expression.run (source : FactSource) (ops : OperatorRegistry) (securityId : SecurityId)
    (e : Expression) : Run :=
  e.toOperand.run source ops securityId

/-- The run of a document. Nothing is asked about a security that does not resolve. -/
def Document.run (source : FactSource) (ops : OperatorRegistry) (d : Document) : Run :=
  match source.securityId d.security with
  | .error e => ⟨none, [.security d.security (.error e)], [.securityNotResolved e]⟩
  | .ok securityId =>
    let run := d.expression.run source ops securityId
    { run with queries := .security d.security (.ok securityId) :: run.queries }

/-- The one failure of an evaluation; it does not tell the cause. -/
inductive EvaluationFailure where
  | noValue
  deriving DecidableEq

def EvaluationFailure.text : EvaluationFailure → String
  | .noValue => "There has been a problem with your Expression or Security"

def Run.outcome (r : Run) : Except EvaluationFailure Float :=
  match r.value with
  | some x => .ok x
  | none => .error .noValue

/-- The value of a document under the operators of a registry. -/
def Document.evaluateWith (source : FactSource) (ops : OperatorRegistry) (d : Document) :
    Except EvaluationFailure Float :=
  (d.run source ops).outcome

/-- The value of a document under the four arithmetic operators. -/
def Document.evaluate (source : FactSource) (d : Document) : Except EvaluationFailure Float :=
  d.evaluateWith source .builtins

end FactFormula
