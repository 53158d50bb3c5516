import FactFormula.Evaluation.Run
import FactFormula.Proofs.Occurrence

/-!
An evaluation sees of its source and of its operators only what belongs to the dependencies of the
formula: value, questions and events are settled by these.
-/
namespace FactFormula

variable {source source' : FactSource} {ops ops' : OperatorRegistry} {securityId : SecurityId}

/-- Of an operator only its answer to the two operands matters. -/
theorem applyOperator_congr_at {op : String} {x y : Float}
    (h : (ops.get? op).map (·.apply x y) = (ops'.get? op).map (·.apply x y)) :
    applyOperator ops op x y = applyOperator ops' op x y := by
  unfold applyOperator
  cases hf : ops.get? op <;> cases hg : ops'.get? op <;> simp only [hf, hg, Option.map_none,
    Option.map_some, Option.some.injEq, reduceCtorEq] at h ⊢
  rw [h]

theorem applyOperator_congr {op : String}
    (h : (ops.get? op).map Operator.apply = (ops'.get? op).map Operator.apply) (x y : Float) :
    applyOperator ops op x y = applyOperator ops' op x y := by
  apply applyOperator_congr_at
  simpa only [Option.map_map, Function.comp_def] using congrArg (Option.map fun f => f x y) h

theorem combine_congr {op : String}
    (h : (ops.get? op).map Operator.apply = (ops'.get? op).map Operator.apply)
    (u v : Option Float) : combine ops op u v = combine ops' op u v := by
  cases u with
  | none => rfl
  | some x =>
    cases v with
    | none => rfl
    | some y => exact applyOperator_congr h x y

theorem attributeRun_congr {name : String}
    (ha : source.attributeId name = source'.attributeId name)
    (hf : ∀ id, source.attributeId name = .ok id →
      source.factValue securityId id = source'.factValue securityId id) :
    source.attributeRun securityId name = source'.attributeRun securityId name := by
  unfold FactSource.attributeRun
  rw [← ha]
  cases h : source.attributeId name with
  | error e => rfl
  | ok id => simp only [hf id h]

/-- Runs of an operand are the same where its attributes and its operators are. -/
theorem Operand.run_congr (o : Operand)
    (ha : ∀ name ∈ o.attributes, source.attributeId name = source'.attributeId name)
    (hf : ∀ name ∈ o.attributes, ∀ id, source.attributeId name = .ok id →
      source.factValue securityId id = source'.factValue securityId id)
    (ho : ∀ symbol ∈ o.operators,
      (ops.get? symbol).map Operator.apply = (ops'.get? symbol).map Operator.apply) :
    o.run source ops securityId = o.run source' ops' securityId := by
  induction o with
  | «attribute» name =>
    have hn : name ∈ (Operand.attribute name).attributes := by simp [attributes]
    exact attributeRun_congr (ha name hn) (hf name hn)
  | literal x => rfl
  | node op a b iha ihb =>
    have left := iha (fun n hn => ha n (by simp [attributes, hn]))
      (fun n hn => hf n (by simp [attributes, hn])) (fun s hs => ho s (by simp [operators, hs]))
    have right := ihb (fun n hn => ha n (by simp [attributes, hn]))
      (fun n hn => hf n (by simp [attributes, hn])) (fun s hs => ho s (by simp [operators, hs]))
    simp only [run, left, right, combine_congr (ho op (by simp [operators]))]

/-- Two evaluations of a document agree in result, questions and events as soon as their sources
agree on its security, on its attributes and on the facts these lead to, and their registries on
its operators. -/
theorem Document.evaluation_congr (d : Document) (source source' : FactSource)
    (ops ops' : OperatorRegistry)
    (hs : source.securityId d.security = source'.securityId d.security)
    (ha : ∀ name ∈ d.expression.dependencies.attributes,
      source.attributeId name = source'.attributeId name)
    (hf : ∀ s, source.securityId d.security = .ok s →
      ∀ name ∈ d.expression.dependencies.attributes, ∀ id, source.attributeId name = .ok id →
        source.factValue s id = source'.factValue s id)
    (ho : ∀ symbol ∈ d.expression.dependencies.operators,
      (ops.get? symbol).map Operator.apply = (ops'.get? symbol).map Operator.apply) :
    d.evaluateWith source ops = d.evaluateWith source' ops' ∧
      (d.run source ops).queries = (d.run source' ops').queries ∧
      (d.run source ops).events = (d.run source' ops').events := by
  simp only [Expression.mem_dependencies_attributes, Expression.mem_dependencies_operators]
    at ha hf ho
  have run : d.run source ops = d.run source' ops' := by
    unfold Document.run
    rw [← hs]
    cases h : source.securityId d.security with
    | error e => rfl
    | ok s => simp only [Expression.run, d.expression.toOperand.run_congr ha (hf s h) ho]
  simp only [evaluateWith, run, and_self]

/-- One security with one price. -/
def priceSource : FactSource where
  securityId symbol := if symbol = "ABC" then .ok 1 else .error (.unknownSecurity symbol)
  attributeId name := if name = "price" then .ok 7 else .error (.unknownAttribute name)
  factValue s a := if s = 1 ∧ a = 7 then .ok 4 else .error (.missingFact s a)

/-- The same price among the facts of more securities and attributes. -/
def marketSource : FactSource where
  securityId symbol := if symbol = "ABC" then .ok 1 else .ok 2
  attributeId name := if name = "price" then .ok 7 else .ok 8
  factValue s a := if s = 1 ∧ a = 7 then .ok 4 else .ok 5

/-- A formula that asks for the price twice. -/
def priceDocument : Document where
  expression := ⟨"*", .attribute "price", .node "+" (.literal 2) (.attribute "price")⟩
  security := "ABC"

def marketOperators : OperatorRegistry :=
  OperatorRegistry.builtins.register ⟨"second", fun _ y => some y⟩

/-- Neither what the market adds to the one price nor a further operator is seen. -/
theorem Document.evaluation_congr_market :
    priceDocument.evaluateWith priceSource .builtins =
        priceDocument.evaluateWith marketSource marketOperators ∧
      (priceDocument.run priceSource .builtins).queries =
        (priceDocument.run marketSource marketOperators).queries ∧
      (priceDocument.run priceSource .builtins).events =
        (priceDocument.run marketSource marketOperators).events := by
  have only : ∀ name ∈ priceDocument.expression.dependencies.attributes, name = "price" := by
    simp [priceDocument, Expression.mem_dependencies_attributes, Expression.attributes,
      Expression.toOperand, Operand.attributes]
  apply Document.evaluation_congr priceDocument priceSource marketSource .builtins marketOperators
  · rfl
  · intro name hn
    cases only name hn
    rfl
  · intro s hs name hn id hid
    cases only name hn
    cases hs
    cases hid
    rfl
  · intro symbol hsym
    have hsymbol : symbol = "*" ∨ symbol = "+" := by
      simpa [priceDocument, Expression.mem_dependencies_operators, Expression.operators,
        Expression.toOperand, Operand.operators] using hsym
    rcases hsymbol with rfl | rfl <;> simp [marketOperators, OperatorRegistry.get?_register]

end FactFormula
