import FactFormula.Evaluation.Run
import FactFormula.Proofs.Occurrence

/-!
The values that the rules of evaluation give to an operand, said without the evaluator. A run has
exactly the value that the rules give.
-/
namespace FactFormula

variable {source : FactSource} {ops : OperatorRegistry} {securityId : SecurityId}

/-- A name resolves and the fact behind it is known. -/
def FactSource.Answers (source : FactSource) (securityId : SecurityId) (name : String)
    (x : Float) : Prop :=
  ∃ id, source.attributeId name = .ok id ∧ source.factValue securityId id = .ok x

/-- The value of an attribute, or the error of the first question that fails. -/
def FactSource.lookup (source : FactSource) (securityId : SecurityId) (name : String) :
    Except LookupError Float :=
  match source.attributeId name with
  | .ok attributeId => source.factValue securityId attributeId
  | .error e => .error e

/-- A literal has its own value, whatever it is; an operation has one only if it is finite. -/
inductive Operand.HasValue (source : FactSource) (ops : OperatorRegistry)
    (securityId : SecurityId) : Operand → Float → Prop where
  | literal (x : Float) : HasValue source ops securityId (.literal x) x
  | fact {name : String} {x : Float} (known : source.Answers securityId name x) :
      HasValue source ops securityId (.attribute name) x
  | node {op : String} {a b : Operand} {f : Operator} {x y z : Float}
      (registered : ops.get? op = some f) (left : HasValue source ops securityId a x)
      (right : HasValue source ops securityId b y) (applied : f.apply x y = some z)
      (finite : z.isFinite = true) : HasValue source ops securityId (.node op a b) z

/-- The operator registered for an operation makes a finite number of the values of its operands. -/
def Expression.YieldsFinite (source : FactSource) (ops : OperatorRegistry)
    (securityId : SecurityId) (e : Expression) : Prop :=
  ∀ f x y, ops.get? e.op = some f → e.a.HasValue source ops securityId x →
    e.b.HasValue source ops securityId y → ∃ z, f.apply x y = some z ∧ z.isFinite = true

theorem FactSource.Answers.unique {name : String} {x y : Float}
    (hx : source.Answers securityId name x) (hy : source.Answers securityId name y) : x = y := by
  obtain ⟨i, hi, hx⟩ := hx
  obtain ⟨j, hj, hy⟩ := hy
  cases hi.symm.trans hj
  cases hx.symm.trans hy
  rfl

theorem Operand.HasValue.unique {o : Operand} {x y : Float}
    (hx : o.HasValue source ops securityId x) (hy : o.HasValue source ops securityId y) :
    x = y := by
  induction hx generalizing y with
  | literal x => cases hy; rfl
  | fact known =>
    cases hy with
    | fact known' => exact known.unique known'
  | node registered _ _ applied _ iha ihb =>
    cases hy with
    | node registered' left right applied' _ =>
      cases registered.symm.trans registered'
      cases iha left
      cases ihb right
      exact Option.some.inj (applied.symm.trans applied')

theorem applyOperator_value (op : String) (x y : Float) :
    (applyOperator ops op x y).1 =
      (ops.get? op).bind fun f => (f.apply x y).filter Float.isFinite := by
  unfold applyOperator
  cases ops.get? op with
  | none => rfl
  | some f => cases h : (f.apply x y).filter Float.isFinite <;> simp [h]

theorem applyOperator_value_eq_some_iff (op : String) (x y z : Float) :
    (applyOperator ops op x y).1 = some z ↔
      ∃ f, ops.get? op = some f ∧ f.apply x y = some z ∧ z.isFinite = true := by
  simp only [applyOperator_value, Option.bind_eq_some_iff, Option.filter_eq_some_iff]

theorem combine_value_eq_some_iff (op : String) (u v : Option Float) (z : Float) :
    (combine ops op u v).1 = some z ↔
      ∃ x y, u = some x ∧ v = some y ∧ (applyOperator ops op x y).1 = some z := by
  cases u <;> cases v <;> simp [combine]

theorem FactSource.lookup_eq_ok_iff (name : String) (x : Float) :
    source.lookup securityId name = .ok x ↔ source.Answers securityId name x := by
  unfold lookup Answers
  cases source.attributeId name <;> simp

theorem attributeRun_value (name : String) :
    (source.attributeRun securityId name).value = (source.lookup securityId name).toOption := by
  unfold FactSource.attributeRun FactSource.lookup
  cases source.attributeId name with
  | error e => rfl
  | ok id => cases h : source.factValue securityId id <;> simp [h, Except.toOption]

theorem attributeRun_events (name : String) :
    (source.attributeRun securityId name).events =
      match source.lookup securityId name with
      | .ok _ => []
      | .error e => [.operandNotResolved name securityId e] := by
  unfold FactSource.attributeRun FactSource.lookup
  cases source.attributeId name with
  | error e => rfl
  | ok id => cases h : source.factValue securityId id <;> simp [h]

theorem attributeRun_value_eq_some_iff (name : String) (x : Float) :
    (source.attributeRun securityId name).value = some x ↔ source.Answers securityId name x := by
  rw [attributeRun_value, ← FactSource.lookup_eq_ok_iff]
  cases source.lookup securityId name <;> simp [Except.toOption]

/-- A run of an operand ends with the value that the rules give it, and with none otherwise. -/
theorem Operand.run_value_eq_some_iff (o : Operand) (x : Float) :
    (o.run source ops securityId).value = some x ↔ o.HasValue source ops securityId x := by
  induction o generalizing x with
  | «attribute» name =>
    rw [run, attributeRun_value_eq_some_iff]
    constructor
    · exact .fact
    · intro h
      cases h with
      | fact known => exact known
  | literal y =>
    simp only [run, Option.some.injEq]
    constructor
    · rintro rfl
      exact .literal y
    · intro h
      cases h
      rfl
  | node op a b iha ihb =>
    simp only [run, combine_value_eq_some_iff, applyOperator_value_eq_some_iff, iha, ihb]
    constructor
    · rintro ⟨u, v, left, right, f, registered, applied, finite⟩
      exact .node registered left right applied finite
    · intro h
      cases h with
      | node registered left right applied finite =>
        exact ⟨_, _, left, right, _, registered, applied, finite⟩

theorem Document.evaluateWith_eq_ok_iff (d : Document) (x : Float) :
    d.evaluateWith source ops = .ok x ↔
      ∃ securityId, source.securityId d.security = .ok securityId ∧
        d.expression.toOperand.HasValue source ops securityId x := by
  unfold evaluateWith Document.run
  cases source.securityId d.security with
  | error e => simp [Run.outcome]
  | ok securityId =>
    simp only [Except.ok.injEq, exists_eq_left', ← Operand.run_value_eq_some_iff, Run.outcome,
      Expression.run]
    cases (d.expression.toOperand.run source ops securityId).value <;> simp

/-- There is but one way to fail. -/
theorem Document.evaluateWith_eq_error_iff (d : Document) :
    d.evaluateWith source ops = .error .noValue ↔ ¬ ∃ x, d.evaluateWith source ops = .ok x := by
  cases d.evaluateWith source ops with
  | ok x => simp
  | error e => cases e; simp

/-- Values of all leaves, operators for all symbols and finite results make a value of the whole. -/
theorem Operand.exists_hasValue (o : Operand)
    (known : ∀ name ∈ o.attributes, ∃ x, source.Answers securityId name x)
    (registered : ∀ symbol ∈ o.operators, ∃ f, ops.get? symbol = some f)
    (finite : ∀ e ∈ o.operations, e.YieldsFinite source ops securityId) :
    ∃ x, o.HasValue source ops securityId x := by
  induction o with
  | «attribute» name =>
    obtain ⟨x, hx⟩ := known name (by simp [attributes])
    exact ⟨x, .fact hx⟩
  | literal x => exact ⟨x, .literal x⟩
  | node op a b iha ihb =>
    obtain ⟨x, hx⟩ := iha (fun n hn => known n (by simp [attributes, hn]))
      (fun s hs => registered s (by simp [operators, hs]))
      (fun e he => finite e (by simp [operations, he]))
    obtain ⟨y, hy⟩ := ihb (fun n hn => known n (by simp [attributes, hn]))
      (fun s hs => registered s (by simp [operators, hs]))
      (fun e he => finite e (by simp [operations, he]))
    obtain ⟨f, hf⟩ := registered op (by simp [operators])
    obtain ⟨z, hz, hfin⟩ := finite ⟨op, a, b⟩ (by simp [operations]) f x y hf hx hy
    exact ⟨z, .node hf hx hy hz hfin⟩

theorem Operand.HasValue.answers {o : Operand} {x : Float}
    (h : o.HasValue source ops securityId x) :
    ∀ name ∈ o.attributes, ∃ y, source.Answers securityId name y := by
  induction h with
  | literal x => simp [attributes]
  | fact known =>
    intro name hn
    rw [attributes, List.mem_singleton] at hn
    exact hn ▸ ⟨_, known⟩
  | node _ _ _ _ _ iha ihb =>
    intro name hn
    rcases List.mem_append.mp hn with hn | hn
    · exact iha name hn
    · exact ihb name hn

theorem Operand.HasValue.registered {o : Operand} {x : Float}
    (h : o.HasValue source ops securityId x) :
    ∀ symbol ∈ o.operators, ∃ f, ops.get? symbol = some f := by
  induction h with
  | literal x => simp [operators]
  | fact known => simp [operators]
  | node registered _ _ _ _ iha ihb =>
    intro symbol hs
    rcases List.mem_cons.mp hs with rfl | hs
    · exact ⟨_, registered⟩
    · rcases List.mem_append.mp hs with hs | hs
      · exact iha symbol hs
      · exact ihb symbol hs

/-- Where the whole has a value, so has every operation in it. -/
theorem Operand.HasValue.operations {o : Operand} {x : Float}
    (h : o.HasValue source ops securityId x) :
    ∀ e ∈ o.operations, ∃ z, e.toOperand.HasValue source ops securityId z := by
  induction h with
  | literal x => simp [Operand.operations]
  | fact known => simp [Operand.operations]
  | node registered left right applied finite iha ihb =>
    intro e he
    simp only [Operand.operations, List.mem_append, List.mem_singleton] at he
    rcases he with he | he | rfl
    · exact iha e he
    · exact ihb e he
    · exact ⟨_, .node registered left right applied finite⟩

theorem Expression.yieldsFinite_of_hasValue {e : Expression} {z : Float}
    (h : e.toOperand.HasValue source ops securityId z) :
    e.YieldsFinite source ops securityId := by
  intro f x y hf hx hy
  cases h with
  | node registered left right applied finite =>
    cases hf.symm.trans registered
    cases hx.unique left
    cases hy.unique right
    exact ⟨_, applied, finite⟩

end FactFormula
