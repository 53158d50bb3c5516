import FactFormula.Proofs.Evaluation.Locality
import FactFormula.Proofs.Evaluation.Log
import FactFormula.Proofs.Expression.OperandKinds
import FactFormula.Proofs.Facts.FiniteFacts

/-!
No operator meets anything that is not finite. Literals are finite because texts hold no others,
facts because tables hold no others, and results because an operation drops the rest.
-/
namespace FactFormula
open Json

/-- Two registries that make the same of finite numbers. -/
def OperatorRegistry.AgreeOnFinite (ops ops' : OperatorRegistry) : Prop :=
  ∀ symbol x y, x.isFinite = true → y.isFinite = true →
    (ops.get? symbol).map (·.apply x y) = (ops'.get? symbol).map (·.apply x y)

/-- The evaluation of a document carries finite numbers only. -/
structure Document.StaysFinite (d : Document) (source : FactSource) (ops : OperatorRegistry) :
    Prop where
  /-- What the operands of an operation have for values is all that its operator is applied to. -/
  operands : ∀ securityId, source.securityId d.security = .ok securityId →
    ∀ e ∈ d.expression.operations, ∀ x y, (e.a.run source ops securityId).value = some x →
      (e.b.run source ops securityId).value = some y → x.isFinite = true ∧ y.isFinite = true
  traced : ∀ op x y result, Event.nodeEvaluated op x y result ∈ (d.run source ops).events →
    x.isFinite = true ∧ y.isFinite = true
  value : ∀ x, d.evaluateWith source ops = .ok x → x.isFinite = true
  /-- What an operator makes of other numbers is never seen. -/
  unaffected : ∀ ops', ops.AgreeOnFinite ops' → d.run source ops = d.run source ops'

variable {source : FactSource} {ops ops' : OperatorRegistry} {securityId : SecurityId}
variable {o : Operand}

theorem Operand.HasValue.isFinite {x : Float} (h : o.HasValue source ops securityId x)
    (facts : source.FiniteFacts) (literals : ∀ y ∈ o.literals, y.isFinite = true) :
    x.isFinite = true := by
  cases h with
  | literal x => exact literals x List.mem_cons_self
  | fact known =>
    obtain ⟨id, -, found⟩ := known
    exact facts securityId id x found
  | node _ _ _ _ finite => exact finite

theorem Operand.value_isFinite {x : Float} (h : (o.run source ops securityId).value = some x)
    (facts : source.FiniteFacts) (literals : ∀ y ∈ o.literals, y.isFinite = true) :
    x.isFinite = true :=
  ((o.run_value_eq_some_iff x).mp h).isFinite facts literals

/-- The literals of an operation are among those of the formula around it. -/
theorem Operand.literals_of_mem_operations {e : Expression} (h : e ∈ o.operations) :
    ∀ x ∈ e.literals, x ∈ o.literals := by
  induction o with
  | «attribute» name => cases h
  | literal x => cases h
  | node op a b iha ihb =>
    intro x hx
    simp only [operations, List.mem_append, List.mem_singleton] at h
    rcases h with h | h | rfl
    · exact List.mem_append_left _ (iha h x hx)
    · exact List.mem_append_right _ (ihb h x hx)
    · exact hx

theorem eq_some_of_mem_combine {op symbol : String} {x y : Float} {result u v : Option Float}
    (h : Event.nodeEvaluated symbol x y result ∈ (combine ops op u v).2) :
    u = some x ∧ v = some y := by
  have traced : Event.nodeEvaluated symbol x y result ∈
      (combine ops op u v).2.filter (Event.isAt .trace) := List.mem_filter.mpr ⟨h, rfl⟩
  obtain ⟨x', y', hu, hv, applied⟩ := (mem_filter_combine ..).mp traced
  obtain ⟨f, -, same⟩ := (mem_trace_applyOperator ..).mp applied
  cases same
  exact ⟨hu, hv⟩

theorem Operand.traced_isFinite (facts : source.FiniteFacts)
    (literals : ∀ y ∈ o.literals, y.isFinite = true) {op : String} {x y : Float}
    {result : Option Float}
    (h : Event.nodeEvaluated op x y result ∈ (o.run source ops securityId).events) :
    x.isFinite = true ∧ y.isFinite = true := by
  induction o with
  | «attribute» name =>
    rw [run, attributeRun_events] at h
    split at h <;> simp at h
  | literal z => cases h
  | node symbol a b iha ihb =>
    obtain ⟨left, right⟩ := List.forall_mem_append.mp literals
    simp only [run, List.mem_append] at h
    rcases h with h | h | h
    · exact iha left h
    · exact ihb right h
    · obtain ⟨hx, hy⟩ := eq_some_of_mem_combine h
      exact ⟨value_isFinite hx facts left, value_isFinite hy facts right⟩

theorem Operand.run_congr_of_finite (facts : source.FiniteFacts)
    (literals : ∀ y ∈ o.literals, y.isFinite = true) (agree : ops.AgreeOnFinite ops') :
    o.run source ops securityId = o.run source ops' securityId := by
  induction o with
  | «attribute» name => rfl
  | literal x => rfl
  | node op a b iha ihb =>
    obtain ⟨left, right⟩ := List.forall_mem_append.mp literals
    have combined : combine ops op (a.run source ops securityId).value
        (b.run source ops securityId).value = combine ops' op (a.run source ops securityId).value
          (b.run source ops securityId).value := by
      cases hx : (a.run source ops securityId).value with
      | none => rfl
      | some x =>
        cases hy : (b.run source ops securityId).value with
        | none => rfl
        | some y =>
          exact applyOperator_congr_at
            (agree op x y (value_isFinite hx facts left) (value_isFinite hy facts right))
    simp only [run, ← iha left, ← ihb right, combined]

theorem Spells.finite_literals {v : Value} (h : Spells v o) (finite : v.FiniteNumbers) :
    ∀ x ∈ o.literals, x.isFinite = true := by
  induction h with
  | «attribute» name => nofun
  | literal n =>
    cases finite with
    | number finite => exact List.forall_mem_singleton.mpr finite
  | list left right iha ihb =>
    cases finite with
    | array inside =>
      exact List.forall_mem_append.mpr ⟨iha (inside _ (by simp)), ihb (inside _ (by simp))⟩
  | object symbol leftMember rightMember left right iha ihb =>
    cases finite with
    | object inside =>
      exact List.forall_mem_append.mpr ⟨iha (inside _ leftMember), ihb (inside _ rightMember)⟩

theorem Document.finite_literals_of_ofText {text : String} {d : Document}
    (parsed : Document.ofText text = .ok d) : ∀ x ∈ d.expression.literals, x.isFinite = true := by
  obtain ⟨members, v, read, member, spells⟩ := spells_of_ofText parsed
  cases Value.finiteNumbers_of_ofText read with
  | object inside => exact spells.finite_literals (inside _ member)

theorem Document.staysFinite (d : Document) (ops : OperatorRegistry) (facts : source.FiniteFacts)
    (literals : ∀ x ∈ d.expression.literals, x.isFinite = true) : d.StaysFinite source ops where
  operands securityId _ e part x y hx hy := by
    have inside := fun z hz => literals z (Operand.literals_of_mem_operations part z hz)
    obtain ⟨left, right⟩ := List.forall_mem_append.mp inside
    exact ⟨Operand.value_isFinite hx facts left, Operand.value_isFinite hy facts right⟩
  traced op x y result h := by
    unfold Document.run at h
    split at h
    · simp at h
    · exact Operand.traced_isFinite facts literals h
  value x h := by
    obtain ⟨securityId, -, value⟩ := (d.evaluateWith_eq_ok_iff x).mp h
    exact value.isFinite facts literals
  unaffected ops' agree := by
    unfold Document.run Expression.run
    simp only [Operand.run_congr_of_finite facts literals agree]

/-- Whatever its operators return, the evaluation of a document that was read from a text over a
store that was loaded meets finite numbers only. -/
theorem Document.staysFinite_of_texts {text : String} {d : Document} {store : FactStore}
    (parsed : Document.ofText text = .ok d) (loaded : store.Loaded) (ops : OperatorRegistry) :
    d.StaysFinite store.source ops :=
  d.staysFinite ops loaded.finiteFacts (finite_literals_of_ofText parsed)

/-- Multiplication always overflows, and addition has no number to give. -/
def overflowingOperators : OperatorRegistry :=
  OperatorRegistry.empty.registerAll
    [⟨"*", fun _ _ => some (1 / 0)⟩, ⟨"+", fun _ _ => some (0 / 0)⟩]

def squareText : String :=
  "\x7b\"expression\":\x7b\"fn\":\"+\",\"a\":[\"*\",1e300,1e300],\"b\":\"price\"\x7d," ++
    "\"security\":\"ABC\"\x7d"

theorem Document.staysFinite_of_square : ∃ d store, Document.ofText squareText = .ok d ∧
    Bundled.store = .ok store ∧ d.StaysFinite store.source overflowingOperators := by
  have parsed : Document.ofText squareText = .ok
      ⟨⟨"+", .node "*" (.literal 1e300) (.literal 1e300), .attribute "price"⟩, "ABC"⟩ := by
    decide +kernel
  obtain ⟨store, built⟩ := Bundled.exists_store
  exact ⟨_, store, parsed, built, staysFinite_of_texts parsed (.bundled built) _⟩

end FactFormula
