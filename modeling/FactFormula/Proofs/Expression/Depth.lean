import FactFormula.Check
import FactFormula.Evaluation.Run
import FactFormula.Proofs.Expression.RoundTrip
import FactFormula.Proofs.Json.Readings

/-!
How deep formulas are that come from texts. The reader has room for a number of containers inside
one another, and every operation takes one of them; so whatever goes through such a formula by
recursion has no more operations open at a time.
-/
namespace FactFormula
open Json

variable {α : Type}

/-- A recursion into both operands of every operation. -/
structure Recursion (α : Type) where
  onAttribute : String → α
  onLiteral : Float → α
  onNode : String → α → α → α

namespace Recursion

def result (r : Recursion α) : Operand → α
  | .attribute name => r.onAttribute name
  | .literal x => r.onLiteral x
  | .node op a b => r.onNode op (r.result a) (r.result b)

/-- The result if no more than `limit` operations may be open at a time. -/
def within (r : Recursion α) : Nat → Operand → Option α
  | _, .attribute name => some (r.onAttribute name)
  | _, .literal x => some (r.onLiteral x)
  | 0, .node .. => none
  | limit + 1, .node op a b => do return r.onNode op (← r.within limit a) (← r.within limit b)

/-- The depth of an operand is exactly what a recursion needs. -/
theorem within_eq (r : Recursion α) (limit : Nat) (o : Operand) :
    r.within limit o = if o.depth ≤ limit then some (r.result o) else none := by
  induction o generalizing limit with
  | «attribute» name => simp [within, result, Operand.depth]
  | literal x => simp [within, result, Operand.depth]
  | node op a b iha ihb =>
    cases limit with
    | zero => simp [within, Operand.depth]
    | succ limit =>
      have both : 1 + max a.depth b.depth ≤ limit + 1 ↔ a.depth ≤ limit ∧ b.depth ≤ limit := by
        omega
      rw [within, iha, ihb, result, Operand.depth, if_congr both rfl rfl]
      by_cases ha : a.depth ≤ limit <;> by_cases hb : b.depth ≤ limit <;> simp [ha, hb]

def evaluation (source : FactSource) (ops : OperatorRegistry) (securityId : SecurityId) :
    Recursion Run where
  onAttribute name := source.attributeRun securityId name
  onLiteral x := ⟨some x, [], []⟩
  onNode op left right :=
    let (value, events) := combine ops op left.value right.value
    ⟨value, left.queries ++ right.queries, left.events ++ (right.events ++ events)⟩

theorem evaluation_result (source : FactSource) (ops : OperatorRegistry) (securityId : SecurityId)
    (o : Operand) : (evaluation source ops securityId).result o = o.run source ops securityId := by
  induction o with
  | «attribute» name => rfl
  | literal x => rfl
  | node op a b iha ihb => rw [result, iha, ihb]; rfl

def check (catalog : Catalog) (ops : OperatorSet) : Recursion (Except Problem Unit) where
  onAttribute name := if catalog.hasAttribute name then .ok () else .error (.unknownAttribute name)
  onLiteral _ := .ok ()
  onNode op a b := if ops op then do a; b else .error (.unknownOperator op)

theorem check_result (catalog : Catalog) (ops : OperatorSet) (o : Operand) :
    (check catalog ops).result o = o.check catalog ops := by
  induction o with
  | «attribute» name => rfl
  | literal x => rfl
  | node op a b iha ihb => rw [result, iha, ihb]; rfl

def problems (catalog : Catalog) (ops : OperatorSet) : Recursion (List Problem) where
  onAttribute name := if catalog.hasAttribute name then [] else [.unknownAttribute name]
  onLiteral _ := []
  onNode op a b := (if ops op then [] else [.unknownOperator op]) ++ (a ++ b)

theorem problems_result (catalog : Catalog) (ops : OperatorSet) (o : Operand) :
    (problems catalog ops).result o = o.problems catalog ops := by
  induction o with
  | «attribute» name => rfl
  | literal x => rfl
  | node op a b iha ihb => rw [result, iha, ihb]; rfl

def dependencies : Recursion (Dependencies → Dependencies) where
  onAttribute name d := { d with attributes := d.attributes.insert name }
  onLiteral _ d := d
  onNode op a b d := b (a { d with operators := d.operators.insert op })

theorem dependencies_result (o : Operand) (d : Dependencies) :
    dependencies.result o d = o.addDependencies d := by
  induction o generalizing d with
  | «attribute» name => rfl
  | literal x => rfl
  | node op a b iha ihb =>
    rw [result, Operand.addDependencies, ← ihb, ← iha]
    rfl

end Recursion

/-- Each operation is a container around its operands. -/
theorem Spells.depth_le {v : Value} {o : Operand} (h : Spells v o) : o.depth ≤ v.nesting := by
  induction h with
  | «attribute» name => exact Nat.zero_le _
  | literal n => exact Nat.zero_le _
  | list left right iha ihb =>
    simp only [Operand.depth, Value.nesting, itemsNesting]
    omega
  | @object members op v w a b symbol leftMember rightMember left right iha ihb =>
    have hv : v.nesting ≤ membersNesting members := membersNesting_le_iff.mp le_rfl _ leftMember
    have hw : w.nesting ≤ membersNesting members := membersNesting_le_iff.mp le_rfl _ rightMember
    simp only [Operand.depth, Value.nesting]
    omega

theorem Expression.depth_le_of_ofText {text : String} {e : Expression}
    (h : Expression.ofText text = .ok e) : e.depth ≤ 127 := by
  obtain ⟨members, read, spells⟩ := spells_of_ofText h
  exact spells.depth_le.trans (Value.nesting_le_of_ofText read)

/-- The document is a container of its own. -/
theorem Document.depth_le_of_ofText {text : String} {d : Document}
    (h : Document.ofText text = .ok d) : d.expression.depth ≤ 126 := by
  obtain ⟨members, v, read, member, spells⟩ := spells_of_ofText h
  have inner : v.nesting ≤ membersNesting members := membersNesting_le_iff.mp le_rfl _ member
  have outer : membersNesting members + 1 ≤ 127 := Value.nesting_le_of_ofText read
  have depth : d.expression.depth ≤ v.nesting := spells.depth_le
  omega

/-- A sum of prices, `n` additions deep. -/
def priceSum : Nat → Operand
  | 0 => .attribute "price"
  | n + 1 => .node "+" (priceSum n) (.attribute "price")

theorem priceSum_depth (n : Nat) : (priceSum n).depth = n := by
  induction n with
  | zero => rfl
  | succ n ih =>
    simp only [priceSum, Operand.depth, ih]
    omega

theorem priceSum_literals (n : Nat) : (priceSum n).literals = [] := by
  induction n with
  | zero => rfl
  | succ n ih => simp [priceSum, Operand.literals, ih]

/-- The sum with one more addition, as a formula. -/
def priceFormula (n : Nat) : Expression := ⟨"+", priceSum n, .attribute "price"⟩

theorem priceFormula_depth (n : Nat) : (priceFormula n).depth = n + 1 := priceSum_depth (n + 1)

theorem priceFormula_literals (n : Nat) : (priceFormula n).literals = [] :=
  priceSum_literals (n + 1)

theorem priceFormula_restores (n : Nat) : (priceFormula n).toValue.Restores := by
  refine Operand.restores_toValue _ fun x hx => ?_
  rw [show (priceFormula n).toOperand.literals = [] from priceFormula_literals n] at hx
  cases hx

theorem Expression.ofText_priceFormula :
    Expression.ofText (priceFormula 126).toValue.text = .ok (priceFormula 126) := by
  have reads := Expression.readsBack (priceFormula_restores 126) rfl (Operand.nesting_toValue _)
  refine reads.accepted (priceFormula_depth 126).le fun x hx => ?_
  rw [priceFormula_literals] at hx
  cases hx

theorem Document.ofText_priceFormula :
    Document.ofText (Document.mk (priceFormula 125) "ACME").toValue.text =
      .ok ⟨priceFormula 125, "ACME"⟩ := by
  have restores : (Document.mk (priceFormula 125) "ACME").toValue.Restores := by
    apply Value.Restores.object
    simp only [List.forall_mem_cons, List.not_mem_nil, false_imp_iff, implies_true, and_true]
    exact ⟨priceFormula_restores 125, .string "ACME"⟩
  refine (Document.readsBack restores rfl (Document.nesting_toValue _)).accepted
    (priceFormula_depth 125).le fun x hx => ?_
  rw [priceFormula_literals] at hx
  cases hx

/-- A formula that is read is 127 operations deep at most, and one of a document 126, as some are.
So the evaluation of a document that is read, the two checks of it and the walk for its
dependencies come to their ends with 126 operations open at a time. -/
theorem depth_of_read_formulas :
    (∀ text e, Expression.ofText text = .ok e → e.depth ≤ 127) ∧
    (∀ text d, Document.ofText text = .ok d → d.expression.depth ≤ 126 ∧
      (∀ source ops securityId,
        (Recursion.evaluation source ops securityId).within 126 d.expression.toOperand =
          some (d.expression.run source ops securityId)) ∧
      (∀ catalog ops,
        (Recursion.check catalog ops).within 126 d.expression.toOperand =
            some (d.expression.check catalog ops) ∧
          (Recursion.problems catalog ops).within 126 d.expression.toOperand =
            some (d.expression.problems catalog ops)) ∧
      (Recursion.dependencies.within 126 d.expression.toOperand).map (· .empty) =
        some d.expression.dependencies) ∧
    (∃ text e, Expression.ofText text = .ok e ∧ e.depth = 127) ∧
    ∃ text d, Document.ofText text = .ok d ∧ d.expression.depth = 126 := by
  refine ⟨fun text e => Expression.depth_le_of_ofText, fun text d read => ?_,
    ⟨_, _, Expression.ofText_priceFormula, priceFormula_depth 126⟩,
    _, _, Document.ofText_priceFormula, priceFormula_depth 125⟩
  have shallow : d.expression.toOperand.depth ≤ 126 := Document.depth_le_of_ofText read
  refine ⟨shallow, fun source ops securityId => ?_, fun catalog ops => ⟨?_, ?_⟩, ?_⟩
  · rw [Recursion.within_eq, if_pos shallow, Recursion.evaluation_result]
    rfl
  · rw [Recursion.within_eq, if_pos shallow, Recursion.check_result]
    rfl
  · rw [Recursion.within_eq, if_pos shallow, Recursion.problems_result]
    rfl
  · rw [Recursion.within_eq, if_pos shallow, Option.map_some, Recursion.dependencies_result]
    rfl

end FactFormula
