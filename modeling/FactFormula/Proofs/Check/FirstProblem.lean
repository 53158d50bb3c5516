import FactFormula.Check
import FactFormula.Proofs.Outcome

/-!
The check that stops and the one that goes on. The former fails with the first problem that the
latter lists, and succeeds when the list is empty.
-/
namespace FactFormula

/-- Success without problems, and failure with the first one of those there are. -/
structure FirstOf (outcome : Except Problem Unit) (problems : List Problem) : Prop where
  clean : outcome = .ok () ↔ problems = []
  first : ∀ p, outcome = .error p ↔ problems.head? = some p

namespace FirstOf

variable {x y : Except Problem Unit} {p : Problem} {ps qs : List Problem}

theorem nil : FirstOf (.ok ()) [] := ⟨by simp, by simp⟩

theorem cons (p : Problem) (ps : List Problem) : FirstOf (.error p) (p :: ps) :=
  ⟨by simp, by simp⟩

/-- A step that fails hides what the next one finds. -/
theorem bind (hx : FirstOf x ps) (hy : FirstOf y qs) : FirstOf (x >>= fun _ => y) (ps ++ qs) := by
  cases x with
  | ok u =>
    obtain rfl : ps = [] := hx.clean.mp rfl
    simpa using hy
  | error p =>
    obtain ⟨rest, rfl⟩ : ∃ rest, ps = p :: rest :=
      List.head?_eq_some_iff.mp ((hx.first p).mp rfl)
    exact cons p (rest ++ qs)

/-- A condition on names is looked at before what follows. -/
theorem guard (known : Bool) (p : Problem) (hx : FirstOf x ps) :
    FirstOf (if known then x else .error p) ((if known then [] else [p]) ++ ps) := by
  cases known with
  | true => simpa using hx
  | false => exact cons p ps

end FirstOf

variable (catalog : Catalog) (ops : OperatorSet)

theorem Operand.firstOf_check (o : Operand) :
    FirstOf (o.check catalog ops) (o.problems catalog ops) := by
  induction o with
  | «attribute» name =>
    have step := FirstOf.nil.guard (catalog.hasAttribute name) (.unknownAttribute name)
    rwa [List.append_nil] at step
  | literal x => exact .nil
  | node op a b iha ihb => exact (iha.bind ihb).guard (ops op) (.unknownOperator op)

/-- Whether a problem is one of a formula. -/
def Problem.ofFormula : Problem → Bool
  | .unknownSecurity _ => false
  | .unknownAttribute _ => true
  | .unknownOperator _ => true

theorem Operand.ofFormula_of_mem_problems (o : Operand) :
    ∀ p ∈ o.problems catalog ops, p.ofFormula = true := by
  induction o with
  | «attribute» name =>
    unfold problems
    split <;> simp [Problem.ofFormula]
  | literal x => simp [problems]
  | node op a b iha ihb =>
    simp only [problems, List.forall_mem_append]
    refine ⟨?_, iha, ihb⟩
    split <;> simp [Problem.ofFormula]

namespace Document

/-- What is listed for a document and is no problem of its security is listed for its formula. -/
theorem filter_ofFormula_problems (d : Document) :
    (d.problems catalog ops).filter Problem.ofFormula = d.expression.problems catalog ops := by
  have formula : (d.expression.problems catalog ops).filter Problem.ofFormula =
      d.expression.problems catalog ops :=
    List.filter_eq_self.mpr (d.expression.toOperand.ofFormula_of_mem_problems catalog ops)
  rw [problems, List.filter_append, formula]
  split <;> simp [Problem.ofFormula]

/-- The check of a document fails with the first of its problems, and the check of its formula with
the first of those that are problems of the formula. -/
theorem check_fails_with_first (d : Document) :
    FirstOf (d.check catalog ops) (d.problems catalog ops) ∧
      FirstOf (d.expression.check catalog ops)
        ((d.problems catalog ops).filter Problem.ofFormula) := by
  have formula : FirstOf (d.expression.check catalog ops) (d.expression.problems catalog ops) :=
    d.expression.toOperand.firstOf_check catalog ops
  constructor
  · exact formula.guard (catalog.hasSecurity d.security) (.unknownSecurity d.security)
  · rwa [filter_ofFormula_problems]

end Document

end FactFormula
