import FactFormula.Proofs.Evaluation.Meaning
import FactFormula.Proofs.Position

/-!
Where a value is lost. An operand without a value has a part that is to blame: it has none although
all parts inside of it have one. Parts to blame do not lie in each other.
-/
namespace FactFormula

variable {source : FactSource} {ops : OperatorRegistry} {securityId : SecurityId}

namespace Operand

/-- Why an operand has no value although its parts have, and the event that says so. -/
inductive Cause (source : FactSource) (ops : OperatorRegistry) (securityId : SecurityId) :
    Operand → Event → Prop where
  | unresolved {name : String} {e : LookupError}
      (failed : source.lookup securityId name = .error e) :
      Cause source ops securityId (.attribute name) (.operandNotResolved name securityId e)
  | unknownOperator {op : String} {a b : Operand} {x y : Float}
      (left : a.HasValue source ops securityId x) (right : b.HasValue source ops securityId y)
      (unregistered : ops.get? op = none) :
      Cause source ops securityId (.node op a b) (.unknownOperator op)
  | noFiniteValue {op : String} {a b : Operand} {f : Operator} {x y : Float}
      (left : a.HasValue source ops securityId x) (right : b.HasValue source ops securityId y)
      (registered : ops.get? op = some f)
      (infinite : ∀ z, f.apply x y = some z → z.isFinite = false) :
      Cause source ops securityId (.node op a b) (.noFiniteValue op x y)

variable {o : Operand} {e : Event} {x : Float}

theorem HasValue.at (h : o.HasValue source ops securityId x) {p : Position} {part : Operand}
    (there : o.at? p = some part) : ∃ y, part.HasValue source ops securityId y := by
  induction h generalizing p with
  | literal x =>
    cases p with
    | nil => cases there; exact ⟨x, .literal x⟩
    | cons t p => simp [at?] at there
  | fact known =>
    cases p with
    | nil => cases there; exact ⟨_, .fact known⟩
    | cons t p => simp [at?] at there
  | node registered left right applied finite iha ihb =>
    cases p with
    | nil => cases there; exact ⟨_, .node registered left right applied finite⟩
    | cons t p =>
      cases t with
      | left => exact iha there
      | right => exact ihb there

theorem Cause.not_hasValue (h : o.Cause source ops securityId e) :
    ¬ ∃ x, o.HasValue source ops securityId x := by
  rintro ⟨z, value⟩
  cases h with
  | unresolved failed =>
    cases value with
    | fact known =>
      rw [← FactSource.lookup_eq_ok_iff] at known
      cases failed.symm.trans known
  | unknownOperator left right unregistered =>
    cases value with
    | node registered _ _ _ _ => cases unregistered.symm.trans registered
  | noFiniteValue left right registered infinite =>
    cases value with
    | node registered' left' right' applied finite =>
      cases registered.symm.trans registered'
      cases left.unique left'
      cases right.unique right'
      rw [infinite z applied] at finite
      cases finite

/-- What has a cause of its own fails for no part of it. -/
theorem Cause.inner_hasValue (h : o.Cause source ops securityId e) {t : Turn} {p : Position}
    {part : Operand} (there : o.at? (t :: p) = some part) :
    ∃ y, part.HasValue source ops securityId y := by
  cases h with
  | unresolved failed => simp [at?] at there
  | unknownOperator left right unregistered =>
    cases t with
    | left => exact left.at there
    | right => exact right.at there
  | noFiniteValue left right registered infinite =>
    cases t with
    | left => exact left.at there
    | right => exact right.at there

theorem exists_cause_attribute {name : String}
    (h : ¬ ∃ x, (Operand.attribute name).HasValue source ops securityId x) :
    ∃ e, (Operand.attribute name).Cause source ops securityId e := by
  cases found : source.lookup securityId name with
  | error e => exact ⟨_, .unresolved found⟩
  | ok x => exact absurd ⟨x, .fact ((source.lookup_eq_ok_iff name x).mp found)⟩ h

theorem exists_cause_node {op : String} {a b : Operand} {x y : Float}
    (left : a.HasValue source ops securityId x) (right : b.HasValue source ops securityId y)
    (h : ¬ ∃ z, (node op a b).HasValue source ops securityId z) :
    ∃ e, (node op a b).Cause source ops securityId e := by
  cases registered : ops.get? op with
  | none => exact ⟨_, .unknownOperator left right registered⟩
  | some f =>
    refine ⟨_, .noFiniteValue left right registered fun z applied => ?_⟩
    rw [← Bool.not_eq_true]
    exact fun finite => h ⟨z, .node registered left right applied finite⟩

/-- The operands with a cause are the least ones without a value. -/
theorem exists_cause_iff (o : Operand) :
    (∃ e, o.Cause source ops securityId e) ↔
      (¬ ∃ x, o.HasValue source ops securityId x) ∧
        ∀ t p part, o.at? (t :: p) = some part →
          ∃ y, part.HasValue source ops securityId y := by
  constructor
  · rintro ⟨e, cause⟩
    exact ⟨cause.not_hasValue, fun t p part there => cause.inner_hasValue there⟩
  · rintro ⟨missing, inner⟩
    cases o with
    | «attribute» name => exact exists_cause_attribute missing
    | literal x => exact absurd ⟨x, .literal x⟩ missing
    | node op a b =>
      obtain ⟨x, left⟩ := inner .left [] a (at?_nil a)
      obtain ⟨y, right⟩ := inner .right [] b (at?_nil b)
      exact exists_cause_node left right missing

/-- Without a value there is a part where the cause lies. -/
theorem exists_cause_at (o : Operand) (h : ¬ ∃ x, o.HasValue source ops securityId x) :
    ∃ p part e, o.at? p = some part ∧ part.Cause source ops securityId e := by
  induction o with
  | «attribute» name =>
    obtain ⟨e, cause⟩ := exists_cause_attribute h
    exact ⟨[], _, e, rfl, cause⟩
  | literal x => exact absurd ⟨x, .literal x⟩ h
  | node op a b iha ihb =>
    by_cases left : ∃ x, a.HasValue source ops securityId x
    · by_cases right : ∃ y, b.HasValue source ops securityId y
      · obtain ⟨⟨x, left⟩, ⟨y, right⟩⟩ := And.intro left right
        obtain ⟨e, cause⟩ := exists_cause_node left right h
        exact ⟨[], _, e, rfl, cause⟩
      · obtain ⟨p, part, e, there, cause⟩ := ihb right
        exact ⟨.right :: p, part, e, there, cause⟩
    · obtain ⟨p, part, e, there, cause⟩ := iha left
      exact ⟨.left :: p, part, e, there, cause⟩

/-- No cause lies inside of another. -/
theorem Cause.position_eq {p q : Position} {part part' : Operand} {e' : Event}
    (there : o.at? p = some part) (there' : o.at? q = some part')
    (cause : part.Cause source ops securityId e) (cause' : part'.Cause source ops securityId e')
    (nested : p <+: q) : p = q := by
  obtain ⟨r, rfl⟩ := nested
  rw [at?_append, there, Option.bind_some] at there'
  cases r with
  | nil => rw [List.append_nil]
  | cons t r => exact absurd (cause.inner_hasValue there') cause'.not_hasValue

end Operand

end FactFormula
