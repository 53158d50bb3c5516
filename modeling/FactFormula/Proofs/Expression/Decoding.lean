import FactFormula.Proofs.Expression.RoundTrip

/-!
Formulas through their values, with no text between. Values may be nested as deep as they like, so
a formula of any depth is decoded from its canonical value, unless it has a literal that is not
finite: where that stands no form of an operand fits.
-/
namespace FactFormula
open Json

/-- The canonical value of an operand is read as that operand or as none at all. -/
theorem Operand.ofValue_normalize_toValue (o : Operand) :
    ofValue o.toValue.normalize =
      if ∀ x ∈ o.literals, x.isFinite then .ok o else .error .noOperand := by
  have reads (o' : Operand) : operand? o.toValue.normalize = some o' ↔
      o' = o ∧ ∀ x ∈ o.literals, x.isFinite :=
    (operand?_eq_some_iff o.toValue.normalize_normal o').trans (o.spells_normalize_toValue_iff o')
  split_ifs with finite
  · exact (ofValue_eq_ok_iff ..).mpr ((reads o).mpr ⟨rfl, finite⟩)
  · have nothing : operand? o.toValue.normalize = none := by
      rw [Option.eq_none_iff_forall_ne_some]
      exact fun o' read => finite ((reads o').mp read).2
    rw [ofValue, nothing]

namespace Expression

/-- Of the members of a formula the operands are read, the left one first. -/
theorem record_ofValue_members (e : Expression) :
    record.ofValue (.object e.members) = do
      let a ← Operand.ofValue e.a.toValue.normalize
      let b ← Operand.ofValue e.b.toValue.normalize
      return ⟨e.op, a, b⟩ := by
  have operand : Operand.format.ofValue = Operand.ofValue := rfl
  rw [Record.ofValue, members, Record.fillMembers_vacant record_leftSlot.found rfl, operand]
  cases Operand.ofValue e.a.toValue.normalize with
  | error m => rfl
  | ok a =>
    rw [ok_bind, Record.fillMembers_vacant record_rightSlot.found rfl, operand]
    cases Operand.ofValue e.b.toValue.normalize with
    | error m => rfl
    | ok b => rfl

/-- The canonical value of a formula decodes to the formula, with the bits of all its literals, as
long as these are finite. One literal that is not, anywhere in the formula, and it is refused. -/
theorem ofValue_canonical_value (e : Expression) :
    format.ofValue e.toValue.normalize =
      if ∀ x ∈ e.literals, x.isFinite then .ok e else .error .noOperand := by
  have parts : (∀ x ∈ e.literals, x.isFinite) ↔
      (∀ x ∈ e.a.literals, x.isFinite) ∧ ∀ x ∈ e.b.literals, x.isFinite :=
    List.forall_mem_append
  have decoded : format.ofValue e.toValue.normalize = record.ofValue (.object e.members) := by
    rw [normalize_toValue]
    rfl
  rw [decoded, record_ofValue_members, Operand.ofValue_normalize_toValue,
    Operand.ofValue_normalize_toValue]
  simp only [parts]
  by_cases left : ∀ x ∈ e.a.literals, x.isFinite
  · rw [if_pos left, ok_bind]
    by_cases right : ∀ x ∈ e.b.literals, x.isFinite
    · rw [if_pos right, if_pos ⟨left, right⟩]
      rfl
    · rw [if_neg right, if_neg (not_and_of_not_right _ right)]
      rfl
  · rw [if_neg left, if_neg (not_and_of_not_left _ left)]
    rfl

end Expression

end FactFormula
