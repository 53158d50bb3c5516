import FactFormula.Proofs.Expression.OperandKinds
import FactFormula.Proofs.Occurrence

/-!
Formulas and documents through their own texts. A text reads back as what it was written from
unless that is nested too deep or holds a literal that is not finite.
-/
namespace FactFormula
open Json

/-- How a text is read that was written from `a` around the formula `e`, where formulas may be
`limit` operations deep. -/
structure ReadsBack {α : Type} (outcome : Except DocumentError α) (a : α) (e : Expression)
    (limit : Nat) : Prop where
  accepted : e.depth ≤ limit → (∀ x ∈ e.literals, x.isFinite) → outcome = .ok a
  tooDeep : limit < e.depth → ∃ fault, outcome = .error (.invalidJson fault)
  refused : e.depth ≤ limit → (∃ x ∈ e.literals, ¬ x.isFinite) → Refused outcome

namespace Operand

theorem normalize_toValue_node (op : String) (a b : Operand) :
    (node op a b).toValue.normalize =
      .object [("a", a.toValue.normalize), ("b", b.toValue.normalize), ("fn", .string op)] := by
  have hab : "a" < "b" := by decide
  have hfa : ¬ "fn" < "a" := by decide
  have hfb : ¬ "fn" < "b" := by decide
  simp only [toValue, Value.normalize, normalizeMembers, insertMember, hab, hfa, hfb, if_true,
    if_false, String.reduceEq]

theorem nesting_literalValue (x : Float) : (literalValue x).nesting = 0 := by
  unfold literalValue
  split <;> rfl

theorem normalize_literalValue (x : Float) : (literalValue x).normalize = literalValue x := by
  unfold literalValue
  split <;> rfl

/-- Every operation is a container, and nothing else is. -/
theorem nesting_toValue (o : Operand) : o.toValue.nesting = o.depth := by
  induction o with
  | «attribute» name => rfl
  | literal x => exact nesting_literalValue x
  | node op a b iha ihb =>
    simp only [toValue, Value.nesting, membersNesting, iha, ihb, depth]
    omega

theorem nesting_normalize_toValue (o : Operand) : o.toValue.normalize.nesting = o.depth := by
  induction o with
  | «attribute» name => rfl
  | literal x =>
    rw [toValue, normalize_literalValue]
    exact nesting_literalValue x
  | node op a b iha ihb =>
    simp only [normalize_toValue_node, Value.nesting, membersNesting, iha, ihb, depth]
    omega

theorem restores_toValue (o : Operand)
    (restores : ∀ x ∈ o.literals, x.isFinite → RestoresBits x) : o.toValue.Restores := by
  induction o with
  | «attribute» name => exact .string name
  | literal x =>
    rw [toValue, literalValue]
    split
    · rename_i finite
      exact .number (restores x List.mem_cons_self finite).readNumber_eq
    · exact .null
  | node op a b iha ihb =>
    have left := iha fun x hx => restores x (List.mem_append_left _ hx)
    have right := ihb fun x hx => restores x (List.mem_append_right _ hx)
    apply Value.Restores.object
    simp only [List.forall_mem_cons, List.not_mem_nil, false_imp_iff, implies_true, and_true]
    exact ⟨.string op, left, right⟩

/-- The normal form of an operand spells the operand and no other, unless a literal has no
number. -/
theorem spells_normalize_toValue_iff (o o' : Operand) :
    Spells o.toValue.normalize o' ↔ o' = o ∧ ∀ x ∈ o.literals, x.isFinite := by
  induction o generalizing o' with
  | «attribute» name =>
    constructor
    · intro h
      cases h
      exact ⟨rfl, by simp [literals]⟩
    · rintro ⟨rfl, -⟩
      exact .attribute name
  | literal x =>
    rw [toValue, normalize_literalValue, literalValue]
    simp only [literals, List.forall_mem_singleton]
    split_ifs with finite
    · constructor
      · intro h
        cases h
        exact ⟨rfl, finite⟩
      · rintro ⟨rfl, -⟩
        exact .literal (.float x)
    · refine iff_of_false ?_ fun h => finite h.2
      intro h
      cases h
  | node op a b iha ihb =>
    rw [normalize_toValue_node]
    simp only [literals, List.forall_mem_append]
    constructor
    · intro h
      cases h with
      | object symbol leftMember rightMember left right =>
        simp at symbol leftMember rightMember
        subst symbol leftMember rightMember
        obtain ⟨rfl, ha⟩ := (iha _).mp left
        obtain ⟨rfl, hb⟩ := (ihb _).mp right
        exact ⟨rfl, ha, hb⟩
    · rintro ⟨rfl, ha, hb⟩
      exact .object (by simp) (by simp) (by simp) ((iha a).mpr ⟨rfl, ha⟩) ((ihb b).mpr ⟨rfl, hb⟩)

end Operand

theorem invalidJson_of_ofText {text : String} {error : Json.Error}
    (unreadable : Value.ofText text = .error error) :
    membersOfText text = .error (.invalidJson (.unreadable error)) := by
  rw [membersOfText, unreadable]

namespace Expression

variable {e : Expression} {v : Value}

/-- The members of a formula in its normal form. -/
def members (e : Expression) : List (String × Value) :=
  [("a", e.a.toValue.normalize), ("b", e.b.toValue.normalize), ("fn", .string e.op)]

theorem normalize_toValue (e : Expression) : e.toValue.normalize = .object e.members :=
  Operand.normalize_toValue_node e.op e.a e.b

theorem spells_members_iff (e f : Expression) :
    Spells (.object e.members) f.toOperand ↔ f = e ∧ ∀ x ∈ e.literals, x.isFinite := by
  rw [← normalize_toValue, toValue, Operand.spells_normalize_toValue_iff]
  refine and_congr_left' ⟨?_, fun h => h ▸ rfl⟩
  intro h
  obtain ⟨op, a, b⟩ := e
  cases h
  rfl

/-- A value with the normal form of a formula and nested as deep is written as the formula is. -/
theorem readsBack (restores : v.Restores) (same : v.normalize = e.toValue.normalize)
    (nesting : v.nesting = e.depth) : ReadsBack (Expression.ofText v.text) e e 127 := by
  have read (fits : e.depth ≤ 127) : Value.ofText v.text = .ok (.object e.members) := by
    rw [restores.ofText_text (nesting ▸ fits), same, normalize_toValue]
  refine ⟨?_, ?_, ?_⟩
  · intro fits finite
    rw [ofText_eq_ok_iff (read fits), spells_members_iff]
    exact ⟨rfl, finite⟩
  · intro deep
    obtain ⟨error, unreadable⟩ := restores.ofText_text_of_lt (nesting ▸ deep)
    rw [ofText, invalidJson_of_ofText unreadable]
    exact ⟨_, rfl⟩
  · rintro fits ⟨x, hx, infinite⟩
    rw [refused_iff (read fits)]
    rintro ⟨f, spells⟩
    exact infinite (((spells_members_iff e f).mp spells).2 x hx)

end Expression

namespace Document

variable {d : Document} {v : Value}

/-- The members of a document in its normal form. -/
def members (d : Document) : List (String × Value) :=
  [("expression", .object d.expression.members), ("security", .string d.security)]

theorem normalize_toValue (d : Document) : d.toValue.normalize = .object d.members := by
  have order : "expression" < "security" := by decide
  simp only [toValue, Value.normalize, normalizeMembers, insertMember, order, if_true,
    Expression.normalize_toValue, members]

theorem nesting_toValue (d : Document) : d.toValue.nesting = d.expression.depth + 1 := by
  have inner : d.expression.toValue.nesting = d.expression.depth :=
    Operand.nesting_toValue d.expression.toOperand
  simp [toValue, Value.nesting, membersNesting, inner]

/-- A value with the normal form of a document and nested as deep is written as the document is. -/
theorem readsBack (restores : v.Restores) (same : v.normalize = d.toValue.normalize)
    (nesting : v.nesting = d.expression.depth + 1) :
    ReadsBack (Document.ofText v.text) d d.expression 126 := by
  have read (fits : d.expression.depth ≤ 126) : Value.ofText v.text = .ok (.object d.members) := by
    rw [restores.ofText_text (nesting ▸ Nat.succ_le_succ fits), same, normalize_toValue]
  refine ⟨?_, ?_, ?_⟩
  · intro fits finite
    rw [ofText_eq_ok_iff (read fits)]
    refine ⟨⟨_, List.mem_cons_self, ?_⟩, List.mem_cons_of_mem _ List.mem_cons_self⟩
    exact (Expression.spells_members_iff _ _).mpr ⟨rfl, finite⟩
  · intro deep
    obtain ⟨error, unreadable⟩ := restores.ofText_text_of_lt (nesting ▸ Nat.succ_lt_succ deep)
    rw [ofText, invalidJson_of_ofText unreadable]
    exact ⟨_, rfl⟩
  · rintro fits ⟨x, hx, infinite⟩
    rw [refused_iff (read fits)]
    rintro ⟨⟨w, hw, f, spells⟩, -⟩
    obtain rfl : w = .object d.expression.members := by simpa [members] using hw
    exact infinite (((Expression.spells_members_iff _ f).mp spells).2 x hx)

end Document

/-- A formula and a document around it come back from their texts bit for bit, whichever order
their members are written in. Nested too deep they are unreadable, and with a literal that is not
finite they have the wrong shape. -/
theorem ofText_written (e : Expression) (security : String)
    (restores : ∀ x ∈ e.literals, x.isFinite → RestoresBits x) :
    (∀ text ∈ [e.canonicalText, e.toValue.text], ReadsBack (Expression.ofText text) e e 127) ∧
      ∀ text ∈ [(Document.mk e security).toValue.text,
          (Document.mk e security).toValue.normalize.text],
        ReadsBack (Document.ofText text) ⟨e, security⟩ e 126 := by
  have formula : e.toValue.Restores := e.toOperand.restores_toValue restores
  have document : (Document.mk e security).toValue.Restores := by
    apply Value.Restores.object
    simp only [List.forall_mem_cons, List.not_mem_nil, false_imp_iff, implies_true, and_true]
    exact ⟨formula, .string security⟩
  have inner : e.toValue.normalize.nesting = e.depth := e.toOperand.nesting_normalize_toValue
  simp only [List.forall_mem_cons, List.not_mem_nil, false_imp_iff, implies_true, and_true]
  refine ⟨⟨?_, ?_⟩, ?_, ?_⟩
  · exact Expression.readsBack formula.normalize e.toValue.normalize_normal.normalize_eq inner
  · exact Expression.readsBack formula rfl e.toOperand.nesting_toValue
  · exact Document.readsBack document rfl (Document.nesting_toValue ⟨e, security⟩)
  · refine Document.readsBack document.normalize
      (Document.mk e security).toValue.normalize_normal.normalize_eq ?_
    rw [Document.normalize_toValue]
    simp [Value.nesting, Document.members, membersNesting, ← Expression.normalize_toValue, inner]

/-- The price less a tenth, by an operator that needs an escape. -/
def discounted : Expression := ⟨"\"less\"\n", .attribute "Prix à 20 €", .literal 0.1⟩

theorem discounted_written : Expression.ofText discounted.canonicalText = .ok discounted ∧
    Document.ofText (Document.mk discounted "ACME").toValue.text = .ok ⟨discounted, "ACME"⟩ := by
  have restores : ∀ x ∈ discounted.literals, x.isFinite → RestoresBits x := by
    intro x hx _
    obtain rfl : x = 0.1 := List.mem_singleton.mp hx
    exact ⟨.float 0.1, rfl, rfl⟩
  obtain ⟨formula, document⟩ := ofText_written discounted "ACME" restores
  have finite : ∀ x ∈ discounted.literals, x.isFinite := by decide +kernel
  exact ⟨(formula _ List.mem_cons_self).accepted (by decide) finite,
    (document _ List.mem_cons_self).accepted (by decide) finite⟩

end FactFormula
