import FactFormula.Proofs.Expression.Grammar
import FactFormula.Proofs.Json.ReadBack

/-!
Which kinds of values are refused where an operand stands. A boolean, a null and a list are, but
for the list that spells an operation: of an otherwise good document it is read as one.
-/
namespace FactFormula
open Json

/-- The text has not the shape that was asked for. -/
def Refused {α : Type} (outcome : Except DocumentError α) : Prop :=
  ∃ fault, outcome = .error (.invalidDsl fault)

/-- From a value one comes to the operands under its `a` and `b`, and to theirs. -/
inductive Reaches : Value → Value → Prop where
  | refl (v : Value) : Reaches v v
  | left {members : List (String × Value)} {v w : Value} (member : ("a", v) ∈ members)
      (further : Reaches v w) : Reaches (.object members) w
  | right {members : List (String × Value)} {v w : Value} (member : ("b", v) ∈ members)
      (further : Reaches v w) : Reaches (.object members) w

/-- A string, a number or an object. -/
def Json.Value.isOperandKind : Value → Bool
  | .string _ | .number _ | .object _ => true
  | .null | .bool _ | .array _ => false

/-- A list of an operator and two operands. -/
def IsOperationList (v : Value) : Prop :=
  ∃ op x y, v = .array [.string op, x, y] ∧ IsOperand x ∧ IsOperand y

/-- Whatever is reached from an operand is an operand. -/
theorem IsOperand.of_reaches {v w : Value} (h : IsOperand v) (normal : v.Normal)
    (reaches : Reaches v w) : IsOperand w := by
  induction reaches with
  | refl v => exact h
  | left member further ih =>
    cases normal with
    | object sorted inside =>
      obtain ⟨_, spells⟩ := h
      cases spells with
      | object _ leftMember _ left _ =>
        cases sorted.eq_of_mem member leftMember
        exact ih ⟨_, left⟩ (inside _ member)
  | right member further ih =>
    cases normal with
    | object sorted inside =>
      obtain ⟨_, spells⟩ := h
      cases spells with
      | object _ _ rightMember _ right =>
        cases sorted.eq_of_mem member rightMember
        exact ih ⟨_, right⟩ (inside _ member)

/-- An operand of another kind is a list that spells an operation. -/
theorem IsOperand.isOperationList {v : Value} (h : IsOperand v) (kind : v.isOperandKind = false) :
    IsOperationList v := by
  obtain ⟨_, spells⟩ := h
  cases spells with
  | list left right => exact ⟨_, _, _, rfl, ⟨_, left⟩, _, right⟩
  | «attribute» | literal | object => cases kind

theorem decode_eq_ok_iff {α : Type} (f : Format α) (members : List (String × Value)) (a : α) :
    decode f members = .ok a ↔ f.ofValue (.object members) = .ok a := by
  unfold decode
  cases f.ofValue (.object members) <;> simp

/-- What is not decoded has not the right shape. -/
theorem refused_decode_iff {α : Type} (f : Format α) (members : List (String × Value)) :
    Refused (decode f members) ↔ ¬ ∃ a, decode f members = .ok a := by
  unfold Refused decode
  cases f.ofValue (.object members) <;> simp

section

variable {text : String} {members : List (String × Value)}

theorem membersOfText_eq_ok (read : Value.ofText text = .ok (.object members)) :
    membersOfText text = .ok members := by
  rw [membersOfText, read]

theorem ofText_of_membersOfText (read : membersOfText text = .ok members) :
    Value.ofText text = .ok (.object members) := by
  unfold membersOfText at read
  split at read <;> cases read
  assumption

theorem Expression.ofText_eq_ok_iff (read : Value.ofText text = .ok (.object members))
    (e : Expression) : Expression.ofText text = .ok e ↔ Spells (.object members) e.toOperand := by
  rw [Expression.ofText, membersOfText_eq_ok read, ok_bind, decode_eq_ok_iff]
  exact Expression.record_ofValue_eq_ok_iff (Value.normal_of_ofText read) e

theorem Expression.refused_iff (read : Value.ofText text = .ok (.object members)) :
    Refused (Expression.ofText text) ↔ ¬ IsExpression (.object members) := by
  have refused := refused_decode_iff Expression.format members
  rw [IsExpression, ← exists_congr fun e => Expression.ofText_eq_ok_iff read e]
  rw [Expression.ofText, membersOfText_eq_ok read, ok_bind]
  exact refused

/-- A document has both its members, so nothing is lost where the search for a missing one stops. -/
theorem Document.ofText_eq_ok_iff (read : Value.ofText text = .ok (.object members))
    (d : Document) : Document.ofText text = .ok d ↔
      (∃ v, ("expression", v) ∈ members ∧ Spells v d.expression.toOperand) ∧
        ("security", .string d.security) ∈ members := by
  have shape := Document.record_ofValue_eq_ok_iff (Value.normal_of_ofText read) d
  rw [Document.ofText, membersOfText_eq_ok read, ok_bind]
  split
  · rename_i key missing
    refine iff_of_false (fun h => by cases h) ?_
    rintro ⟨⟨v, hv, -⟩, hs⟩
    have absent := List.find?_some missing
    have listed := List.mem_of_find?_eq_some missing
    simp only [Document.keys, List.mem_cons, List.not_mem_nil, or_false] at listed
    simp only [Bool.not_eq_true', List.any_eq_false, beq_iff_eq] at absent
    rcases listed with rfl | rfl
    · exact absent _ hv rfl
    · exact absent _ hs rfl
  · rw [decode_eq_ok_iff]
    exact shape

theorem Expression.spells_of_ofText {e : Expression} (h : Expression.ofText text = .ok e) :
    ∃ members, Value.ofText text = .ok (.object members) ∧
      Spells (.object members) e.toOperand := by
  obtain ⟨members, found, -⟩ := (bind_eq_ok_iff ..).mp h
  have read := ofText_of_membersOfText found
  exact ⟨members, read, (ofText_eq_ok_iff read e).mp h⟩

theorem Document.spells_of_ofText {d : Document} (h : Document.ofText text = .ok d) :
    ∃ members v, Value.ofText text = .ok (.object members) ∧ ("expression", v) ∈ members ∧
      Spells v d.expression.toOperand := by
  obtain ⟨members, found, -⟩ := (bind_eq_ok_iff ..).mp h
  have read := ofText_of_membersOfText found
  obtain ⟨⟨v, member, spells⟩, -⟩ := (ofText_eq_ok_iff read d).mp h
  exact ⟨members, v, read, member, spells⟩

theorem Document.refused_iff (read : Value.ofText text = .ok (.object members)) :
    Refused (Document.ofText text) ↔ ¬ ((∃ v, ("expression", v) ∈ members ∧ IsExpression v) ∧
      ∃ s, ("security", .string s) ∈ members) := by
  have refused : Refused (Document.ofText text) ↔ ¬ ∃ d, Document.ofText text = .ok d := by
    rw [Document.ofText, membersOfText_eq_ok read, ok_bind]
    split
    · simp [Refused]
    · exact refused_decode_iff Document.format members
  rw [refused, not_iff_not]
  constructor
  · rintro ⟨d, hd⟩
    obtain ⟨⟨v, hv, he⟩, hs⟩ := (Document.ofText_eq_ok_iff read d).mp hd
    exact ⟨⟨v, hv, d.expression, he⟩, d.security, hs⟩
  · rintro ⟨⟨v, hv, e, he⟩, s, hs⟩
    exact ⟨⟨e, s⟩, (Document.ofText_eq_ok_iff read ⟨e, s⟩).mpr ⟨⟨v, hv, he⟩, hs⟩⟩

end

/-- A document whose left operand is a list: an operator, a number and `last`. -/
def listDocument (last : Value) : Value :=
  .object [("expression", .object [("fn", .string "+"),
      ("a", .array [.string "+", .number (.integer 1), last]), ("b", .number (.integer 1))]),
    ("security", .string "S")]

example : (listDocument (.number (.integer 2))).text =
    "\x7b\"expression\":\x7b\"fn\":\"+\",\"a\":[\"+\",1,2],\"b\":1\x7d,\"security\":\"S\"\x7d" := by
  decide +kernel

theorem ofText_listDocument (last : Value) (scalar : last.nesting = 0) (restores : last.Restores) :
    Value.ofText (listDocument last).text = .ok (.object [
      ("expression", .object [("a", .array [.string "+", .number (.integer 1), last.normalize]),
        ("b", .number (.integer 1)), ("fn", .string "+")]),
      ("security", .string "S")]) := by
  have one : (Value.number (.integer 1)).Restores := .number rfl
  have list : (Value.array [.string "+", .number (.integer 1), last]).Restores := by
    apply Value.Restores.array
    simp only [List.forall_mem_cons, List.not_mem_nil, false_imp_iff, implies_true, and_true]
    exact ⟨.string "+", one, restores⟩
  have document : (listDocument last).Restores := by
    apply Value.Restores.object
    simp only [List.forall_mem_cons, List.not_mem_nil, false_imp_iff, implies_true, and_true]
    refine ⟨.object ?_, .string "S"⟩
    simp only [List.forall_mem_cons, List.not_mem_nil, false_imp_iff, implies_true, and_true]
    exact ⟨.string "+", list, one⟩
  have fits : (listDocument last).nesting ≤ maxDepth := by
    simp [listDocument, Value.nesting, membersNesting, itemsNesting, scalar, maxDepth]
  exact document.ofText_text fits

/-- Of the texts that are objects exactly those are refused that the grammar does not spell. So a
boolean, a null or a list that is reached as an operand makes a text refused, unless it is a list
that spells an operation. -/
theorem refused_iff_not_spelled (text : String) (members : List (String × Value))
    (read : Value.ofText text = .ok (.object members)) :
    (∀ v t, ("expression", v) ∈ members → ("security", t) ∈ members →
      (Refused (Document.ofText text) ↔ ¬ (IsExpression v ∧ ∃ s, t = .string s)) ∧
      ∀ w, Reaches v w → w.isOperandKind = false → ¬ IsOperationList w →
        Refused (Document.ofText text)) ∧
    (Refused (Expression.ofText text) ↔ ¬ IsExpression (.object members)) ∧
    ∀ w, Reaches (.object members) w → w.isOperandKind = false → ¬ IsOperationList w →
      Refused (Expression.ofText text) := by
  have normal := Value.normal_of_ofText read
  refine ⟨fun v t hv ht => ?_, Expression.refused_iff read, fun w hw kind list => ?_⟩
  · cases normal with
    | object sorted inside =>
      have refused : Refused (Document.ofText text) ↔ ¬ (IsExpression v ∧ ∃ s, t = .string s) := by
        rw [Document.refused_iff read]
        refine not_congr (and_congr ?_ ?_)
        · constructor
          · rintro ⟨u, hu, he⟩
            exact sorted.eq_of_mem hu hv ▸ he
          · intro he
            exact ⟨v, hv, he⟩
        · exact exists_congr fun s => ⟨fun hs => sorted.eq_of_mem ht hs, fun hs => hs ▸ ht⟩
      refine ⟨refused, fun w hw kind list => refused.mpr ?_⟩
      rintro ⟨he, -⟩
      exact list ((he.isOperand.of_reaches (inside _ hv) hw).isOperationList kind)
  · rw [Expression.refused_iff read]
    intro he
    exact list ((he.isOperand.of_reaches normal hw).isOperationList kind)

theorem nullList_refused : Refused (Document.ofText (listDocument .null).text) := by
  have read := ofText_listDocument .null rfl .null
  have members := (refused_iff_not_spelled _ _ read).1 _ _ List.mem_cons_self
    (List.mem_cons_of_mem _ List.mem_cons_self)
  refine members.2 (.array [.string "+", .number (.integer 1), .null])
    (.left List.mem_cons_self (.refl _)) rfl ?_
  rintro ⟨op, x, y, h, -, o, spells⟩
  simp only [Value.array.injEq, List.cons.injEq, and_true] at h
  obtain ⟨-, -, rfl⟩ := h
  cases spells

/-- Not every list is refused that is reached as an operand. -/
theorem reached_list_not_always_refused :
    ¬ ∀ (text : String) (members : List (String × Value)) (v t w : Value),
      Value.ofText text = .ok (.object members) → ("expression", v) ∈ members →
        ("security", t) ∈ members → Reaches v w → w.isOperandKind = false →
          Refused (Document.ofText text) := by
  intro h
  have read := ofText_listDocument (.number (.integer 2)) rfl (.number rfl)
  obtain ⟨fault, refused⟩ := h _ _ _ _ (.array [.string "+", .number (.integer 1),
    .number (.integer 2)]) read List.mem_cons_self (List.mem_cons_of_mem _ List.mem_cons_self)
    (.left List.mem_cons_self (.refl _)) rfl
  have accepted : Document.ofText (listDocument (.number (.integer 2))).text =
      .ok ⟨⟨"+", .node "+" (.literal 1) (.literal 2), .literal 1⟩, "S"⟩ := by decide +kernel
  cases accepted.symm.trans refused

end FactFormula
