import FactFormula.Expression.Parsing
import FactFormula.Proofs.Json.Slots

/-!
The grammar of formulas over JSON values, said without the readers. On normal values the readers
of operands, formulas and documents accept exactly what the grammar spells.
-/
namespace FactFormula
open Json

/-- An operation is an object with the members `fn`, `a` and `b`, or a list of these three. -/
inductive Spells : Value → Operand → Prop where
  | attribute (name : String) : Spells (.string name) (.attribute name)
  | literal (n : Number) : Spells (.number n) (.literal n.toFloat)
  | list {op : String} {v w : Value} {a b : Operand} (left : Spells v a) (right : Spells w b) :
      Spells (.array [.string op, v, w]) (.node op a b)
  | object {members : List (String × Value)} {op : String} {v w : Value} {a b : Operand}
      (symbol : ("fn", .string op) ∈ members) (leftMember : ("a", v) ∈ members)
      (rightMember : ("b", w) ∈ members) (left : Spells v a) (right : Spells w b) :
      Spells (.object members) (.node op a b)

def IsOperand (v : Value) : Prop := ∃ o, Spells v o

def IsExpression (v : Value) : Prop := ∃ e : Expression, Spells v e.toOperand

theorem IsExpression.isOperand {v : Value} (h : IsExpression v) : IsOperand v := by
  obtain ⟨e, he⟩ := h
  exact ⟨e.toOperand, he⟩

theorem memberOperands_eq_map (members : List (String × Value)) :
    memberOperands members = members.map fun m => (m.1, operand? m.2) := by
  induction members with
  | nil => rfl
  | cons m rest ih => rw [memberOperands, ih, List.map_cons]

theorem string?_eq_some_iff (v : Value) (s : String) : string? v = some s ↔ v = .string s := by
  cases v <;> simp [string?]

/-- Three items make an operation, and no other number of items does. -/
theorem operand?_array_eq_some_iff (items : List Value) (o : Operand) :
    operand? (.array items) = some o ↔ ∃ op v w a b, items = [.string op, v, w] ∧
      operand? v = some a ∧ operand? w = some b ∧ o = .node op a b := by
  rcases items with _ | ⟨u, _ | ⟨v, _ | ⟨w, _ | ⟨x, rest⟩⟩⟩⟩
  · simp [operand?]
  · simp [operand?]
  · simp [operand?]
  · simp only [operand?, Option.bind_eq_bind, Option.bind_eq_some_iff, string?_eq_some_iff,
      List.cons.injEq, and_true]
    constructor
    · rintro ⟨op, rfl, a, ha, b, hb, ho⟩
      exact ⟨op, v, w, a, b, ⟨rfl, rfl, rfl⟩, ha, hb, (Option.some.inj ho).symm⟩
    · rintro ⟨op, v', w', a, b, ⟨rfl, rfl, rfl⟩, ha, hb, rfl⟩
      exact ⟨op, rfl, a, ha, b, hb, rfl⟩
  · simp [operand?]

/-- The three members of an operation stand there once each. -/
theorem operand?_object_eq_some_iff (members : List (String × Value)) (o : Operand) :
    operand? (.object members) = some o ↔ ∃ op v w a b, sole? "fn" members = some (.string op) ∧
      sole? "a" members = some v ∧ sole? "b" members = some w ∧ operand? v = some a ∧
        operand? w = some b ∧ o = .node op a b := by
  simp only [operand?, memberOperands_eq_map, sole?_map, Option.bind_eq_bind,
    Option.bind_eq_some_iff, Option.map_eq_some_iff, string?_eq_some_iff]
  constructor
  · rintro ⟨_, hop, op, rfl, _, ⟨v, hv, rfl⟩, a, ha, _, ⟨w, hw, rfl⟩, b, hb, ho⟩
    exact ⟨op, v, w, a, b, hop, hv, hw, ha, hb, (Option.some.inj ho).symm⟩
  · rintro ⟨op, v, w, a, b, hop, hv, hw, ha, hb, rfl⟩
    exact ⟨_, hop, op, rfl, _, ⟨v, hv, rfl⟩, a, ha, _, ⟨w, hw, rfl⟩, b, hb, rfl⟩

/-- The reader of operands follows the grammar. -/
theorem operand?_eq_some_iff {v : Value} (normal : v.Normal) (o : Operand) :
    operand? v = some o ↔ Spells v o := by
  induction normal generalizing o with
  | null | bool b =>
    simp only [operand?, reduceCtorEq, false_iff]
    intro h
    cases h
  | number n =>
    simp only [operand?, Option.some.injEq]
    constructor
    · rintro rfl
      exact .literal n
    · intro h
      cases h
      rfl
  | string s =>
    simp only [operand?, Option.some.injEq]
    constructor
    · rintro rfl
      exact .attribute s
    · intro h
      cases h
      rfl
  | array inside ih =>
    rw [operand?_array_eq_some_iff]
    constructor
    · rintro ⟨op, v, w, a, b, rfl, ha, hb, rfl⟩
      exact .list ((ih v (by simp) a).mp ha) ((ih w (by simp) b).mp hb)
    · intro h
      cases h with
      | list left right =>
        exact ⟨_, _, _, _, _, rfl, (ih _ (by simp) _).mpr left, (ih _ (by simp) _).mpr right, rfl⟩
  | object sorted inside ih =>
    simp only [operand?_object_eq_some_iff, sorted.sole?_eq_some_iff]
    constructor
    · rintro ⟨op, v, w, a, b, hop, hv, hw, ha, hb, rfl⟩
      exact .object hop hv hw ((ih _ hv a).mp ha) ((ih _ hw b).mp hb)
    · intro h
      cases h with
      | object hop hv hw left right =>
        exact ⟨_, _, _, _, _, hop, hv, hw, (ih _ hv _).mpr left, (ih _ hw _).mpr right, rfl⟩

theorem Operand.ofValue_eq_ok_iff (v : Value) (o : Operand) :
    Operand.ofValue v = .ok o ↔ operand? v = some o := by
  rw [Operand.ofValue]
  cases operand? v <;> simp

theorem Format.string_ofValue_eq_ok_iff (v : Value) (s : String) :
    Format.string.ofValue v = .ok s ↔ v = .string s := by
  cases v <;> simp [Format.string, Format.simple]

namespace Expression

theorem record_symbolSlot :
    record.Slot Format.string "fn" (·.1) fun op s => (some op, s.2) where
  found := rfl
  get_put _ _ := rfl
  keeps := by
    simp only [record, List.forall_mem_cons, Format.field_ofValue_eq_ok_iff]
    simp +contextual [Format.field]

theorem record_leftSlot :
    record.Slot Operand.format "a" (·.2.1) fun a s => (s.1, some a, s.2.2) where
  found := rfl
  get_put _ _ := rfl
  keeps := by
    simp only [record, List.forall_mem_cons, Format.field_ofValue_eq_ok_iff]
    simp +contextual [Format.field]

theorem record_rightSlot :
    record.Slot Operand.format "b" (·.2.2) fun b s => (s.1, s.2.1, some b) where
  found := rfl
  get_put _ _ := rfl
  keeps := by
    simp only [record, List.forall_mem_cons, Format.field_ofValue_eq_ok_iff]
    simp +contextual [Format.field]

theorem record_apart : record.Apart := by
  unfold Record.Apart
  simp only [record, List.forall_mem_cons, Format.field_ofValue_eq_ok_iff]
  simp +contextual [Format.field]

theorem record_build_eq_ok_iff (s : Option String × Option Operand × Option Operand)
    (e : Expression) :
    record.build s = .ok e ↔ s.1 = some e.op ∧ s.2.1 = some e.a ∧ s.2.2 = some e.b := by
  simp only [record, bind_eq_ok_iff, required_eq_ok_iff, pure_eq_ok, Except.ok.injEq]
  constructor
  · rintro ⟨op, hop, a, ha, b, hb, rfl⟩
    exact ⟨hop, ha, hb⟩
  · rintro ⟨hop, ha, hb⟩
    exact ⟨e.op, hop, e.a, ha, e.b, hb, rfl⟩

/-- Which members an object needs to be read as an operation. -/
theorem record_object_eq_ok_iff (members : List (String × Value)) (e : Expression) :
    record.ofValue (.object members) = .ok e ↔ sole? "fn" members = some (.string e.op) ∧
      (∃ v, sole? "a" members = some v ∧ Operand.ofValue v = .ok e.a) ∧
        ∃ w, sole? "b" members = some w ∧ Operand.ofValue w = .ok e.b := by
  have slots {t} (ht : record.fillMembers record.vacant members = .ok t) :
      record.build t = .ok e ↔ sole? "fn" members = some (.string e.op) ∧
        (∃ v, sole? "a" members = some v ∧ Operand.ofValue v = .ok e.a) ∧
          ∃ w, sole? "b" members = some w ∧ Operand.ofValue w = .ok e.b := by
    rw [record_build_eq_ok_iff, record_symbolSlot.get_eq_some_iff ht rfl,
      record_leftSlot.get_eq_some_iff ht rfl, record_rightSlot.get_eq_some_iff ht rfl]
    simp [Format.string_ofValue_eq_ok_iff, Operand.format, Format.matched]
  simp only [Record.ofValue, bind_eq_ok_iff]
  constructor
  · rintro ⟨t, ht, h⟩
    exact (slots ht).mp h
  · intro h
    obtain ⟨hop, ⟨v, hv, ha⟩, w, hw, hb⟩ := id h
    obtain ⟨onceSymbol, hop⟩ := sole?_eq_some_iff.mp hop
    obtain ⟨onceLeft, hv⟩ := sole?_eq_some_iff.mp hv
    obtain ⟨onceRight, hw⟩ := sole?_eq_some_iff.mp hw
    obtain ⟨t, ht⟩ : ∃ t, record.fillMembers record.vacant members = .ok t := by
      apply Record.exists_fillMembers record_apart
      · simp only [record, List.forall_mem_cons, List.not_mem_nil, false_imp_iff, implies_true,
          and_true]
        exact ⟨onceSymbol, onceLeft, onceRight⟩
      · simp only [record, List.forall_mem_cons, List.not_mem_nil, false_imp_iff, implies_true,
          and_true]
        refine ⟨fun u hu => ⟨rfl, ?_⟩, fun u hu => ⟨rfl, ?_⟩, fun u hu => ⟨rfl, ?_⟩⟩
        · cases onceSymbol.eq_of_mem hop hu
          exact Format.exists_field_ofValue rfl _ _ _
        · cases onceLeft.eq_of_mem hv hu
          exact Format.exists_field_ofValue ha _ _ _
        · cases onceRight.eq_of_mem hw hu
          exact Format.exists_field_ofValue hb _ _ _
    exact ⟨t, ht, (slots ht).mpr h⟩

theorem record_array_eq_ok_iff (items : List Value) (e : Expression) :
    record.ofValue (.array items) = .ok e ↔ ∃ v w, items = [.string e.op, v, w] ∧
      Operand.ofValue v = .ok e.a ∧ Operand.ofValue w = .ok e.b := by
  rcases items with _ | ⟨u, _ | ⟨v, _ | ⟨w, _ | ⟨x, rest⟩⟩⟩⟩
  · simp [Record.ofValue, Record.fillItems, record]
  · simp [Record.ofValue, Record.fillItems, record, bind_eq_ok_iff]
  · simp [Record.ofValue, Record.fillItems, record, bind_eq_ok_iff]
  · have filled (t : Option String × Option Operand × Option Operand) :
        record.fillItems record.vacant 0 record.fields [u, v, w] = .ok t ↔
          ∃ op a b, Format.string.ofValue u = .ok op ∧ Operand.format.ofValue v = .ok a ∧
            Operand.format.ofValue w = .ok b ∧ (some op, some a, some b) = t := by
      simp [Record.fillItems, record, bind_eq_ok_iff, Format.field_ofValue_eq_ok_iff]
    simp only [Record.ofValue, bind_eq_ok_iff, filled, record_build_eq_ok_iff]
    simp [Format.string_ofValue_eq_ok_iff, Operand.format, Format.matched]
  · simp [Record.ofValue, Record.fillItems, record, bind_eq_ok_iff]

/-- The two readers of an operation agree, as a formula and as an operand. -/
theorem record_ofValue_iff_operand? (v : Value) (e : Expression) :
    record.ofValue v = .ok e ↔ operand? v = some e.toOperand := by
  cases v with
  | null | bool b | number n | string s =>
    constructor <;> intro h <;> cases h
  | array items =>
    simp only [record_array_eq_ok_iff, operand?_array_eq_some_iff, Operand.ofValue_eq_ok_iff,
      toOperand, Operand.node.injEq]
    constructor
    · rintro ⟨v, w, rfl, ha, hb⟩
      exact ⟨_, v, w, _, _, rfl, ha, hb, rfl, rfl, rfl⟩
    · rintro ⟨op, v, w, a, b, rfl, ha, hb, rfl, rfl, rfl⟩
      exact ⟨v, w, rfl, ha, hb⟩
  | object members =>
    simp only [record_object_eq_ok_iff, operand?_object_eq_some_iff, Operand.ofValue_eq_ok_iff,
      toOperand, Operand.node.injEq]
    constructor
    · rintro ⟨hop, ⟨v, hv, ha⟩, w, hw, hb⟩
      exact ⟨_, v, w, _, _, hop, hv, hw, ha, hb, rfl, rfl, rfl⟩
    · rintro ⟨op, v, w, a, b, hop, hv, hw, ha, hb, rfl, rfl, rfl⟩
      exact ⟨hop, ⟨v, hv, ha⟩, w, hw, hb⟩

/-- The reader of formulas follows the grammar. -/
theorem record_ofValue_eq_ok_iff {v : Value} (normal : v.Normal) (e : Expression) :
    record.ofValue v = .ok e ↔ Spells v e.toOperand :=
  (record_ofValue_iff_operand? v e).trans (operand?_eq_some_iff normal _)

end Expression

namespace Document

theorem record_expressionSlot :
    record.Slot Expression.format "expression" (·.1) fun e s => (some e, s.2) where
  found := rfl
  get_put _ _ := rfl
  keeps := by
    simp only [record, List.forall_mem_cons, Format.field_ofValue_eq_ok_iff]
    simp +contextual [Format.field]

theorem record_securitySlot :
    record.Slot Format.string "security" (·.2) fun t s => (s.1, some t) where
  found := rfl
  get_put _ _ := rfl
  keeps := by
    simp only [record, List.forall_mem_cons, Format.field_ofValue_eq_ok_iff]
    simp +contextual [Format.field]

theorem record_apart : record.Apart := by
  unfold Record.Apart
  simp only [record, List.forall_mem_cons, Format.field_ofValue_eq_ok_iff]
  simp +contextual [Format.field]

theorem record_build_eq_ok_iff (s : Option Expression × Option String) (d : Document) :
    record.build s = .ok d ↔ s.1 = some d.expression ∧ s.2 = some d.security := by
  simp only [record, bind_eq_ok_iff, required_eq_ok_iff, pure_eq_ok, Except.ok.injEq]
  constructor
  · rintro ⟨e, he, t, ht, rfl⟩
    exact ⟨he, ht⟩
  · rintro ⟨he, ht⟩
    exact ⟨d.expression, he, d.security, ht, rfl⟩

/-- Which members an object needs to be read as a document. -/
theorem record_object_eq_ok_iff (members : List (String × Value)) (d : Document) :
    record.ofValue (.object members) = .ok d ↔
      (∃ v, sole? "expression" members = some v ∧ Expression.record.ofValue v = .ok d.expression) ∧
        sole? "security" members = some (.string d.security) := by
  have slots {t} (ht : record.fillMembers record.vacant members = .ok t) :
      record.build t = .ok d ↔
        (∃ v, sole? "expression" members = some v ∧
          Expression.record.ofValue v = .ok d.expression) ∧
          sole? "security" members = some (.string d.security) := by
    rw [record_build_eq_ok_iff, record_expressionSlot.get_eq_some_iff ht rfl,
      record_securitySlot.get_eq_some_iff ht rfl]
    simp [Format.string_ofValue_eq_ok_iff, Expression.format, Record.format]
  simp only [Record.ofValue, bind_eq_ok_iff]
  constructor
  · rintro ⟨t, ht, h⟩
    exact (slots ht).mp h
  · intro h
    obtain ⟨⟨v, hv, he⟩, hs⟩ := id h
    obtain ⟨onceExpression, hv⟩ := sole?_eq_some_iff.mp hv
    obtain ⟨onceSecurity, hs⟩ := sole?_eq_some_iff.mp hs
    obtain ⟨t, ht⟩ : ∃ t, record.fillMembers record.vacant members = .ok t := by
      apply Record.exists_fillMembers record_apart
      · simp only [record, List.forall_mem_cons, List.not_mem_nil, false_imp_iff, implies_true,
          and_true]
        exact ⟨onceExpression, onceSecurity⟩
      · simp only [record, List.forall_mem_cons, List.not_mem_nil, false_imp_iff, implies_true,
          and_true]
        refine ⟨fun u hu => ⟨rfl, ?_⟩, fun u hu => ⟨rfl, ?_⟩⟩
        · cases onceExpression.eq_of_mem hv hu
          exact Format.exists_field_ofValue he _ _ _
        · cases onceSecurity.eq_of_mem hs hu
          exact Format.exists_field_ofValue rfl _ _ _
    exact ⟨t, ht, (slots ht).mpr h⟩

/-- A document is an object with a formula and a string under its two keys. -/
theorem record_ofValue_eq_ok_iff {members : List (String × Value)}
    (normal : (Value.object members).Normal) (d : Document) :
    record.ofValue (.object members) = .ok d ↔
      (∃ v, ("expression", v) ∈ members ∧ Spells v d.expression.toOperand) ∧
        ("security", .string d.security) ∈ members := by
  cases normal with
  | object sorted inside =>
    simp only [record_object_eq_ok_iff, sorted.sole?_eq_some_iff]
    refine and_congr_left' (exists_congr fun v => and_congr_right fun hv => ?_)
    exact Expression.record_ofValue_eq_ok_iff (inside _ hv) d.expression

end Document

end FactFormula
