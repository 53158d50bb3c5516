import FactFormula.Proofs.Expression.OperandKinds
import FactFormula.Proofs.Json.Repeated
import FactFormula.Proofs.Json.Straight

/-!
Two ways to a formula or a document: straight off the text, and by way of a value in normal form.
What the first accepts the second accepts as the same; the converse fails only where a key is
repeated, because the second has forgotten all members but the last.
-/
namespace FactFormula
open Json

/-- The normal form of a value is the same operand. -/
theorem operand?_normalize {v : Value} {o : Operand} (h : operand? v = some o) :
    operand? v.normalize = some o := by
  induction v generalizing o with
  | null | bool b | number n | string s => exact h
  | array items ih =>
    rw [Value.normalize, normalizeItems_eq_map]
    obtain ⟨op, v, w, a, b, rfl, ha, hb, rfl⟩ := (operand?_array_eq_some_iff ..).mp h
    exact (operand?_array_eq_some_iff ..).mpr
      ⟨op, v.normalize, w.normalize, a, b, rfl, ih v (by simp) ha, ih w (by simp) hb, rfl⟩
  | object members ih =>
    obtain ⟨op, v, w, a, b, hop, hv, hw, ha, hb, rfl⟩ := (operand?_object_eq_some_iff ..).mp h
    exact (operand?_object_eq_some_iff ..).mpr
      ⟨op, v.normalize, w.normalize, a, b, sole?_normalizeMembers hop, sole?_normalizeMembers hv,
        sole?_normalizeMembers hw, ih _ (sole?_eq_some_iff.mp hv).2 ha,
        ih _ (sole?_eq_some_iff.mp hw).2 hb, rfl⟩

theorem normalize_eq_string_iff {v : Value} {s : String} :
    v.normalize = .string s ↔ v = .string s := by
  cases v <;> simp [Value.normalize]

/-- Where no key is repeated, nothing is an operand only in the normal form. -/
theorem operand?_of_normalize {v : Value} (distinct : v.Distinct) {o : Operand}
    (h : operand? v.normalize = some o) : operand? v = some o := by
  induction distinct generalizing o with
  | null | bool b | number n | string s => exact h
  | @array items inside ih =>
    rw [Value.normalize, normalizeItems_eq_map] at h
    obtain ⟨op, v, w, a, b, same, ha, hb, rfl⟩ := (operand?_array_eq_some_iff ..).mp h
    obtain ⟨_, operands, rfl, hop, two⟩ := List.map_eq_cons_iff.mp same
    obtain ⟨v, _, rfl, rfl, one⟩ := List.map_eq_cons_iff.mp two
    obtain ⟨w, _, rfl, rfl, none⟩ := List.map_eq_cons_iff.mp one
    obtain rfl := List.map_eq_nil_iff.mp none
    obtain rfl := normalize_eq_string_iff.mp hop
    exact (operand?_array_eq_some_iff ..).mpr
      ⟨op, v, w, a, b, rfl, ih v (by simp) ha, ih w (by simp) hb, rfl⟩
  | object keys inside ih =>
    obtain ⟨op, _, _, a, b, hop', hv', hw', ha, hb, rfl⟩ := (operand?_object_eq_some_iff ..).mp h
    obtain ⟨_, hop, same⟩ := exists_sole?_of_normalizeMembers (once_of_nodup keys _) hop'
    obtain ⟨v, hv, rfl⟩ := exists_sole?_of_normalizeMembers (once_of_nodup keys _) hv'
    obtain ⟨w, hw, rfl⟩ := exists_sole?_of_normalizeMembers (once_of_nodup keys _) hw'
    obtain rfl := normalize_eq_string_iff.mp same
    exact (operand?_object_eq_some_iff ..).mpr
      ⟨op, v, w, a, b, hop, hv, hw, ih _ (sole?_eq_some_iff.mp hv).2 ha,
        ih _ (sole?_eq_some_iff.mp hw).2 hb, rfl⟩

namespace Expression

variable {text : String} {v : Value} {e : Expression}

theorem format_streams : Expression.format.Streams := by
  apply Record.format_streams
  simp only [record, List.forall_mem_cons, List.not_mem_nil, false_imp_iff, implies_true, and_true]
  exact ⟨Format.string_streams.field _ _ _, (Format.matched_streams _).field _ _ _,
    (Format.matched_streams _).field _ _ _⟩

theorem format_ofText_eq_ok_iff (read : readWhole (readValue maxDepth) text = .ok v) :
    Expression.format.ofText text = .ok e ↔ operand? v = some e.toOperand :=
  (format_streams.ofText_eq_ok_iff read e).trans (record_ofValue_iff_operand? v e)

theorem ofText_eq_ok_iff_operand? {members : List (String × Value)}
    (read : Value.ofText text = .ok (.object members)) :
    Expression.ofText text = .ok e ↔ operand? (.object members) = some e.toOperand := by
  rw [operand?_eq_some_iff (Value.normal_of_ofText read), ofText_eq_ok_iff read]

end Expression

namespace Document

variable {text : String} {members raw : List (String × Value)} {d : Document}

theorem format_streams : Document.format.Streams := by
  apply Record.format_streams
  simp only [record, List.forall_mem_cons, List.not_mem_nil, false_imp_iff, implies_true, and_true]
  exact ⟨Expression.format_streams.field _ _ _, Format.string_streams.field _ _ _⟩

theorem format_ofText_eq_ok_iff (read : readWhole (readValue maxDepth) text = .ok (.object raw)) :
    Document.format.ofText text = .ok d ↔
      (∃ v, sole? "expression" raw = some v ∧ operand? v = some d.expression.toOperand) ∧
        sole? "security" raw = some (.string d.security) := by
  refine (format_streams.ofText_eq_ok_iff read d).trans ?_
  refine (record_object_eq_ok_iff raw d).trans ?_
  simp only [Expression.record_ofValue_iff_operand?]

theorem ofText_eq_ok_iff_sole? (read : Value.ofText text = .ok (.object members)) :
    Document.ofText text = .ok d ↔
      (∃ v, sole? "expression" members = some v ∧ operand? v = some d.expression.toOperand) ∧
        sole? "security" members = some (.string d.security) := by
  rw [ofText_eq_ok_iff read]
  cases Value.normal_of_ofText read with
  | object sorted inside =>
    simp only [sorted.sole?_eq_some_iff]
    refine and_congr_left' (exists_congr fun v => and_congr_right fun hv => ?_)
    exact (operand?_eq_some_iff (inside _ hv) _).symm

end Document

/-- No object in the text repeats a key. -/
def RepeatsNoKey (text : String) : Prop :=
  ∀ v, readWhole (readValue maxDepth) text = .ok v → v.Distinct

theorem exists_raw_of_ofText {text : String} {members : List (String × Value)}
    (read : Value.ofText text = .ok (.object members)) :
    ∃ raw, readWhole (readValue maxDepth) text = .ok (.object raw) ∧
      normalizeMembers raw = members := by
  obtain ⟨v, raw, same⟩ := (bind_eq_ok_iff ..).mp read
  cases v <;> cases same
  exact ⟨_, raw, rfl⟩

/-- A formula or a document that is read straight off a text is what the text holds by way of its
value. If no key is repeated, the converse holds too; of repeated keys the value has the last. -/
theorem routes_agree {text : String} {members : List (String × Value)}
    (read : Value.ofText text = .ok (.object members)) :
    (∀ e, Expression.format.ofText text = .ok e → Expression.ofText text = .ok e) ∧
    (∀ d, Document.format.ofText text = .ok d → Document.ofText text = .ok d) ∧
    (RepeatsNoKey text →
      (∀ e, Expression.ofText text = .ok e → Expression.format.ofText text = .ok e) ∧
      ∀ d, Document.ofText text = .ok d → Document.format.ofText text = .ok d) ∧
    ∀ raw, readWhole (readValue maxDepth) text = .ok (.object raw) →
      ∀ key v, (key, v) ∈ members ↔ ∃ w, IsLast key w raw ∧ w.normalize = v := by
  obtain ⟨raw, rawRead, rfl⟩ := exists_raw_of_ofText read
  refine ⟨fun e h => ?_, fun d h => ?_, fun repeatsNo => ?_, fun raw' rawRead' key v => ?_⟩
  · rw [Expression.format_ofText_eq_ok_iff rawRead] at h
    exact (Expression.ofText_eq_ok_iff_operand? read).mpr (operand?_normalize h)
  · obtain ⟨⟨v, hv, he⟩, hs⟩ := (Document.format_ofText_eq_ok_iff rawRead).mp h
    exact (Document.ofText_eq_ok_iff_sole? read).mpr
      ⟨⟨v.normalize, sole?_normalizeMembers hv, operand?_normalize he⟩, sole?_normalizeMembers hs⟩
  · have distinct := repeatsNo _ rawRead
    refine ⟨fun e h => ?_, fun d h => ?_⟩
    · rw [Expression.ofText_eq_ok_iff_operand? read] at h
      exact (Expression.format_ofText_eq_ok_iff rawRead).mpr (operand?_of_normalize distinct h)
    · obtain ⟨⟨_, hv', he⟩, hs'⟩ := (Document.ofText_eq_ok_iff_sole? read).mp h
      cases distinct with
      | object keys inside =>
        obtain ⟨v, hv, rfl⟩ := exists_sole?_of_normalizeMembers (once_of_nodup keys _) hv'
        obtain ⟨t, hs, same⟩ := exists_sole?_of_normalizeMembers (once_of_nodup keys _) hs'
        obtain rfl := normalize_eq_string_iff.mp same
        have member := (sole?_eq_some_iff.mp hv).2
        exact (Document.format_ofText_eq_ok_iff rawRead).mpr
          ⟨⟨v, hv, operand?_of_normalize (inside _ member) he⟩, hs⟩
  · cases rawRead.symm.trans rawRead'
    exact mem_normalizeMembers_iff

/-- The price plus twice the earnings, with a member that is no field. -/
def notedFormula : Value := .object [("note", .array [.object [], .null]), ("fn", .string "+"),
  ("b", .array [.string "*", .number (.integer 2), .string "eps"]), ("a", .string "price")]

def notedExpression : Expression :=
  ⟨"+", .attribute "price", .node "*" (.literal 2) (.attribute "eps")⟩

theorem routes_agree_on_notedFormula : RepeatsNoKey notedFormula.text ∧
    Expression.ofText notedFormula.text = .ok notedExpression ∧
      Expression.format.ofText notedFormula.text = .ok notedExpression := by
  have restores : notedFormula.Restores := by
    have two : (Value.number (.integer 2)).Restores := .number rfl
    apply Value.Restores.object
    simp only [List.forall_mem_cons, List.not_mem_nil, false_imp_iff, implies_true, and_true]
    refine ⟨.array ?_, .string "+", .array ?_, .string "price"⟩
    · simp only [List.forall_mem_cons, List.not_mem_nil, false_imp_iff, implies_true, and_true]
      exact ⟨.object nofun, .null⟩
    · simp only [List.forall_mem_cons, List.not_mem_nil, false_imp_iff, implies_true, and_true]
      exact ⟨.string "*", two, .string "eps"⟩
  have distinct : notedFormula.Distinct := by
    apply Value.Distinct.object (by decide)
    simp only [List.forall_mem_cons, List.not_mem_nil, false_imp_iff, implies_true, and_true]
    refine ⟨.array ?_, .string "+", .array ?_, .string "price"⟩
    · simp only [List.forall_mem_cons, List.not_mem_nil, false_imp_iff, implies_true, and_true]
      exact ⟨.object .nil nofun, .null⟩
    · simp only [List.forall_mem_cons, List.not_mem_nil, false_imp_iff, implies_true, and_true]
      exact ⟨.string "*", .number _, .string "eps"⟩
  have repeatsNo : RepeatsNoKey notedFormula.text := by
    intro v read
    cases read.symm.trans (restores.readWhole_text (by decide))
    exact distinct
  have accepted : Expression.ofText notedFormula.text = .ok notedExpression := by decide +kernel
  obtain ⟨-, -, converse, -⟩ := routes_agree (restores.ofText_text (by decide))
  exact ⟨repeatsNo, accepted, (converse repeatsNo).1 _ accepted⟩

/-- The members of a formula whose left operand is given twice. -/
def doubledText : String := "\x7b\"fn\":\"+\",\"a\":1,\"a\":2,\"b\":3\x7d"

/-- Of a repeated key one way takes the last member, and the other takes none. -/
example : Expression.ofText doubledText = .ok ⟨"+", .literal 2, .literal 3⟩ ∧
    (Expression.format.ofText doubledText).toOption = none := by
  decide +kernel

end FactFormula
