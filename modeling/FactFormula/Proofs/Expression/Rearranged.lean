import FactFormula.Proofs.Expression.Routes
import FactFormula.Proofs.Json.Reordered

/-!
Texts that differ in their layout. Blanks between tokens and the order of members, at any depth,
leave no trace in what is read as a formula or a document, nor in why it is refused.
-/
namespace FactFormula
open Json

/-- The texts differ in nothing but blanks between tokens and the order of members. -/
def Rearranged (s t : String) : Prop :=
  ∃ σ τ : TokenTree, Spaced σ.tokens s.toList ∧ Spaced τ.tokens t.toList ∧ σ.Reordered τ

section

variable {s t : String} {v w : Value}

/-- Every text that is read is a layout of its own tokens. -/
theorem rearranged_self (read : Value.ofText s = .ok v) : Rearranged s s := by
  obtain ⟨raw, rawRead, -⟩ := (bind_eq_ok_iff ..).mp read
  obtain ⟨σ, -, spaced⟩ := exists_tree_of_readWhole rawRead
  exact ⟨σ, σ, spaced, spaced, .refl σ⟩

theorem Rearranged.value_eq (same : Rearranged s t) (distinct : RepeatsNoKey s)
    (read : Value.ofText s = .ok v) (read' : Value.ofText t = .ok w) : v = w := by
  obtain ⟨σ, τ, spaced, spaced', reordered⟩ := same
  obtain ⟨raw, rawRead, normal⟩ := (bind_eq_ok_iff ..).mp read
  obtain ⟨raw', rawRead', normal'⟩ := (bind_eq_ok_iff ..).mp read'
  obtain rfl := σ.value_eq_of_readWhole spaced rawRead
  obtain rfl := τ.value_eq_of_readWhole spaced' rawRead'
  obtain ⟨-, same⟩ := reordered.normalize_eq (distinct _ rawRead)
  cases normal
  cases normal'
  exact same

theorem membersOfText_congr (same : Value.ofText s = Value.ofText t) :
    membersOfText s = membersOfText t := by
  rw [membersOfText, membersOfText, same]

theorem Expression.ofText_congr (same : Value.ofText s = Value.ofText t) :
    Expression.ofText s = Expression.ofText t := by
  rw [Expression.ofText, Expression.ofText, membersOfText_congr same]

theorem Document.ofText_congr (same : Value.ofText s = Value.ofText t) :
    Document.ofText s = Document.ofText t := by
  rw [Document.ofText, Document.ofText, membersOfText_congr same]

end

/-- Every text that is read has a layout. Texts that differ in layout only hold the same document
and the same formula, with one canonical text and one hash, or are refused for the same reason. -/
theorem layout_leaves_no_trace :
    (∀ s, (∃ v, Value.ofText s = .ok v) → Rearranged s s) ∧
    ∀ s t, Rearranged s t → RepeatsNoKey s →
      (∃ v, Value.ofText s = .ok v) → (∃ v, Value.ofText t = .ok v) →
      Document.ofText s = Document.ofText t ∧ Expression.ofText s = Expression.ofText t ∧
      (∀ d d', Document.ofText s = .ok d → Document.ofText t = .ok d' →
        d.expression.canonicalText = d'.expression.canonicalText ∧
          d.expression.hash = d'.expression.hash) ∧
      ∀ e e', Expression.ofText s = .ok e → Expression.ofText t = .ok e' →
        e.canonicalText = e'.canonicalText ∧ e.hash = e'.hash := by
  refine ⟨fun s ⟨v, read⟩ => rearranged_self read, ?_⟩
  intro s t same distinct reads reads'
  obtain ⟨v, read⟩ := reads
  obtain ⟨w, read'⟩ := reads'
  obtain rfl := same.value_eq distinct read read'
  have values : Value.ofText s = Value.ofText t := read.trans read'.symm
  have documents := Document.ofText_congr values
  have expressions := Expression.ofText_congr values
  refine ⟨documents, expressions, fun d d' read read' => ?_, fun e e' read read' => ?_⟩
  · cases read.symm.trans (documents.trans read')
    exact ⟨rfl, rfl⟩
  · cases read.symm.trans (expressions.trans read')
    exact ⟨rfl, rfl⟩

/-- No security, and a formula in which nothing is as it should be. -/
def faultyText : String :=
  "\x7b\"security\": null, \"expression\": \x7b\"fn\": null, \"a\": [], \"c\": \"price\"\x7d\x7d"

def faultyTextRearranged : String :=
  "\x7b \"expression\":\x7b\"c\":\"price\",\"a\":[ ],\"fn\":null\x7d,\n  \"security\":null \x7d\n"

namespace Faulty

def nothing : TokenTree := .scalar ⟨['n', 'u', 'l', 'l'], .null, rfl⟩

def price : TokenTree := .scalar (KeyToken.quoted "price").toScalar

def formula : List (KeyToken × TokenTree) :=
  [(.quoted "fn", nothing), (.quoted "a", .array []), (.quoted "c", price)]

def tree : TokenTree :=
  .object [(.quoted "security", nothing), (.quoted "expression", .object formula)]

def treeRearranged : TokenTree :=
  .object [(.quoted "expression", .object formula.reverse), (.quoted "security", nothing)]

theorem spaced : Spaced tree.tokens faultyText.toList :=
  spaced_of_isSpaced (by decide +kernel)

theorem rearranged : Rearranged faultyText faultyTextRearranged := by
  refine ⟨tree, treeRearranged, spaced, spaced_of_isSpaced (by decide +kernel), ?_⟩
  have inside : TokenTree.Reordered (.object formula) (.object formula.reverse) :=
    .members (List.reverse_perm formula).symm
  exact .trans (.member [(.quoted "security", nothing)] [] (.quoted "expression") inside)
    (.members (.swap ..))

theorem repeatsNoKey : RepeatsNoKey faultyText := by
  intro v read
  obtain rfl := tree.value_eq_of_readWhole spaced read
  have formula : (TokenTree.object formula).value.Distinct := by
    apply Value.Distinct.object (by decide)
    simp only [Faulty.formula, memberValues, List.forall_mem_cons, List.not_mem_nil, false_imp_iff,
      implies_true, and_true]
    exact ⟨.null, .array (List.forall_mem_nil _), .string "price"⟩
  apply Value.Distinct.object (by decide)
  simp only [memberValues, List.forall_mem_cons, List.not_mem_nil, false_imp_iff, implies_true,
    and_true]
  exact ⟨.null, formula⟩

end Faulty

theorem layout_leaves_no_trace_of_faults :
    Rearranged faultyText faultyTextRearranged ∧ RepeatsNoKey faultyText ∧
      (∃ v, Value.ofText faultyText = .ok v) ∧ (∃ v, Value.ofText faultyTextRearranged = .ok v) ∧
      Document.ofText faultyText = .error (.invalidDsl (.mismatch .noOperand)) ∧
      Document.ofText faultyTextRearranged = .error (.invalidDsl (.mismatch .noOperand)) := by
  have reads : ∃ v, Value.ofText faultyText = .ok v := ⟨Faulty.tree.value.normalize, by cbv⟩
  have reads' : ∃ v, Value.ofText faultyTextRearranged = .ok v :=
    ⟨Faulty.tree.value.normalize, by cbv⟩
  have refused : Document.ofText faultyText = .error (.invalidDsl (.mismatch .noOperand)) := by
    decide +kernel
  have same := layout_leaves_no_trace.2 _ _ Faulty.rearranged Faulty.repeatsNoKey reads reads'
  exact ⟨Faulty.rearranged, Faulty.repeatsNoKey, reads, reads', refused, same.1.symm.trans refused⟩

end FactFormula
