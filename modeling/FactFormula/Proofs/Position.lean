import Mathlib.Data.List.Nodup
import FactFormula.Expression.Basic

/-!
Positions in a formula: the turns that lead from its root to one of its parts. What is said of the
parts one after the other, an operation behind its operands, is a list in post-order.
-/
namespace FactFormula

inductive Turn where
  | left
  | right
  deriving DecidableEq

/-- The turns from the root of an operand to a part of it. -/
abbrev Position := List Turn

/-- Inside of the other position, or in a left operand where the other is in the right one. -/
def Position.Before : Position → Position → Prop
  | [], _ => False
  | _ :: _, [] => True
  | .left :: p, .left :: q => Position.Before p q
  | .left :: _, .right :: _ => True
  | .right :: _, .left :: _ => False
  | .right :: p, .right :: q => Position.Before p q

theorem Position.not_before_self (p : Position) : ¬ p.Before p := by
  induction p with
  | nil => exact id
  | cons t p ih => cases t <;> exact ih

theorem Position.pairwise_root {n : Nat} (single : n ≤ 1) :
    (List.replicate n ([] : Position)).Pairwise Position.Before := by
  match n, single with
  | 0, _ => exact .nil
  | 1, _ => exact List.pairwise_singleton _ _

theorem Position.pairwise_node {ps qs : List Position} (left : ps.Pairwise Position.Before)
    (right : qs.Pairwise Position.Before) {n : Nat} (single : n ≤ 1) :
    (ps.map (Turn.left :: ·) ++ (qs.map (Turn.right :: ·) ++ List.replicate n [])).Pairwise
      Position.Before := by
  simp only [List.pairwise_append, List.pairwise_map, List.mem_append, List.mem_map,
    List.mem_replicate]
  refine ⟨left, ⟨right, pairwise_root single, ?_⟩, ?_⟩
  · rintro _ ⟨q, -, rfl⟩ _ ⟨-, rfl⟩
    exact trivial
  · rintro _ ⟨p, -, rfl⟩ _ (⟨q, -, rfl⟩ | ⟨-, rfl⟩)
    · exact trivial
    · exact trivial

namespace Operand

/-- The part of an operand at a position. -/
def at? : Operand → Position → Option Operand
  | o, [] => some o
  | .node _ a _, .left :: p => a.at? p
  | .node _ _ b, .right :: p => b.at? p
  | .attribute _, _ :: _ => none
  | .literal _, _ :: _ => none

theorem at?_nil (o : Operand) : o.at? [] = some o := by cases o <;> rfl

theorem at?_append (o : Operand) (p q : Position) :
    o.at? (p ++ q) = (o.at? p).bind fun part => part.at? q := by
  induction p generalizing o with
  | nil => rw [List.nil_append, at?_nil, Option.bind_some]
  | cons t p ih =>
    cases o with
    | «attribute» name => simp [at?]
    | literal x => simp [at?]
    | node op a b => cases t <;> exact ih _

variable {β : Type} {R : Operand → β → Prop} {o a b : Operand} {op : String}

/-- A list holds what a relation gives to the parts of an operand: one entry for each position where
it gives anything, positions in post-order. -/
def InPostorder (o : Operand) (R : Operand → β → Prop) (entries : List β) : Prop :=
  ∃ marks : List (Position × β), marks.map Prod.snd = entries ∧
    (marks.map Prod.fst).Pairwise Position.Before ∧
    ∀ p x, (p, x) ∈ marks ↔ ∃ part, o.at? p = some part ∧ R part x

theorem InPostorder.mem_iff {entries : List β} (h : o.InPostorder R entries) (x : β) :
    x ∈ entries ↔ ∃ p part, o.at? p = some part ∧ R part x := by
  obtain ⟨marks, rfl, -, held⟩ := h
  simp only [List.mem_map, Prod.exists, exists_eq_right, held]

/-- At one position a list in post-order has one entry at most. -/
theorem InPostorder.unique {entries : List β} (h : o.InPostorder R entries) {p : Position}
    {part : Operand} {x y : β} (there : o.at? p = some part) (hx : R part x) (hy : R part y) :
    x = y := by
  obtain ⟨marks, -, sorted, held⟩ := h
  have nodup : (marks.map Prod.fst).Nodup := by
    refine List.Pairwise.imp ?_ sorted
    rintro p _ before rfl
    exact p.not_before_self before
  have mx : (p, x) ∈ marks := (held p x).mpr ⟨part, there, hx⟩
  have my : (p, y) ∈ marks := (held p y).mpr ⟨part, there, hy⟩
  exact (Prod.ext_iff.mp (List.inj_on_of_nodup_map nodup mx my rfl)).2

theorem inPostorder_leaf {here : List β} (leaf : ∀ t p, o.at? (t :: p) = none)
    (single : here.length ≤ 1) (root : ∀ x, x ∈ here ↔ R o x) : o.InPostorder R here := by
  refine ⟨here.map fun x => ([], x), by simp [Function.comp_def], ?_, ?_⟩
  · rw [List.map_map, Function.comp_def, List.map_const']
    exact Position.pairwise_root single
  · intro p x
    cases p with
    | nil => simp [at?_nil, root]
    | cons t p => simp [leaf]

/-- What is given inside the operands comes first, then what is given to the operation itself. -/
theorem inPostorder_node {as bs here : List β} (left : a.InPostorder R as)
    (right : b.InPostorder R bs) (single : here.length ≤ 1)
    (root : ∀ x, x ∈ here ↔ R (.node op a b) x) :
    (node op a b).InPostorder R (as ++ (bs ++ here)) := by
  obtain ⟨la, rfl, sortedLeft, heldLeft⟩ := left
  obtain ⟨lb, rfl, sortedRight, heldRight⟩ := right
  refine ⟨la.map (fun m => (.left :: m.1, m.2)) ++
    (lb.map (fun m => (.right :: m.1, m.2)) ++ here.map fun x => ([], x)),
    by simp [Function.comp_def], ?_, ?_⟩
  · have positions := Position.pairwise_node sortedLeft sortedRight single
    simpa only [List.map_append, List.map_map, Function.comp_def, List.map_const'] using positions
  · intro p x
    match p with
    | [] => simp [at?_nil, root]
    | .left :: p => simp [at?, heldLeft]
    | .right :: p => simp [at?, heldRight]

end Operand

end FactFormula
