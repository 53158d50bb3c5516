import Mathlib.Data.List.Count
import FactFormula.Check
import FactFormula.Proofs.Occurrence

/-!
The names that a document mentions, in the order in which a reader meets them. The problems of a
document are just those of its mentions that nobody knows; a mention that becomes known takes its
problem away and leaves the others where they are.
-/
namespace FactFormula

/-- A name at a place of a document. -/
inductive Mention where
  | security (symbol : String)
  | attribute (name : String)
  | operator (symbol : String)
  deriving DecidableEq

/-- An operation is met before its operands, the left one before the right one. -/
def Operand.mentions : Operand → List Mention
  | .attribute name => [.attribute name]
  | .literal _ => []
  | .node op a b => .operator op :: (a.mentions ++ b.mentions)

def Document.mentions (d : Document) : List Mention :=
  .security d.security :: d.expression.toOperand.mentions

def Mention.isKnown (catalog : Catalog) (ops : OperatorSet) : Mention → Bool
  | .security symbol => catalog.hasSecurity symbol
  | .attribute name => catalog.hasAttribute name
  | .operator symbol => ops symbol

def Mention.problem : Mention → Problem
  | .security symbol => .unknownSecurity symbol
  | .attribute name => .unknownAttribute name
  | .operator symbol => .unknownOperator symbol

/-- What a problem complains of. -/
def Problem.mention : Problem → Mention
  | .unknownSecurity symbol => .security symbol
  | .unknownAttribute name => .attribute name
  | .unknownOperator symbol => .operator symbol

theorem Problem.mention_problem (m : Mention) : m.problem.mention = m := by cases m <;> rfl

theorem Mention.problem_injective : Function.Injective Mention.problem :=
  Function.LeftInverse.injective Problem.mention_problem

/-- Every name that a catalog has is in the other one too. -/
structure Catalog.Within (catalog catalog' : Catalog) : Prop where
  securities : ∀ symbol, catalog.hasSecurity symbol = true → catalog'.hasSecurity symbol = true
  attributes : ∀ name, catalog.hasAttribute name = true → catalog'.hasAttribute name = true

/-- Every symbol of a set of operators is in the other one too. -/
def OperatorSet.Within (ops ops' : OperatorSet) : Prop :=
  ∀ symbol, ops symbol = true → ops' symbol = true

variable (catalog : Catalog) (ops : OperatorSet)

/-- The problems of a list of mentions, one for each that is unknown. -/
def unknownAmong (mentions : List Mention) : List Problem :=
  (mentions.filter fun m => !m.isKnown catalog ops).map Mention.problem

section Unknown

variable {catalog catalog' : Catalog} {ops ops' : OperatorSet}

theorem unknownAmong_append (ms ns : List Mention) :
    unknownAmong catalog ops (ms ++ ns) =
      unknownAmong catalog ops ms ++ unknownAmong catalog ops ns := by
  simp only [unknownAmong, List.filter_append, List.map_append]

theorem unknownAmong_cons (m : Mention) (ms : List Mention) :
    unknownAmong catalog ops (m :: ms) =
      (if m.isKnown catalog ops then [] else [m.problem]) ++ unknownAmong catalog ops ms := by
  cases h : m.isKnown catalog ops <;> simp [unknownAmong, h]

theorem count_unknownAmong (ms : List Mention) (m : Mention) :
    (unknownAmong catalog ops ms).count m.problem =
      if m.isKnown catalog ops then 0 else ms.count m := by
  rw [unknownAmong, List.count_map_of_injective _ _ Mention.problem_injective]
  split
  next known => exact List.count_eq_zero.mpr fun h => by simp [known] at h
  next unknown => exact List.count_filter (by simp [unknown])

theorem Mention.isKnown_of_within (names : catalog.Within catalog') (symbols : ops.Within ops')
    {m : Mention} (known : m.isKnown catalog ops = true) : m.isKnown catalog' ops' = true := by
  cases m with
  | security symbol => exact names.securities symbol known
  | «attribute» name => exact names.attributes name known
  | operator symbol => exact symbols symbol known

/-- What remains unknown was unknown before. -/
theorem unknownAmong_of_within (names : catalog.Within catalog') (symbols : ops.Within ops')
    (ms : List Mention) :
    unknownAmong catalog' ops' ms =
      (unknownAmong catalog ops ms).filter fun p => !p.mention.isKnown catalog' ops' := by
  rw [unknownAmong, unknownAmong, List.filter_map, List.filter_filter]
  congr 1
  refine List.filter_congr fun m _ => ?_
  rw [Function.comp_apply, Problem.mention_problem]
  cases known : m.isKnown catalog ops with
  | false => simp
  | true => simp [m.isKnown_of_within names symbols known]

end Unknown

theorem Operand.problems_eq_unknownAmong (o : Operand) :
    o.problems catalog ops = unknownAmong catalog ops o.mentions := by
  induction o with
  | «attribute» name =>
    rw [mentions, unknownAmong_cons]
    exact (List.append_nil _).symm
  | literal x => rfl
  | node op a b iha ihb =>
    rw [mentions, unknownAmong_cons, unknownAmong_append, ← iha, ← ihb]
    rfl

theorem Operand.count_mentions_attribute (o : Operand) (name : String) :
    o.mentions.count (.attribute name) = o.attributes.count name := by
  induction o with
  | «attribute» other => simp [mentions, attributes, List.count_singleton]
  | literal x => rfl
  | node op a b iha ihb => simp [mentions, attributes, iha, ihb]

theorem Operand.count_mentions_operator (o : Operand) (symbol : String) :
    o.mentions.count (.operator symbol) = o.operators.count symbol := by
  induction o with
  | «attribute» name => simp [mentions, operators]
  | literal x => rfl
  | node op a b iha ihb => simp [mentions, operators, List.count_cons, iha, ihb]

namespace Document

variable (d : Document)

theorem problems_eq_unknownAmong :
    d.problems catalog ops = unknownAmong catalog ops d.mentions := by
  rw [mentions, unknownAmong_cons, ← Operand.problems_eq_unknownAmong]
  rfl

theorem count_unknownAttribute (name : String) :
    (d.problems catalog ops).count (.unknownAttribute name) =
      if catalog.hasAttribute name then 0 else d.expression.attributes.count name := by
  have leaves : d.mentions.count (.attribute name) = d.expression.attributes.count name := by
    simp [mentions, Operand.count_mentions_attribute, Expression.attributes]
  rw [problems_eq_unknownAmong, ← leaves]
  exact count_unknownAmong d.mentions (.attribute name)

theorem count_unknownOperator (symbol : String) :
    (d.problems catalog ops).count (.unknownOperator symbol) =
      if ops symbol then 0 else d.expression.operators.count symbol := by
  have operations : d.mentions.count (.operator symbol) = d.expression.operators.count symbol := by
    simp [mentions, Operand.count_mentions_operator, Expression.operators]
  rw [problems_eq_unknownAmong, ← operations]
  exact count_unknownAmong d.mentions (.operator symbol)

theorem mem_problems_unknownAttribute (name : String) :
    .unknownAttribute name ∈ d.problems catalog ops ↔
      name ∈ d.expression.dependencies.attributes ∧ catalog.hasAttribute name = false := by
  rw [← List.count_pos_iff, count_unknownAttribute, Expression.mem_dependencies_attributes]
  cases catalog.hasAttribute name <;> simp [List.count_pos_iff]

theorem mem_problems_unknownOperator (symbol : String) :
    .unknownOperator symbol ∈ d.problems catalog ops ↔
      symbol ∈ d.expression.dependencies.operators ∧ ops symbol = false := by
  rw [← List.count_pos_iff, count_unknownOperator, Expression.mem_dependencies_operators]
  cases ops symbol <;> simp [List.count_pos_iff]

/-- The problems of a document are its unknown mentions in reading order, so that they name the
unknown dependencies of the formula, each once for each time it occurs. Where more is known, the
problems are those of before that are left. -/
theorem problems_are_unknown_mentions :
    d.problems catalog ops =
        (d.mentions.filter fun m => !m.isKnown catalog ops).map Mention.problem ∧
      (∀ name, (.unknownAttribute name ∈ d.problems catalog ops ↔
          name ∈ d.expression.dependencies.attributes ∧ catalog.hasAttribute name = false) ∧
        (d.problems catalog ops).count (.unknownAttribute name) =
          if catalog.hasAttribute name then 0 else d.expression.attributes.count name) ∧
      (∀ symbol, (.unknownOperator symbol ∈ d.problems catalog ops ↔
          symbol ∈ d.expression.dependencies.operators ∧ ops symbol = false) ∧
        (d.problems catalog ops).count (.unknownOperator symbol) =
          if ops symbol then 0 else d.expression.operators.count symbol) ∧
      ∀ catalog' ops', catalog.Within catalog' → ops.Within ops' →
        d.problems catalog' ops' =
          (d.problems catalog ops).filter fun p => !p.mention.isKnown catalog' ops' := by
  refine ⟨d.problems_eq_unknownAmong catalog ops, fun name => ?_, fun symbol => ?_, ?_⟩
  · exact ⟨d.mem_problems_unknownAttribute catalog ops name,
      d.count_unknownAttribute catalog ops name⟩
  · exact ⟨d.mem_problems_unknownOperator catalog ops symbol,
      d.count_unknownOperator catalog ops symbol⟩
  · intro catalog' ops' names symbols
    rw [problems_eq_unknownAmong, problems_eq_unknownAmong]
    exact unknownAmong_of_within names symbols d.mentions

/-- Two operations and two attributes, of which one attribute occurs twice. -/
def guess : Document where
  expression := ⟨"^", .node "+" (.attribute "beta") (.literal 2),
    .node "?" (.attribute "price") (.attribute "beta")⟩
  security := "ABC"

/-- A catalog of no names at all. -/
def noNames : Catalog := ⟨fun _ => false, fun _ => false⟩

def priceOnly : Catalog := ⟨fun _ => false, fun name => name == "price"⟩

/-- The price and the sum become known, and the other problems stay in their order. -/
theorem problems_are_unknown_mentions_guess :
    noNames.Within priceOnly ∧ OperatorSet.Within (fun _ => false) Arithmetic.operatorSet ∧
      [.unknownSecurity "ABC", .unknownOperator "^", .unknownAttribute "beta",
          .unknownOperator "?", .unknownAttribute "beta"] =
        (guess.problems noNames fun _ => false).filter fun p =>
          !p.mention.isKnown priceOnly Arithmetic.operatorSet := by
  have names : noNames.Within priceOnly := ⟨nofun, nofun⟩
  have symbols : OperatorSet.Within (fun _ => false) Arithmetic.operatorSet := nofun
  obtain ⟨-, -, -, grown⟩ := guess.problems_are_unknown_mentions noNames fun _ => false
  refine ⟨names, symbols, ?_⟩
  rw [← grown priceOnly Arithmetic.operatorSet names symbols]
  decide

end Document

end FactFormula
