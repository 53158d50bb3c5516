import Mathlib.Data.String.Basic
import FactFormula.Check
import FactFormula.Proofs.Evaluation.Locality
import FactFormula.Proofs.Text.ByteOrder

/-!
Registries and what has been registered in them. After any number of registrations a registry holds
of each symbol the operator that was registered last, and nothing of those before it; two
registries with the same last operators evaluate and check every document alike.
-/
namespace FactFormula

/-- What a registry can begin with. -/
inductive OperatorRegistry.Origin where
  | empty
  | builtins

namespace OperatorRegistry

def Origin.registry : Origin → OperatorRegistry
  | .empty => .empty
  | .builtins => .builtins

/-- The operators that are registered from the beginning. -/
def Origin.operators : Origin → List Operator
  | .empty => []
  | .builtins => Arithmetic.all.map Arithmetic.operator

/-- Of the operators that go by a symbol the one that was registered last. -/
def latest? (history : List Operator) (symbol : String) : Option Operator :=
  history.reverse.find? (·.symbol == symbol)

/-- A registry holds of every symbol the operator that was registered last, under the symbol that
the operator goes by. Its list of symbols is in the order of their bytes. -/
structure Holds (r : OperatorRegistry) (history : List Operator) : Prop where
  latest : ∀ s, r.get? s = latest? history s
  last : ∀ s f, r.get? s = some f ↔ f.symbol = s ∧
    ∃ earlier later, history = earlier ++ f :: later ∧ ∀ g ∈ later, g.symbol ≠ s
  absent : ∀ s, r.get? s = none ↔ ∀ f ∈ history, f.symbol ≠ s
  contains : ∀ s, r.contains s = true ↔ ∃ f, r.get? s = some f
  operatorSet : ∀ s, r.operatorSet s = true ↔ ∃ f, r.get? s = some f
  symbols : ∀ s, s ∈ r.symbols ↔ ∃ f ∈ history, f.symbol = s
  sorted : r.symbols.Pairwise fun s t => Text.bytes s < Text.bytes t

section Latest

variable {r r' : OperatorRegistry} {history : List Operator} {f : Operator} {s : String}

theorem latest?_append_singleton (history : List Operator) (f : Operator) (s : String) :
    latest? (history ++ [f]) s = if f.symbol = s then some f else latest? history s := by
  rw [latest?, List.reverse_append, List.reverse_singleton, List.singleton_append,
    List.find?_cons]
  split <;> simp_all [latest?]

/-- The last operator of a symbol goes by it, and none of those registered after it does. -/
theorem latest?_eq_some_iff : latest? history s = some f ↔ f.symbol = s ∧
    ∃ earlier later, history = earlier ++ f :: later ∧ ∀ g ∈ later, g.symbol ≠ s := by
  rw [latest?, List.find?_eq_some_iff_append, beq_iff_eq]
  refine and_congr_right fun _ => ?_
  constructor
  · rintro ⟨later, earlier, order, none⟩
    refine ⟨earlier.reverse, later.reverse, ?_, by simpa using none⟩
    simpa using congrArg List.reverse order
  · rintro ⟨earlier, later, rfl, none⟩
    exact ⟨later.reverse, earlier.reverse, by simp, by simpa using none⟩

theorem latest?_eq_none_iff : latest? history s = none ↔ ∀ f ∈ history, f.symbol ≠ s := by
  simp [latest?]

theorem get?_register_eq_latest? (h : ∀ s, r.get? s = latest? history s) (f : Operator)
    (s : String) : (r.register f).get? s = latest? (history ++ [f]) s := by
  rw [get?_register, latest?_append_singleton, h]

/-- Further registrations are the last ones. -/
theorem get?_registerAll_eq_latest? (h : ∀ s, r.get? s = latest? history s) (ops : List Operator)
    (s : String) : (r.registerAll ops).get? s = latest? (history ++ ops) s := by
  induction ops generalizing r history with
  | nil => rw [List.append_nil, ← h, registerAll, List.foldl_nil]
  | cons f ops ih =>
    rw [List.append_cons]
    exact ih (get?_register_eq_latest? h f)

theorem Origin.get?_registry (origin : Origin) (s : String) :
    origin.registry.get? s = latest? origin.operators s := by
  cases origin with
  | empty => exact get?_empty s
  | builtins =>
    have nothing (s : String) : OperatorRegistry.empty.get? s = latest? [] s := get?_empty s
    exact get?_registerAll_eq_latest? nothing _ s

theorem contains_iff (r : OperatorRegistry) (s : String) :
    r.contains s = true ↔ ∃ f, r.get? s = some f := by
  rw [contains_eq_isSome_get?, Option.isSome_iff_exists]

theorem mem_symbols_iff (r : OperatorRegistry) (s : String) :
    s ∈ r.symbols ↔ r.contains s = true := by
  rw [symbols, Std.TreeMap.mem_keys, contains, Std.TreeMap.contains_iff_mem]

theorem symbols_sorted (r : OperatorRegistry) :
    r.symbols.Pairwise fun s t => Text.bytes s < Text.bytes t := by
  refine r.table.ordered_keys.imp ?_
  intro s t before
  exact Text.bytes_lt_bytes (compare_lt_iff_lt.mp before)

theorem holds_of_latest (h : ∀ s, r.get? s = latest? history s) : r.Holds history where
  latest := h
  last s f := by rw [h, latest?_eq_some_iff]
  absent s := by rw [h, latest?_eq_none_iff]
  contains := r.contains_iff
  operatorSet := r.contains_iff
  symbols s := by
    rw [mem_symbols_iff, contains_eq_isSome_get?, Option.isSome_iff_ne_none, ne_eq, h,
      latest?_eq_none_iff]
    push Not
    rfl
  sorted := r.symbols_sorted

theorem operatorSet_congr (same : ∀ s, r.get? s = r'.get? s) : r.operatorSet = r'.operatorSet := by
  funext s
  rw [operatorSet, operatorSet, contains_eq_isSome_get?, contains_eq_isSome_get?, same]

end Latest

end OperatorRegistry

theorem Document.run_congr_registry {r r' : OperatorRegistry} (same : ∀ s, r.get? s = r'.get? s)
    (source : FactSource) (d : Document) : d.run source r = d.run source r' := by
  unfold Document.run
  cases source.securityId d.security with
  | error e => rfl
  | ok s =>
    have formula : d.expression.toOperand.run source r s =
        d.expression.toOperand.run source r' s :=
      Operand.run_congr _ (fun _ _ => rfl) (fun _ _ _ _ => rfl) fun symbol _ => by rw [same]
    simp only [Expression.run, formula]

namespace OperatorRegistry

/-- After any registrations a registry holds the last operators, and these are all that evaluations
and checks have of it. -/
theorem determined_by_latest (origin : Origin) (ops : List Operator) :
    (origin.registry.registerAll ops).Holds (origin.operators ++ ops) ∧
      ∀ (origin' : Origin) (ops' : List Operator),
        (∀ s, latest? (origin.operators ++ ops) s = latest? (origin'.operators ++ ops') s) →
        (∀ (source : FactSource) (d : Document),
          d.evaluateWith source (origin.registry.registerAll ops) =
              d.evaluateWith source (origin'.registry.registerAll ops') ∧
            d.run source (origin.registry.registerAll ops) =
              d.run source (origin'.registry.registerAll ops')) ∧
        ∀ (catalog : Catalog) (d : Document),
          d.check catalog (origin.registry.registerAll ops).operatorSet =
              d.check catalog (origin'.registry.registerAll ops').operatorSet ∧
            d.problems catalog (origin.registry.registerAll ops).operatorSet =
              d.problems catalog (origin'.registry.registerAll ops').operatorSet := by
  have latest (origin : Origin) (ops : List Operator) (s : String) :
      (origin.registry.registerAll ops).get? s = latest? (origin.operators ++ ops) s :=
    get?_registerAll_eq_latest? origin.get?_registry ops s
  refine ⟨holds_of_latest (latest origin ops), fun origin' ops' agree => ?_⟩
  have same (s : String) : (origin.registry.registerAll ops).get? s =
      (origin'.registry.registerAll ops').get? s := by
    rw [latest, latest, agree]
  constructor
  · intro source d
    have run := d.run_congr_registry same source
    exact ⟨congrArg Run.outcome run, run⟩
  · intro catalog d
    rw [operatorSet_congr same]
    exact ⟨rfl, rfl⟩

/-- An operator without a name. -/
def nameless : Operator := ⟨"", fun x _ => some x⟩

/-- One more than the sum, in the place of the sum. -/
def successor : Operator := ⟨"+", fun x y => some (x + y + 1)⟩

/-- Registered in another order, some of them twice, the last operators are the same. -/
theorem determined_by_latest_replaced :
    (∀ s, latest? (Origin.builtins.operators ++ [nameless, successor]) s =
      latest? (Origin.empty.operators ++
        (successor :: Arithmetic.all.map Arithmetic.operator ++ [successor, nameless])) s) ∧
    priceDocument.evaluateWith priceSource
        (Origin.builtins.registry.registerAll [nameless, successor]) =
      priceDocument.evaluateWith priceSource (Origin.empty.registry.registerAll
        (successor :: Arithmetic.all.map Arithmetic.operator ++ [successor, nameless])) := by
  have agree : ∀ s, latest? (Origin.builtins.operators ++ [nameless, successor]) s =
      latest? (Origin.empty.operators ++
        (successor :: Arithmetic.all.map Arithmetic.operator ++ [successor, nameless])) s := by
    intro s
    simp only [latest?, Origin.operators, Arithmetic.all, List.map_cons, List.map_nil,
      List.cons_append, List.nil_append, List.reverse_cons, List.reverse_nil, List.find?_cons]
    by_cases sum : "+" = s
    · subst sum
      rfl
    · by_cases unnamed : "" = s
      · subst unnamed
        rfl
      · simp only [nameless, successor, Arithmetic.operator, Arithmetic.symbol,
          beq_eq_false_iff_ne.mpr sum, beq_eq_false_iff_ne.mpr unnamed]
  refine ⟨agree, ?_⟩
  exact ((determined_by_latest .builtins [nameless, successor]).2 .empty _ agree).1
    priceSource priceDocument |>.1

end OperatorRegistry

end FactFormula
