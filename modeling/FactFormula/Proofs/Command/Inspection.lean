import Mathlib.Data.List.Sort
import Mathlib.Tactic.Tauto
import FactFormula.Proofs.Command.Agreement
import FactFormula.Proofs.Occurrence
import FactFormula.Proofs.Text.ByteOrder

/-!
The command `inspect`. A set of names has no order of its own, but sorted it has one, so what is
printed is settled by the document; the tables are never looked at.
-/
namespace FactFormula

/-- A way from the root of an operand to a leaf, with the operations that it goes through. -/
inductive Operand.Path : Operand → List Expression → Prop where
  | attribute (name : String) : Path (.attribute name) []
  | literal (x : Float) : Path (.literal x) []
  | left {op : String} {a b : Operand} {way : List Expression} (further : Path a way) :
      Path (.node op a b) (⟨op, a, b⟩ :: way)
  | right {op : String} {a b : Operand} {way : List Expression} (further : Path b way) :
      Path (.node op a b) (⟨op, a, b⟩ :: way)

theorem Operand.Path.length_le_depth {o : Operand} {way : List Expression} (h : o.Path way) :
    way.length ≤ o.depth := by
  induction h with
  | «attribute» | literal => exact Nat.zero_le _
  | left further ih | right further ih =>
    simp only [List.length_cons, Operand.depth]
    omega

theorem Operand.exists_path_length_eq_depth (o : Operand) :
    ∃ way, o.Path way ∧ way.length = o.depth := by
  induction o with
  | «attribute» name => exact ⟨[], .attribute name, rfl⟩
  | literal x => exact ⟨[], .literal x, rfl⟩
  | node op a b iha ihb =>
    obtain ⟨left, toLeft, lengthLeft⟩ := iha
    obtain ⟨right, toRight, lengthRight⟩ := ihb
    simp only [depth]
    rcases Nat.le_total a.depth b.depth with deeper | deeper
    · exact ⟨_, .right toRight, by rw [List.length_cons, Nat.max_eq_right deeper]; omega⟩
    · exact ⟨_, .left toLeft, by rw [List.length_cons, Nat.max_eq_left deeper]; omega⟩

/-- The number of operations on the longest way from the root to a leaf. -/
structure Operand.IsHeight (o : Operand) (n : Nat) : Prop where
  reached : ∃ way, o.Path way ∧ way.length = n
  bound : ∀ way, o.Path way → way.length ≤ n

theorem Operand.isHeight_depth (o : Operand) : o.IsHeight o.depth :=
  ⟨o.exists_path_length_eq_depth, fun _ => Path.length_le_depth⟩

section Names

/-- The names of a set as they come out of it, each once. -/
structure Enumerates (names : List String) (set : Std.TreeSet String) : Prop where
  nodup : names.Nodup
  mem_iff : ∀ n, n ∈ names ↔ n ∈ set

/-- The names that occur, each once, by their bytes. -/
structure InOrder (names occurring : List String) : Prop where
  sorted : names.Pairwise fun s t => Text.bytes s < Text.bytes t
  mem_iff : ∀ n, n ∈ names ↔ n ∈ occurring

def Text.sort (names : List String) : List String :=
  names.mergeSort fun s t => Text.bytes s ≤ Text.bytes t

variable {names names' occurring : List String} {set : Std.TreeSet String}

/-- There is one order by bytes. -/
theorem InOrder.unique (h : InOrder names occurring) (h' : InOrder names' occurring) :
    names = names' := by
  have : Std.Antisymm fun s t : String => Text.bytes s < Text.bytes t :=
    ⟨fun s t before behind => absurd behind (List.lt_asymm before)⟩
  have : Std.Irrefl fun s t : String => Text.bytes s < Text.bytes t :=
    ⟨fun s => List.lt_irrefl (Text.bytes s)⟩
  exact List.Pairwise.eq_of_mem_iff h.sorted h'.sorted fun n =>
    (h.mem_iff n).trans (h'.mem_iff n).symm

/-- Of two names the first by its bytes is the first by its characters. -/
theorem Text.bytes_lt_of_le {s t : String} (h : bytes s ≤ bytes t) (apart : s ≠ t) :
    bytes s < bytes t := by
  rcases lt_trichotomy s t with before | same | behind
  · exact bytes_lt_bytes before
  · exact absurd same apart
  · exact absurd h (List.not_le.mpr (bytes_lt_bytes behind))

theorem Text.pairwise_sort (names : List String) :
    (sort names).Pairwise fun s t => bytes s ≤ bytes t := by
  have sorted : (sort names).Pairwise fun s t => decide (bytes s ≤ bytes t) = true := by
    apply List.pairwise_mergeSort
    · intro s t u
      simpa using List.le_trans
    · intro s t
      simpa using List.le_total (bytes s) (bytes t)
  simpa using sorted

/-- However a set is enumerated, sorted it is the same list. -/
theorem Enumerates.inOrder_sort (h : Enumerates names set)
    (occur : ∀ n, n ∈ set ↔ n ∈ occurring) : InOrder (Text.sort names) occurring where
  sorted := by
    have perm : (Text.sort names).Perm names := List.mergeSort_perm names _
    have apart : (Text.sort names).Pairwise (· ≠ ·) := perm.nodup_iff.mpr h.nodup
    exact (Text.pairwise_sort names).imp₂ (fun s t => Text.bytes_lt_of_le) apart
  mem_iff n := by
    rw [Text.sort, List.mem_mergeSort, h.mem_iff, occur]

theorem inOrder_toList (occur : ∀ n, n ∈ set ↔ n ∈ occurring) : InOrder set.toList occurring where
  sorted := set.ordered_toList.imp fun before => Text.bytes_lt_bytes (compare_lt_iff_lt.mp before)
  mem_iff n := by rw [Std.TreeSet.mem_toList, occur]

end Names

namespace Command

/-- The five lines for a document: the names stand in the order that they are given in. -/
def inspection (d : Document) (depth : Nat) (attributes operators : List String) : String :=
  "security: " ++ d.security ++ "\n" ++
  "depth: " ++ toString depth ++ "\n" ++
  "attributes: " ++ ", ".intercalate attributes ++ "\n" ++
  "operators: " ++ ", ".intercalate operators ++ "\n" ++
  "hash: " ++ d.expression.hash ++ "\n"

variable {env : Environment} {input : Input} {d : Document}

theorem natText_eq_toString (n : Nat) : Json.natText n = toString n := by
  rw [Json.natText, Decimal.natural, Nat.toString_eq_repr, ← Nat.toList_repr, String.ofList_toList]

theorem join_lines_inspectResult (d : Document) :
    String.join ((inspectResult d).lines.map (· ++ "\n")) =
      inspection d d.expression.depth d.expression.dependencies.attributeList
        d.expression.dependencies.operatorList := by
  unfold inspectResult inspection
  simp only [natText_eq_toString, List.map_cons, List.map_nil, String.join_cons, String.join_nil,
    String.append_empty, String.append_assoc]

theorem output_inspect (document : input.readDocument env = .ok d) (dataDir : Option String)
    (verbose : Bool) : (Invocation.mk .inspect input dataDir verbose).output env none =
      ⟨none, (inspection d d.expression.depth d.expression.dependencies.attributeList
        d.expression.dependencies.operatorList).toUTF8.toList, "", []⟩ := by
  have result : (Invocation.mk .inspect input dataDir verbose).result env = inspectResult d := by
    simp only [Invocation.result, onDocument, document]
  rw [Invocation.output, result, ← join_lines_inspectResult, ← flatMap_lineBytes]
  exact output_of_success _ []

/-- The order in which the names come out of their sets is not seen. -/
theorem attributeList_eq_sort {attributes : List String}
    (names : Enumerates attributes d.expression.dependencies.attributes) :
    d.expression.dependencies.attributeList = Text.sort attributes :=
  (inOrder_toList d.expression.mem_dependencies_attributes).unique
    (names.inOrder_sort d.expression.mem_dependencies_attributes)

theorem operatorList_eq_sort {operators : List String}
    (names : Enumerates operators d.expression.dependencies.operators) :
    d.expression.dependencies.operatorList = Text.sort operators :=
  (inOrder_toList d.expression.mem_dependencies_operators).unique
    (names.inOrder_sort d.expression.mem_dependencies_operators)

/-- Of a document that can be had `inspect` prints the same lines whatever order its names come in
and whatever directory of tables is given. They tell the longest way through the formula and, each
once and in the order of their bytes, the attributes and the operators that occur. -/
theorem inspect_prints_document (document : input.readDocument env = .ok d) :
    d.expression.toOperand.IsHeight d.expression.depth ∧
      ∀ attributes operators, Enumerates attributes d.expression.dependencies.attributes →
        Enumerates operators d.expression.dependencies.operators →
        InOrder (Text.sort attributes) d.expression.attributes ∧
          InOrder (Text.sort operators) d.expression.operators ∧
          ∀ dataDir verbose, (Invocation.mk .inspect input dataDir verbose).output env none =
            ⟨none, (inspection d d.expression.depth (Text.sort attributes)
              (Text.sort operators)).toUTF8.toList, "", []⟩ := by
  refine ⟨d.expression.toOperand.isHeight_depth, ?_⟩
  intro attributes operators attributeNames operatorNames
  refine ⟨attributeNames.inOrder_sort d.expression.mem_dependencies_attributes,
    operatorNames.inOrder_sort d.expression.mem_dependencies_operators, fun dataDir verbose => ?_⟩
  rw [output_inspect document, attributeList_eq_sort attributeNames,
    operatorList_eq_sort operatorNames]

/-- No file can be read, and nothing stands on standard input. -/
def bareEnvironment : Environment := ⟨fun _ => .error .notFound, .empty⟩

def givenInline (text : String) : Input := ⟨none, none, some text⟩

/-- Of two attributes one occurs twice and is met first, and the other comes first by its bytes. -/
def spread : Document where
  expression := ⟨"-", .node "-" (.attribute "eps") (.attribute "Eps"), .attribute "eps"⟩
  security := "CDE"

theorem inspect_prints_document_spread :
    (givenInline spread.toValue.text).readDocument bareEnvironment = .ok spread ∧
      Enumerates ["eps", "Eps"] spread.expression.dependencies.attributes ∧
      Enumerates ["-"] spread.expression.dependencies.operators ∧
      (Invocation.mk .inspect (givenInline spread.toValue.text) (some "nowhere") false).output
        bareEnvironment none =
          ⟨none, ("security: CDE\ndepth: 2\nattributes: Eps, eps\noperators: -\n" ++
            "hash: 65025421d3906cace01887f6f146f3b14ffb2a8db50e814ded2dae78b56bbe9c\n").toUTF8.toList,
            "", []⟩ := by
  have document : (givenInline spread.toValue.text).readDocument bareEnvironment =
      .ok spread := by
    decide +kernel
  have attributesOccur (n : String) :
      n ∈ spread.expression.attributes ↔ n = "eps" ∨ n = "Eps" := by
    show n ∈ ["eps", "Eps", "eps"] ↔ _
    simp only [List.mem_cons, List.not_mem_nil, or_false]
    tauto
  have operatorsOccur (n : String) : n ∈ spread.expression.operators ↔ n = "-" := by
    show n ∈ ["-", "-"] ↔ _
    simp only [List.mem_cons, List.not_mem_nil, or_false, or_self]
  have attributes : Enumerates ["eps", "Eps"] spread.expression.dependencies.attributes :=
    ⟨by decide, fun n => by simp [Expression.mem_dependencies_attributes, attributesOccur]⟩
  have operators : Enumerates ["-"] spread.expression.dependencies.operators :=
    ⟨by decide, fun n => by simp [Expression.mem_dependencies_operators, operatorsOccur]⟩
  have attributesInOrder : InOrder ["Eps", "eps"] spread.expression.attributes :=
    ⟨by decide +kernel, fun n => by simp [attributesOccur, or_comm]⟩
  have operatorsInOrder : InOrder ["-"] spread.expression.operators :=
    ⟨List.pairwise_singleton .., fun n => by simp [operatorsOccur]⟩
  have text : inspection spread spread.expression.depth ["Eps", "eps"] ["-"] =
      "security: CDE\ndepth: 2\nattributes: Eps, eps\noperators: -\n" ++
        "hash: 65025421d3906cace01887f6f146f3b14ffb2a8db50e814ded2dae78b56bbe9c\n" := by
    decide +kernel
  obtain ⟨sortedAttributes, sortedOperators, printed⟩ :=
    (inspect_prints_document document).2 _ _ attributes operators
  refine ⟨document, attributes, operators, ?_⟩
  rw [printed, sortedAttributes.unique attributesInOrder, sortedOperators.unique operatorsInOrder,
    text]

end Command

end FactFormula
