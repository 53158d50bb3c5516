import FactFormula.Proofs.Command.Sources

/-!
Command lines as a whole. What is set before the name of a command is read like what is set behind
it, and the document comes from one source, which is the one that the line names.
-/
namespace FactFormula.Command

section Lines

variable {scope : Scope} {s t m : Scan} {args : List String} {name : String} {verb : Verb}
variable {i : Invocation}

theorem scanInner_eq_ok_iff : scanInner scope args = .ok t ↔
    Scan.start.readWords scope args = .ok t ∧ t.input.named.length ≤ 1 := by
  simp only [scanInner, Scan.finish, Scan.readWords, bind_eq_ok_iff,
    ← Input.conflicting_eq_false_iff]
  constructor
  · rintro ⟨u, run, v, settled, single⟩
    split_ifs at single with several
    cases single
    exact ⟨⟨u, run, settled⟩, Bool.eq_false_iff.mpr several⟩
  · rintro ⟨⟨u, run, settled⟩, single⟩
    exact ⟨u, run, t, settled, if_neg (Bool.eq_false_iff.mp single)⟩

/-- A word that begins with no dash. -/
theorem plain_of_head? {arg : String} (h : arg.toList.head? ≠ some '-') : Plain arg :=
  .inr fun cs chars => h (by rw [chars, List.head?_cons])

theorem plain_of_ofName? (known : Verb.ofName? name = some verb) : Plain name := by
  unfold Verb.ofName? at known
  split_ifs at known with eval check inspect examples
  · exact eval ▸ plain_of_head? (by decide)
  · exact check ▸ plain_of_head? (by decide)
  · exact inspect ▸ plain_of_head? (by decide)
  · exact examples ▸ plain_of_head? (by decide)

/-- Before the name of a command no word stands for itself. -/
theorem Scan.step_outer_ne_ok (trailing : s.trailing = false) (ready : s.isAwaiting = false)
    {arg : String} (plain : Plain arg) : s.step .outer arg ≠ .ok t := by
  rw [step_plain trailing plain]
  split
  next waiting => simp [isAwaiting, waiting] at ready
  next =>
    intro taken
    cases (word_eq_ok_iff.mp taken).1

/-- All that one word can be before the name of a command, and that name. -/
theorem scanOuter_cons_eq_ok_iff {arg : String} : scanOuter s (arg :: args) = .ok i ↔
    (∃ u, s.step .outer arg = .ok u ∧ scanOuter u args = .ok i) ∨
      ∃ verb t m, Verb.ofName? arg = some verb ∧ s.settle = .ok t ∧ t.trailing = false ∧
        scanInner verb.scope args = .ok m ∧ i = merge verb t m := by
  rw [scanOuter]
  split_ifs with early help
  · rw [bind_eq_ok_iff]
    refine (or_iff_left ?_).symm
    rintro ⟨verb, t, m, -, settled, trailing, -⟩
    rcases early with marked | awaiting
    · exact absurd ((Scan.settled_of_settle settled).2.1.symm.trans trailing) (by simp [marked])
    · rcases Scan.settle_eq_ok_iff.mp settled with ⟨pending, -⟩ | ⟨key, value, pending, -⟩ <;>
        simp [Scan.isAwaiting, pending] at awaiting
  all_goals
    obtain ⟨unmarked, ready⟩ := not_or.mp early
    have trailing : s.trailing = false := by simpa using unmarked
    have ready : s.isAwaiting = false := by simpa using ready
  · refine iff_of_false nofun ?_
    rintro (⟨u, here, -⟩ | ⟨verb, t, m, known, -⟩)
    · have plain : Plain arg := help ▸ plain_of_head? (by decide)
      exact Scan.step_outer_ne_ok trailing ready plain here
    · rw [help] at known
      cases known
  · cases known : Verb.ofName? arg with
    | none =>
      rw [bind_eq_ok_iff]
      refine (or_iff_left ?_).symm
      rintro ⟨verb, t, m, ⟨⟩, -⟩
    | some verb =>
      have notStep : ¬ ∃ u, s.step .outer arg = .ok u ∧ scanOuter u args = .ok i := by
        rintro ⟨u, here, -⟩
        exact Scan.step_outer_ne_ok trailing ready (plain_of_ofName? known) here
      rw [or_iff_right notStep]
      simp only [bind_eq_ok_iff]
      constructor
      · rintro ⟨m, inner, t, settled, merged⟩
        have unmarked : t.trailing = false := (Scan.settled_of_settle settled).2.1.trans trailing
        exact ⟨verb, t, m, rfl, settled, unmarked, inner, (Except.ok.inj merged).symm⟩
      · rintro ⟨_, t, m, ⟨⟩, settled, -, inner, rfl⟩
        exact ⟨m, inner, t, settled, rfl⟩

/-- A command line is the words before the name of a command, the name, and those behind it. -/
theorem scanOuter_eq_ok_iff : scanOuter s args = .ok i ↔
    ∃ outer name inner verb t m, args = outer ++ name :: inner ∧ Verb.ofName? name = some verb ∧
      s.readWords .outer outer = .ok t ∧ t.trailing = false ∧
      scanInner verb.scope inner = .ok m ∧ i = merge verb t m := by
  induction args generalizing s with
  | nil =>
    refine iff_of_false ?_ (by simp)
    rw [scanOuter, bind_eq_ok_iff]
    rintro ⟨u, -, missing⟩
    split_ifs at missing
  | cons arg args ih =>
    rw [scanOuter_cons_eq_ok_iff]
    constructor
    · rintro (⟨u, here, further⟩ | ⟨verb, t, m, known, settled, rest⟩)
      · obtain ⟨outer, name, inner, verb, t, m, rfl, known, words, rest⟩ := ih.mp further
        refine ⟨arg :: outer, name, inner, verb, t, m, rfl, known, ?_, rest⟩
        exact Scan.readWords_cons_eq_ok_iff.mpr ⟨u, here, words⟩
      · exact ⟨[], arg, args, verb, t, m, rfl, known, settled, rest⟩
    · rintro ⟨outer, name, inner, verb, t, m, split, known, words, rest⟩
      cases outer with
      | nil =>
        cases split
        exact .inr ⟨verb, t, m, known, words, rest⟩
      | cons =>
        cases split
        obtain ⟨u, here, words⟩ := Scan.readWords_cons_eq_ok_iff.mp words
        exact .inl ⟨u, here, ih.mpr ⟨_, _, _, verb, t, m, rfl, known, words, rest⟩⟩

end Lines

section Said

variable {scope : Scope} {s : Scan} {args : List String} {given : List Setting} {i : Invocation}

def Setting.dataDir? : Setting → Option String
  | .option .dataDir dir => some dir
  | .verbose | .option .file _ | .option .exampleId _ | .document _ => none

theorem Setting.dataDir?_eq_some_iff {p : Setting} {dir : String} :
    p.dataDir? = some dir ↔ .option .dataDir dir = p := by
  cases p with
  | verbose | document => simp [dataDir?]
  | option key value => cases key <;> simp [dataDir?, eq_comm]

theorem Scan.Has.dataDir_eq (has : s.Has given) :
    s.dataDir = given.findSome? Setting.dataDir? := by
  have mem_iff (dir : String) : s.dataDir = some dir ↔ .option .dataDir dir ∈ given := by
    rw [← has]
    simp [Scan.at?, Setting.slot, Scan.get]
  cases found : given.findSome? Setting.dataDir? with
  | none =>
    rw [List.findSome?_eq_none_iff] at found
    rw [Option.eq_none_iff_forall_ne_some]
    intro dir here
    cases found _ ((mem_iff dir).mp here)
  | some dir =>
    obtain ⟨p, member, here⟩ := List.exists_of_findSome?_eq_some found
    exact (mem_iff dir).mpr (Setting.dataDir?_eq_some_iff.mp here ▸ member)

theorem Scan.Has.verbose_iff (has : s.Has given) : s.verbose = true ↔ .verbose ∈ given := by
  rw [← has]
  simp [Scan.at?, Setting.slot]

/-- A command line in its parts, with what is set before the name of the command and behind it. -/
structure Line where
  outer : List String
  name : String
  inner : List String
  before : List Setting
  given : List Setting

/-- The line spells out the arguments, and comes to the invocation. -/
structure Line.Means (l : Line) (args : List String) (i : Invocation) : Prop where
  args_eq : args = l.outer ++ l.name :: l.inner
  verb : Verb.ofName? l.name = some i.verb
  outer : Expresses .outer l.outer l.before
  unmarked : "--" ∉ l.outer
  inner : Expresses i.verb.scope l.inner l.given
  fits_before : Fit .outer l.before
  fits_given : Fit i.verb.scope l.given
  named : l.given.filterMap Setting.source? = i.input.named
  single : i.input.named.length ≤ 1
  dataDir : i.dataDir = (l.given ++ l.before).findSome? Setting.dataDir?
  verbose : i.verbose = true ↔ .verbose ∈ l.before ++ l.given

theorem eq_of_perm_of_length_le_one {α : Type} {xs ys : List α} (perm : xs.Perm ys)
    (single : ys.length ≤ 1) : xs = ys := by
  cases ys with
  | nil => exact perm.eq_nil
  | cons y ys =>
    cases ys with
    | nil => exact List.perm_singleton.mp perm
    | cons => simp at single

theorem merge_dataDir {verb : Verb} {t m : Scan} {before given : List Setting}
    (outer : t.Has before) (inner : m.Has given) :
    (merge verb t m).dataDir = (given ++ before).findSome? Setting.dataDir? := by
  rw [List.findSome?_append, ← inner.dataDir_eq, ← outer.dataDir_eq]
  rfl

theorem merge_verbose {verb : Verb} {t m : Scan} {before given : List Setting}
    (outer : t.Has before) (inner : m.Has given) :
    (merge verb t m).verbose = true ↔ .verbose ∈ before ++ given := by
  rw [List.mem_append, ← inner.verbose_iff, ← outer.verbose_iff]
  exact Bool.or_eq_true_iff

/-- The arguments that are accepted are those that a line spells out, and they mean what it sets. -/
theorem ofArgs_eq_ok_iff : Invocation.ofArgs args = .ok i ↔ ∃ l : Line, l.Means args i := by
  rw [Invocation.ofArgs, scanOuter_eq_ok_iff]
  constructor
  · rintro ⟨outer, name, inner, verb, t, m, rfl, known, words, trailing, behind, rfl⟩
    obtain ⟨before, outerWords, outerFit, outerRead⟩ := Scan.exists_given_of_readWords words
    obtain ⟨read, single⟩ := scanInner_eq_ok_iff.mp behind
    obtain ⟨given, innerWords, innerFit, innerRead⟩ := Scan.exists_given_of_readWords read
    refine ⟨⟨outer, name, inner, before, given⟩, ?_⟩
    exact {
      args_eq := rfl
      verb := known
      outer := outerWords
      unmarked := by simp [← outerRead.trailing, trailing]
      inner := innerWords
      fits_before := outerFit
      fits_given := innerFit
      named := eq_of_perm_of_length_le_one (innerRead.has.named_perm innerFit) single
      single := single
      dataDir := merge_dataDir outerRead.has innerRead.has
      verbose := merge_verbose outerRead.has innerRead.has }
  · rintro ⟨⟨outer, name, inner, before, given⟩, means⟩
    obtain ⟨t, words, outerRead⟩ := Scan.exists_readWords means.outer means.fits_before
    obtain ⟨m, read, innerRead⟩ := Scan.exists_readWords means.inner means.fits_given
    have named : m.input.named = i.input.named := by
      have perm := (innerRead.has.named_perm means.fits_given).symm
      exact eq_of_perm_of_length_le_one (means.named ▸ perm) means.single
    have trailing : t.trailing = false := by
      rw [← Bool.not_eq_true, outerRead.trailing]
      exact means.unmarked
    refine ⟨outer, name, inner, i.verb, t, m, means.args_eq, means.verb, words, trailing, ?_, ?_⟩
    · exact scanInner_eq_ok_iff.mpr ⟨read, named ▸ means.single⟩
    · have input : i.input = (merge i.verb t m).input := Input.eq_of_named_eq named.symm
      have dataDir : i.dataDir = (merge i.verb t m).dataDir := by
        rw [means.dataDir, merge_dataDir outerRead.has innerRead.has]
      have verbose : i.verbose = (merge i.verb t m).verbose := by
        rw [Bool.eq_iff_iff, means.verbose, merge_verbose outerRead.has innerRead.has]
      obtain ⟨verb, _, _, _⟩ := i
      cases input
      cases dataDir
      cases verbose
      rfl

/-- The name of a command cannot be among the words before it. -/
theorem not_fit_of_name {outer inner : List String} {before all : List Setting} {name : String}
    {verb : Verb} (words : Expresses .outer outer before) (unmarked : "--" ∉ outer)
    (known : Verb.ofName? name = some verb) (more : Expresses .outer (outer ++ name :: inner) all) :
    ¬ Fit .outer all := by
  have plain : Plain name := plain_of_ofName? known
  obtain ⟨later, rfl, behind⟩ := words.later more
  rw [if_neg unmarked] at behind
  cases behind with
  | document =>
    intro fit
    cases fit.fits (.document name) (by simp)
  | option word | valued word => exact absurd plain (not_plain_of_optionWord word)
  | dashes => exact absurd rfl (ne_dashes_of_plain plain)

/-- If one line has more words before the name, it has the name of the other among them. -/
theorem Line.Means.outer_eq_of_longer {l l' : Line} {j : Invocation} (one : l.Means args i)
    (other : l'.Means args j) {between : List String} (longer : l'.outer = l.outer ++ between)
    (behind : l.name :: l.inner = between ++ l'.name :: l'.inner) : l.outer = l'.outer := by
  cases between with
  | nil => rw [longer, List.append_nil]
  | cons word between =>
    obtain ⟨rfl, -⟩ := List.cons.inj behind
    have more := longer ▸ other.outer
    exact absurd other.fits_before (not_fit_of_name one.outer one.unmarked one.verb more)

theorem Line.Means.outer_eq {l l' : Line} {j : Invocation} (one : l.Means args i)
    (other : l'.Means args j) : l.outer = l'.outer := by
  rcases List.append_eq_append_iff.mp (one.args_eq.symm.trans other.args_eq) with
    ⟨between, longer, behind⟩ | ⟨between, longer, behind⟩
  · exact one.outer_eq_of_longer other longer behind
  · exact (other.outer_eq_of_longer one longer behind).symm

/-- Arguments are spelled out by one line only. -/
theorem Line.Means.unique {l l' : Line} (one : l.Means args i) (other : l'.Means args i) :
    l = l' := by
  have outer : l.outer = l'.outer := one.outer_eq other
  have behind := one.args_eq.symm.trans other.args_eq
  rw [outer, List.append_cancel_left_eq] at behind
  obtain ⟨name, inner⟩ := List.cons.inj behind
  have before : l.before = l'.before := one.outer.unique (outer ▸ other.outer)
  have given : l.given = l'.given := one.inner.unique (inner ▸ other.inner)
  cases l
  cases l'
  cases outer
  cases name
  cases inner
  cases before
  cases given
  rfl

/-- A command line is accepted exactly when it can be spelled out, in one way. However that is, the
document comes from the one source that it names, and it does not matter in what order they are
asked for. Without a source it comes from standard input, and only then. -/
theorem accepted_names_one_source (args : List String) (i : Invocation) :
    (Invocation.ofArgs args = .ok i ↔ ∃! l : Line, l.Means args i) ∧
      (Invocation.ofArgs args = .ok i → i.input.named.length ≤ 1 ∧
        (∀ (env : Environment) (order : List Source), (∀ source, source ∈ order) →
          i.input.readTextIn env order = i.input.readText env) ∧
        (∀ env : Environment, i.input.named = [] → i.input.readText env = env.readStdin) ∧
        (∀ env : Environment,
          (∃ stdin, i.input.readText { env with stdin } ≠ i.input.readText env) ↔
            i.input.named = []) ∧
        (i.readsStdin = true ↔ i.verb ≠ .examples ∧ i.input.named = [])) := by
  have spelled : Invocation.ofArgs args = .ok i ↔ ∃! l : Line, l.Means args i := by
    rw [ofArgs_eq_ok_iff]
    constructor
    · rintro ⟨l, means⟩
      exact ⟨l, means, fun _ other => other.unique means⟩
    · exact ExistsUnique.exists
  refine ⟨spelled, fun accepted => ?_⟩
  obtain ⟨l, means, -⟩ := spelled.mp accepted
  have single : i.input.named.length ≤ 1 := means.single
  refine ⟨single, ?_, ?_, ?_, ?_⟩
  · exact fun env _ all => Input.readTextIn_eq env single all
  · exact fun env unnamed => Input.readText_of_named_eq_nil env unnamed
  · exact fun env => Input.readText_stdin_iff env single
  · exact Invocation.readsStdin_iff

/-- Settings before and behind the name of the command, and a file at the end of a cluster. -/
theorem accepted_names_one_source_file :
    Invocation.ofArgs ["-v", "--data-dir", "old", "check", "--data-dir=new", "-vf=d.json", "--"] =
        .ok ⟨.check, ⟨some "d.json", none, none⟩, some "new", true⟩ ∧
      ∀ (env : Environment) (order : List Source), (∀ source, source ∈ order) →
        Input.readTextIn env ⟨some "d.json", none, none⟩ order =
          Input.readText env ⟨some "d.json", none, none⟩ := by
  have accepted : Invocation.ofArgs
      ["-v", "--data-dir", "old", "check", "--data-dir=new", "-vf=d.json", "--"] =
        .ok ⟨.check, ⟨some "d.json", none, none⟩, some "new", true⟩ := by
    decide +kernel
  exact ⟨accepted, ((accepted_names_one_source _ _).2 accepted).2.1⟩

end Said

end FactFormula.Command
