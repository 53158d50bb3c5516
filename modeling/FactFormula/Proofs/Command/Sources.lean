import FactFormula.Command.Result
import FactFormula.Proofs.Command.Slots

/-!
Command lines and the one source that a document has. What is named on a command line, in whichever
spelling, is in the input, and of sources there is one at most; so it does not matter which of them
is asked for first.
-/
namespace FactFormula.Command

def Setting.source? : Setting → Option (Source × String)
  | .option .file path => some (.file, path)
  | .option .exampleId id => some (.exampleId, id)
  | .document text => some (.document, text)
  | .verbose | .option .dataDir _ => none

section Named

variable {i j : Input} {source : Source} {name : String}

theorem Source.mem_listed (source : Source) : source ∈ [Source.file, .exampleId, .document] := by
  cases source <;> simp

theorem Input.mem_named_iff : (source, name) ∈ i.named ↔ i.at? source = some name := by
  simp only [named, List.mem_filterMap, Option.map_eq_some_iff, Prod.mk.injEq]
  constructor
  · rintro ⟨_, -, _, found, rfl, rfl⟩
    exact found
  · intro found
    exact ⟨source, source.mem_listed, name, found, rfl, rfl⟩

theorem Input.nodup_named (i : Input) : i.named.Nodup := by
  refine List.Nodup.filterMap ?_ (by decide)
  rintro source source' ⟨_, _⟩ here there
  simp only [Option.mem_def, Option.map_eq_some_iff, Prod.mk.injEq] at here there
  obtain ⟨_, -, rfl, -⟩ := here
  obtain ⟨_, -, rfl, -⟩ := there
  rfl

/-- Every two sources conflict, so that no conflict is one source at most. -/
theorem Input.conflicting_eq_false_iff (i : Input) :
    i.conflicting = false ↔ i.named.length ≤ 1 := by
  obtain ⟨file, exampleId, document⟩ := i
  cases file <;> cases exampleId <;> cases document <;>
    simp [conflicting, named, at?, Source.conflicts]

theorem Input.eq_of_named_eq (h : i.named = j.named) : i = j := by
  have same (source : Source) : i.at? source = j.at? source := by
    ext name
    rw [← mem_named_iff, h, mem_named_iff]
  obtain ⟨file, exampleId, document⟩ := i
  obtain ⟨file', exampleId', document'⟩ := j
  obtain rfl : file = file' := same .file
  obtain rfl : exampleId = exampleId' := same .exampleId
  obtain rfl : document = document' := same .document
  rfl

/-- The setting that names a source. -/
def Source.setting : Source → String → Setting
  | .file => .option .file
  | .exampleId => .option .exampleId
  | .document => .document

theorem Setting.source?_eq_some_iff {p : Setting} :
    p.source? = some (source, name) ↔ source.setting name = p := by
  cases p with
  | verbose => cases source <;> simp [source?, Source.setting]
  | option key value => cases key <;> cases source <;> simp [source?, Source.setting, eq_comm]
  | document text => cases source <;> simp [source?, Source.setting, eq_comm]

theorem Scan.Has.at?_iff {s : Scan} {given : List Setting} (has : s.Has given) :
    s.input.at? source = some name ↔ source.setting name ∈ given := by
  rw [← has]
  cases source <;> simp [Scan.at?, Input.at?, Source.setting, Setting.slot, Scan.get]

theorem Scan.Has.named_perm {s : Scan} {scope : Scope} {given : List Setting} (has : s.Has given)
    (fit : Fit scope given) : (given.filterMap Setting.source?).Perm s.input.named := by
  have nodup : (given.filterMap Setting.source?).Nodup := by
    refine List.Nodup.filterMap ?_ fit.nodup.of_map
    rintro p q ⟨source, name⟩ here there
    exact (Setting.source?_eq_some_iff.mp here).symm.trans (Setting.source?_eq_some_iff.mp there)
  rw [List.perm_ext_iff_of_nodup nodup s.input.nodup_named]
  rintro ⟨source, name⟩
  simp only [List.mem_filterMap, Setting.source?_eq_some_iff, exists_eq_right', Input.mem_named_iff,
    has.at?_iff]

end Named

section Reading

variable {i : Input} {env : Environment}

/-- The text that a source has under a name. -/
def Source.readText (env : Environment) (name : String) : Source → Except Failure String
  | .file => (env.files.readText name).mapError (.unreadable name)
  | .exampleId =>
    match Example.find? name with
    | some e => .ok e.text
    | none => .error (.unknownExample name)
  | .document => .ok name

def Environment.readStdin (env : Environment) : Except Failure String :=
  (decodeText env.stdin).mapError fun e => .stream (.input e)

/-- The text of the document, by a reader that asks for the sources in some order. -/
def Input.readTextIn (env : Environment) (i : Input) (order : List Source) :
    Except Failure String :=
  match order.findSome? fun source => (i.at? source).map (source, ·) with
  | some (source, name) => source.readText env name
  | none => env.readStdin

theorem Input.readText_eq_readTextIn (env : Environment) (i : Input) :
    i.readText env = i.readTextIn env [.file, .exampleId, .document] := by
  obtain ⟨file, exampleId, document⟩ := i
  cases file <;> cases exampleId <;> cases document <;> rfl

/-- Where one source is named at most, it is found in whichever order. -/
theorem Input.findSome?_at?_eq (single : i.named.length ≤ 1) {order : List Source}
    (all : ∀ source, source ∈ order) :
    (order.findSome? fun source => (i.at? source).map (source, ·)) = i.named.head? := by
  cases found : order.findSome? fun source => (i.at? source).map (source, ·) with
  | none =>
    rw [List.findSome?_eq_none_iff] at found
    have unnamed : i.named = [] := by
      refine List.eq_nil_iff_forall_not_mem.mpr ?_
      rintro ⟨source, name⟩ member
      have absent := found source (all source)
      rw [mem_named_iff.mp member] at absent
      cases absent
    rw [unnamed, List.head?_nil]
  | some first =>
    obtain ⟨source, -, here⟩ := List.exists_of_findSome?_eq_some found
    obtain ⟨name, there, rfl⟩ := Option.map_eq_some_iff.mp here
    obtain ⟨x, rest⟩ := List.length_eq_one_iff.mp
      (le_antisymm single (List.length_pos_of_mem (mem_named_iff.mpr there)))
    have same : (source, name) = x := by
      simpa [rest] using mem_named_iff.mpr there
    rw [rest, same, List.head?_cons]

theorem Input.readTextIn_eq (env : Environment) (single : i.named.length ≤ 1)
    {order : List Source} (all : ∀ source, source ∈ order) :
    i.readTextIn env order = i.readText env := by
  rw [readText_eq_readTextIn, readTextIn, readTextIn, findSome?_at?_eq single all,
    findSome?_at?_eq single Source.mem_listed]

/-- The text of the document is that of the source that is named, or standard input. -/
theorem Input.readText_eq_head (env : Environment) (single : i.named.length ≤ 1) :
    i.readText env =
      match i.named.head? with
      | some (source, name) => source.readText env name
      | none => env.readStdin := by
  rw [readText_eq_readTextIn, readTextIn, findSome?_at?_eq single Source.mem_listed]

theorem Input.readText_of_named_eq_nil (env : Environment) (unnamed : i.named = []) :
    i.readText env = env.readStdin := by
  rw [readText_eq_head env (by simp [unnamed]), unnamed, List.head?_nil]

theorem Environment.exists_readStdin_ne (env : Environment) :
    ∃ stdin, { env with stdin }.readStdin ≠ env.readStdin := by
  by_contra same
  push Not at same
  have empty : decodeText .empty = .ok "" := by decide +kernel
  have broken : decodeText ⟨#[0xff]⟩ = .error .invalidText := by decide +kernel
  have both := (same .empty).trans (same ⟨#[0xff]⟩).symm
  rw [readStdin, readStdin, empty, broken] at both
  cases both

/-- What is on standard input matters exactly where no source is named. -/
theorem Input.readText_stdin_iff (env : Environment) (single : i.named.length ≤ 1) :
    (∃ stdin, i.readText { env with stdin } ≠ i.readText env) ↔ i.named = [] := by
  constructor
  · rintro ⟨stdin, differs⟩
    by_contra named
    obtain ⟨⟨source, name⟩, rest, named⟩ := List.exists_cons_of_ne_nil named
    refine differs ?_
    rw [readText_eq_head _ single, readText_eq_head _ single, named, List.head?_cons]
    cases source <;> rfl
  · intro unnamed
    simp only [readText_of_named_eq_nil _ unnamed]
    exact env.exists_readStdin_ne

theorem Invocation.readsStdin_iff {i : Invocation} :
    i.readsStdin = true ↔ i.verb ≠ .examples ∧ i.input.named = [] := by
  rw [readsStdin, Bool.and_eq_true, bne_iff_ne, List.isEmpty_iff]

end Reading

end FactFormula.Command
