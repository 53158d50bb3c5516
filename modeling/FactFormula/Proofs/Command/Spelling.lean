import Mathlib.Data.List.TakeWhile
import Mathlib.Tactic.SplitIfs
import FactFormula.Command.Arguments

/-!
How settings are spelled on the command line, said without the scanner. An option has a letter or a
name; its value is attached to it or is the next word. Behind `--` all words are documents. No words
express two things.
-/
namespace FactFormula.Command

/-- Something that is set on the command line. -/
inductive Setting where
  | verbose
  | option (key : Key) (value : String)
  | document (text : String)
  deriving DecidableEq

/-- Not an option: without a dash at the beginning, or nothing but a dash. -/
def Plain (arg : String) : Prop := arg = "-" ∨ ∀ cs, arg.toList ≠ '-' :: cs

/-- The letters behind one dash, what they set, and the option whose value is still to come. -/
inductive Letters (scope : Scope) : List Char → List Setting → Option Key → Prop where
  | nil : Letters scope [] [] none
  | verbose {c : Char} {cs : List Char} {given : List Setting} {awaited : Option Key}
      (letter : scope.short? c = some .verbose) (rest : Letters scope cs given awaited) :
      Letters scope (c :: cs) (.verbose :: given) awaited
  | awaiting {c : Char} {key : Key} (letter : scope.short? c = some (.key key)) :
      Letters scope [c] [] (some key)
  | marked {c : Char} {key : Key} (letter : scope.short? c = some (.key key))
      (value : List Char) :
      Letters scope (c :: '=' :: value) [.option key (String.ofList value)] none
  | glued {c d : Char} {key : Key} (letter : scope.short? c = some (.key key)) (other : d ≠ '=')
      (value : List Char) :
      Letters scope (c :: d :: value) [.option key (String.ofList (d :: value))] none

/-- A word that begins with a dash. -/
inductive OptionWord (scope : Scope) : List Char → List Setting → Option Key → Prop where
  | letters {c : Char} {cs : List Char} {given : List Setting} {awaited : Option Key}
      (inside : Letters scope (c :: cs) given awaited) :
      OptionWord scope ('-' :: c :: cs) given awaited
  | verbose {name : String} (known : scope.long? name = some .verbose) :
      OptionWord scope ('-' :: '-' :: name.toList) [.verbose] none
  | awaiting {name : String} {key : Key} (known : scope.long? name = some (.key key)) :
      OptionWord scope ('-' :: '-' :: name.toList) [] (some key)
  | marked {name : String} {key : Key} (known : scope.long? name = some (.key key))
      (value : List Char) :
      OptionWord scope ('-' :: '-' :: (name.toList ++ '=' :: value))
        [.option key (String.ofList value)] none

/-- The words of a scope and the settings that they express. -/
inductive Expresses (scope : Scope) : List String → List Setting → Prop where
  | nil : Expresses scope [] []
  | document {arg : String} {args : List String} {given : List Setting} (plain : Plain arg)
      (rest : Expresses scope args given) : Expresses scope (arg :: args) (.document arg :: given)
  | option {arg : String} {args : List String} {here given : List Setting}
      (word : OptionWord scope arg.toList here none) (rest : Expresses scope args given) :
      Expresses scope (arg :: args) (here ++ given)
  | valued {arg value : String} {args : List String} {here given : List Setting} {key : Key}
      (word : OptionWord scope arg.toList here (some key)) (plain : Plain value)
      (rest : Expresses scope args given) :
      Expresses scope (arg :: value :: args) (here ++ .option key value :: given)
  | dashes (args : List String) : Expresses scope ("--" :: args) (args.map .document)

/-- The forms a word can have. -/
inductive Form : String → Prop where
  | dashes : Form "--"
  | long {arg : String} {cs : List Char} (chars : arg.toList = '-' :: '-' :: cs) (some : cs ≠ []) :
      Form arg
  | short {arg : String} {c : Char} {cs : List Char} (chars : arg.toList = '-' :: c :: cs)
      (other : c ≠ '-') : Form arg
  | plain {arg : String} (plain : Plain arg) : Form arg

theorem form (arg : String) : Form arg := by
  have eq {cs : List Char} (h : arg.toList = cs) : arg = String.ofList cs := by
    rw [← h, String.ofList_toList]
  cases h : arg.toList with
  | nil => exact .plain (.inr fun cs h' => by simp [h] at h')
  | cons c cs =>
    by_cases dash : c = '-'
    case neg =>
      refine .plain (.inr fun ds h' => ?_)
      rw [h] at h'
      exact dash (List.cons.inj h').1
    subst dash
    cases cs with
    | nil => exact .plain (.inl (eq h))
    | cons d ds =>
      by_cases dash : d = '-'
      case neg => exact .short h dash
      subst dash
      cases ds with
      | nil =>
        obtain rfl : arg = "--" := eq h
        exact .dashes
      | cons e es => exact .long h (List.cons_ne_nil e es)

section Names

variable {scope : Scope}

/-- A name without an equals sign stands alone or before a value. -/
theorem exists_name (cs : List Char) : ∃ name : String, '=' ∉ name.toList ∧
    (cs = name.toList ∨ ∃ value, cs = name.toList ++ '=' :: value) := by
  by_cases marked : '=' ∈ cs
  · obtain ⟨name, value, rfl, unmarked⟩ := List.eq_append_cons_of_mem marked
    exact ⟨String.ofList name, by simpa using unmarked, .inr ⟨value, by simp⟩⟩
  · exact ⟨String.ofList cs, by simpa using marked, .inl (by simp)⟩

theorem not_mem_of_long? {name : String} {w : Switch} (known : scope.long? name = some w) :
    '=' ∉ name.toList := by
  have listed : name ∈ ["help", "verbose", "data-dir", "file", "example"] := by
    unfold Scope.long? at known
    split_ifs at known <;> simp_all
  have unmarked : ∀ n ∈ ["help", "verbose", "data-dir", "file", "example"], '=' ∉ n.toList := by
    decide
  exact unmarked name listed

theorem Scan.splitName_name {name : String} (h : '=' ∉ name.toList) :
    splitName name.toList = (name, none) := by
  have differs : ∀ c ∈ name.toList, (c != '=') = true :=
    fun c hc => by simpa using ne_of_mem_of_not_mem hc h
  rw [splitName, List.takeWhile_eq_self_iff.mpr differs, List.dropWhile_eq_nil_iff.mpr differs,
    String.ofList_toList]

theorem Scan.splitName_marked {name : String} (h : '=' ∉ name.toList) (value : List Char) :
    splitName (name.toList ++ '=' :: value) = (name, some (String.ofList value)) := by
  have differs : ∀ c ∈ name.toList, (c != '=') = true :=
    fun c hc => by simpa using ne_of_mem_of_not_mem hc h
  rw [splitName, List.takeWhile_append_of_pos differs, List.dropWhile_append_of_pos differs]
  simp

end Names

section Forms

variable {scope : Scope} {arg : String} {cs : List Char} {here : List Setting}
variable {awaited : Option Key}

theorem not_letters_dash :
    ¬ Letters scope ('-' :: cs) here awaited := by
  have unknown : scope.short? '-' = none := by cases scope <;> decide
  intro letters
  cases letters <;> simp_all

theorem not_plain_of_chars (chars : arg.toList = '-' :: cs) (more : cs ≠ []) : ¬ Plain arg := by
  rintro (rfl | plain)
  · exact more (List.cons.inj chars).2.symm
  · exact plain cs chars

theorem not_plain_of_optionWord (word : OptionWord scope arg.toList here awaited) :
    ¬ Plain arg := by
  generalize chars : arg.toList = cs at word
  cases word with
  | letters | verbose | awaiting | marked => exact not_plain_of_chars chars (List.cons_ne_nil _ _)

theorem not_optionWord_dashes : ¬ OptionWord scope ['-', '-'] here awaited := by
  have unnamed (w : Switch) : scope.long? "" ≠ some w := by
    cases scope <;> nofun
  intro word
  generalize chars : ['-', '-'] = cs at word
  cases word with
  | letters inside =>
    cases chars
    exact not_letters_dash inside
  | @verbose name known | @awaiting name _ known =>
    obtain rfl : name = "" := String.toList_inj.mp (by simpa using chars)
    exact unnamed _ known
  | marked => simp at chars

theorem optionWord_short_iff {c : Char} (other : c ≠ '-') :
    OptionWord scope ('-' :: c :: cs) here awaited ↔ Letters scope (c :: cs) here awaited := by
  constructor
  · intro word
    cases word with
    | letters inside => exact inside
    | verbose | awaiting | marked => exact absurd rfl other
  · exact .letters

theorem ne_dashes_of_plain (plain : Plain arg) : "--" ≠ arg := by
  rintro rfl
  exact not_plain_of_chars rfl (List.cons_ne_nil '-' []) plain

theorem ne_dashes_of_optionWord (word : OptionWord scope arg.toList here awaited) : "--" ≠ arg := by
  rintro rfl
  exact not_optionWord_dashes word

end Forms

section Unique

variable {scope : Scope} {cs : List Char} {here here' : List Setting}
variable {awaited awaited' : Option Key}

theorem Letters.unique (one : Letters scope cs here awaited)
    (other : Letters scope cs here' awaited') : here = here' ∧ awaited = awaited' := by
  induction one generalizing here' awaited' with
  | nil =>
    cases other
    exact ⟨rfl, rfl⟩
  | verbose letter rest ih =>
    cases other with
    | verbose _ rest' =>
      obtain ⟨rfl, rfl⟩ := ih rest'
      exact ⟨rfl, rfl⟩
    | awaiting letter' | marked letter' | glued letter' => cases letter.symm.trans letter'
  | awaiting letter =>
    cases other with
    | verbose letter' => cases letter.symm.trans letter'
    | awaiting letter' =>
      cases letter.symm.trans letter'
      exact ⟨rfl, rfl⟩
  | marked letter value =>
    cases other with
    | verbose letter' => cases letter.symm.trans letter'
    | marked letter' =>
      cases letter.symm.trans letter'
      exact ⟨rfl, rfl⟩
    | glued _ differs => exact absurd rfl differs
  | glued letter differs value =>
    cases other with
    | verbose letter' => cases letter.symm.trans letter'
    | marked => exact absurd rfl differs
    | glued letter' =>
      cases letter.symm.trans letter'
      exact ⟨rfl, rfl⟩

/-- What stands behind two dashes is known from its name and what follows the equals sign. -/
theorem OptionWord.long_cases (word : OptionWord scope ('-' :: '-' :: cs) here awaited) :
    (∃ name, Scan.splitName cs = (name, none) ∧ scope.long? name = some .verbose ∧
      here = [.verbose] ∧ awaited = none) ∨
    (∃ name key, Scan.splitName cs = (name, none) ∧ scope.long? name = some (.key key) ∧
      here = [] ∧ awaited = some key) ∨
    ∃ name key value, Scan.splitName cs = (name, some value) ∧
      scope.long? name = some (.key key) ∧ here = [.option key value] ∧ awaited = none := by
  cases word with
  | letters inside => exact absurd inside not_letters_dash
  | verbose known =>
    exact .inl ⟨_, Scan.splitName_name (not_mem_of_long? known), known, rfl, rfl⟩
  | awaiting known =>
    exact .inr (.inl ⟨_, _, Scan.splitName_name (not_mem_of_long? known), known, rfl, rfl⟩)
  | marked known value =>
    have split := Scan.splitName_marked (not_mem_of_long? known) value
    exact .inr (.inr ⟨_, _, _, split, known, rfl, rfl⟩)

theorem OptionWord.unique_long (one : OptionWord scope ('-' :: '-' :: cs) here awaited)
    (other : OptionWord scope ('-' :: '-' :: cs) here' awaited') :
    here = here' ∧ awaited = awaited' := by
  rcases one.long_cases with ⟨name, split, known, rfl, rfl⟩ | ⟨name, key, split, known, rfl, rfl⟩ |
      ⟨name, key, value, split, known, rfl, rfl⟩ <;>
    rcases other.long_cases with ⟨_, split', known', rfl, rfl⟩ | ⟨_, _, split', known', rfl, rfl⟩ |
      ⟨_, _, _, split', known', rfl, rfl⟩ <;>
    simp_all

theorem OptionWord.unique (one : OptionWord scope cs here awaited)
    (other : OptionWord scope cs here' awaited') : here = here' ∧ awaited = awaited' := by
  cases one with
  | @letters c _ _ _ inside =>
    have short : c ≠ '-' := by
      rintro rfl
      exact not_letters_dash inside
    exact inside.unique ((optionWord_short_iff short).mp other)
  | verbose known => exact (OptionWord.verbose known).unique_long other
  | awaiting known => exact (OptionWord.awaiting known).unique_long other
  | marked known value => exact (OptionWord.marked known value).unique_long other

variable {xs ys args : List String} {given given' : List Setting}

/-- What follows words that express something is read by itself, unless it stands behind `--`. -/
theorem Expresses.later (first : Expresses scope xs here)
    (all : Expresses scope (xs ++ ys) given) : ∃ later, given = here ++ later ∧
      if "--" ∈ xs then later = ys.map .document else Expresses scope ys later := by
  induction first generalizing given with
  | nil => exact ⟨given, rfl, by simpa using all⟩
  | document plain rest ih =>
    -- The rest has a name, because an option would take its value out of it.
    rw [List.cons_append] at all
    generalize behind : _ ++ ys = words at all
    cases all with
    | document _ rest' =>
      subst behind
      obtain ⟨later, rfl, further⟩ := ih rest'
      exact ⟨later, rfl, by simpa [ne_dashes_of_plain plain] using further⟩
    | option word | valued word => exact absurd plain (not_plain_of_optionWord word)
    | dashes => exact absurd rfl (ne_dashes_of_plain plain)
  | option word rest ih =>
    rw [List.cons_append] at all
    generalize behind : _ ++ ys = words at all
    cases all with
    | document plain => exact absurd plain (not_plain_of_optionWord word)
    | option word' rest' =>
      subst behind
      obtain ⟨rfl, -⟩ := word.unique word'
      obtain ⟨later, rfl, further⟩ := ih rest'
      refine ⟨later, (List.append_assoc ..).symm, ?_⟩
      simpa [ne_dashes_of_optionWord word] using further
    | valued word' => cases (word.unique word').2
    | dashes => exact absurd rfl (ne_dashes_of_optionWord word)
  | valued word plain rest ih =>
    cases all with
    | document plain' => exact absurd plain' (not_plain_of_optionWord word)
    | option word' => cases (word.unique word').2
    | valued word' _ rest' =>
      obtain ⟨rfl, ⟨⟩⟩ := word.unique word'
      obtain ⟨later, rfl, further⟩ := ih rest'
      refine ⟨later, by simp, ?_⟩
      simpa [ne_dashes_of_optionWord word, ne_dashes_of_plain plain] using further
    | dashes => exact absurd rfl (ne_dashes_of_optionWord word)
  | dashes args =>
    rw [List.cons_append] at all
    generalize behind : _ ++ ys = words at all
    cases all with
    | document plain => exact absurd rfl (ne_dashes_of_plain plain)
    | option word | valued word => exact absurd rfl (ne_dashes_of_optionWord word)
    | dashes =>
      subst behind
      exact ⟨ys.map .document, by simp, by simp⟩

/-- Words express one thing only. -/
theorem Expresses.unique (one : Expresses scope args given)
    (other : Expresses scope args given') : given = given' := by
  have all : Expresses scope (args ++ []) given' := by rwa [List.append_nil]
  obtain ⟨later, rfl, rest⟩ := one.later all
  have nothing : later = [] := by
    split_ifs at rest
    · exact rest
    · cases rest
      rfl
  rw [nothing, List.append_nil]

end Unique

end FactFormula.Command
