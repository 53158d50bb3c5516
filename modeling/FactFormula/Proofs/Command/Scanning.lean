import FactFormula.Proofs.Command.Waiting

/-!
What the scanner makes of the words of a scope. It takes in exactly the settings that they express,
one after the other.
-/
namespace FactFormula.Command.Scan

variable {scope : Scope} {s t u : Scan} {arg : String}

/-- Takes in one setting. -/
def take (scope : Scope) (s : Scan) : Setting → Except UsageError Scan
  | .verbose => s.setVerbose
  | .option key value => s.put key value
  | .document text => s.word scope text

section Ready

/-- Nothing waits, and no `--` has been met. -/
structure Ready (s : Scan) : Prop where
  pending : s.pending = none
  trailing : s.trailing = false

theorem Ready.take (ready : s.Ready) {p : Setting} (taken : s.take scope p = .ok t) : t.Ready := by
  cases p with
  | verbose =>
    rw [Scan.take, setVerbose, settle_of_none ready.pending, ok_bind] at taken
    split_ifs at taken
    cases taken
    exact ⟨ready.pending, ready.trailing⟩
  | option key value =>
    obtain ⟨-, -, rfl⟩ := put_eq_ok_iff.mp taken
    exact ⟨by simp [ready.pending], by simp [ready.trailing]⟩
  | document text =>
    obtain ⟨-, -, u, settled, rfl⟩ := word_eq_ok_iff.mp taken
    cases (settle_of_none ready.pending).symm.trans settled
    exact ⟨ready.pending, ready.trailing⟩

/-- The option whose value is to come. -/
def await (s : Scan) (awaited : Option Key) : Scan :=
  { s with pending := awaited.map fun key => ⟨key, none⟩ }

theorem Ready.await_none (ready : s.Ready) : s.await none = s := by
  rw [await, Option.map_none, ← ready.pending]

theorem Ready.option_eq (ready : s.Ready) (key : Key) (value : Option String) :
    s.option key value =
      match value with
      | some v => s.put key v
      | none => .ok (s.await (some key)) := by
  rw [option, settle_of_none ready.pending, ok_bind]
  cases value <;> rfl

theorem askHelp_ne_ok (s t : Scan) : s.askHelp ≠ .ok t := by
  unfold askHelp
  cases s.settle <;> nofun

/-- The scan comes to `t` by taking in what is given, and then awaits the value of an option. -/
def Takes (scope : Scope) (s : Scan) (given : List Setting) (awaited : Option Key) (t : Scan) :
    Prop :=
  ∃ u, given.foldlM (take scope) s = .ok u ∧ u.await awaited = t

theorem takes_nil_iff (s : Scan) (awaited : Option Key) :
    s.Takes scope [] awaited t ↔ s.await awaited = t := by
  constructor
  · rintro ⟨u, run, rfl⟩
    cases run
    rfl
  · rintro rfl
    exact ⟨s, rfl, rfl⟩

theorem takes_cons_iff {p : Setting} {given : List Setting} {awaited : Option Key} :
    s.Takes scope (p :: given) awaited t ↔
      ∃ u, s.take scope p = .ok u ∧ u.Takes scope given awaited t := by
  simp only [Takes, List.foldlM_cons, bind_eq_ok_iff]
  constructor
  · rintro ⟨v, ⟨u, here, further⟩, awaits⟩
    exact ⟨u, here, v, further, awaits⟩
  · rintro ⟨u, here, v, further, awaits⟩
    exact ⟨v, ⟨u, here, further⟩, awaits⟩

theorem Ready.takes_singleton_iff (ready : s.Ready) {p : Setting} :
    s.Takes scope [p] none t ↔ s.take scope p = .ok t := by
  rw [takes_cons_iff]
  constructor
  · rintro ⟨u, here, v, run, rfl⟩
    cases run
    rw [(ready.take here).await_none, here]
  · intro here
    exact ⟨t, here, t, rfl, (ready.take here).await_none⟩

/-- What letters set is taken in one after the other. -/
theorem Ready.shorts_eq_ok_iff (ready : s.Ready) {cs : List Char} : s.shorts scope cs = .ok t ↔
    ∃ here awaited, Letters scope cs here awaited ∧ s.Takes scope here awaited t := by
  induction cs generalizing s with
  | nil =>
    rw [shorts, Except.ok.injEq]
    constructor
    · rintro rfl
      exact ⟨[], none, .nil, (takes_nil_iff s none).mpr ready.await_none⟩
    · rintro ⟨here, awaited, letters, takes⟩
      cases letters
      exact ready.await_none.symm.trans ((takes_nil_iff s none).mp takes)
  | cons c rest ih =>
    rw [shorts]
    split
    next unknown =>
      refine iff_of_false (by simp) ?_
      rintro ⟨here, awaited, letters, -⟩
      cases letters <;> simp_all
    next help =>
      refine iff_of_false (askHelp_ne_ok s t) ?_
      rintro ⟨here, awaited, letters, -⟩
      cases letters <;> simp_all
    next verbose =>
      rw [bind_eq_ok_iff]
      constructor
      · rintro ⟨u, set, further⟩
        have set : s.take scope .verbose = .ok u := set
        obtain ⟨here, awaited, letters, takes⟩ := (ih (ready.take set)).mp further
        exact ⟨_, awaited, .verbose verbose letters, takes_cons_iff.mpr ⟨u, set, takes⟩⟩
      · rintro ⟨here, awaited, letters, takes⟩
        cases letters with
        | verbose _ letters =>
          obtain ⟨u, set, takes⟩ := takes_cons_iff.mp takes
          exact ⟨u, set, (ih (ready.take set)).mpr ⟨_, _, letters, takes⟩⟩
        | awaiting letter | marked letter | glued letter => cases verbose.symm.trans letter
    next key known =>
      split
      next =>
        rw [ready.option_eq, Except.ok.injEq]
        constructor
        · intro awaits
          exact ⟨[], some key, .awaiting known, (takes_nil_iff s _).mpr awaits⟩
        · rintro ⟨here, awaited, letters, takes⟩
          cases letters with
          | verbose letter => cases known.symm.trans letter
          | awaiting letter =>
            cases known.symm.trans letter
            exact (takes_nil_iff s _).mp takes
      next value =>
        rw [ready.option_eq]
        constructor
        · intro put
          exact ⟨_, none, .marked known value, ready.takes_singleton_iff.mpr put⟩
        · rintro ⟨here, awaited, letters, takes⟩
          cases letters with
          | verbose letter => cases known.symm.trans letter
          | marked letter =>
            cases known.symm.trans letter
            exact ready.takes_singleton_iff.mp takes
          | glued _ other => exact absurd rfl other
      next value some other =>
        rw [ready.option_eq]
        obtain ⟨d, value, rfl⟩ := List.exists_cons_of_ne_nil fun none => some none
        have other : d ≠ '=' := fun same => other value (by rw [same])
        constructor
        · intro put
          exact ⟨_, none, .glued known other value, ready.takes_singleton_iff.mpr put⟩
        · rintro ⟨here, awaited, letters, takes⟩
          cases letters with
          | verbose letter => cases known.symm.trans letter
          | marked letter => exact absurd rfl other
          | glued letter _ =>
            cases known.symm.trans letter
            exact ready.takes_singleton_iff.mp takes

theorem Ready.long_eq_ok_iff (ready : s.Ready) {cs : List Char} : s.long scope cs = .ok t ↔
    ∃ here awaited, OptionWord scope ('-' :: '-' :: cs) here awaited ∧
      s.Takes scope here awaited t := by
  constructor
  · intro taken
    obtain ⟨name, unmarked, rfl | ⟨value, rfl⟩⟩ := exists_name cs
    · simp only [long, splitName_name unmarked] at taken
      cases known : scope.long? name with
      | none => simp [known] at taken
      | some found =>
        cases found with
        | help => exact absurd (by simpa [known] using taken) (askHelp_ne_ok s t)
        | verbose =>
          have set : s.take scope .verbose = .ok t := by simpa [known, Scan.take] using taken
          exact ⟨_, none, .verbose known, ready.takes_singleton_iff.mpr set⟩
        | key key =>
          simp only [known, ready.option_eq, Except.ok.injEq] at taken
          exact ⟨[], some key, .awaiting known, (takes_nil_iff s _).mpr taken⟩
    · simp only [long, splitName_marked unmarked] at taken
      cases known : scope.long? name with
      | none => simp [known] at taken
      | some found =>
        cases found with
        | help | verbose => simp [known] at taken
        | key key =>
          simp only [known, ready.option_eq] at taken
          exact ⟨_, none, .marked known value, ready.takes_singleton_iff.mpr taken⟩
  · rintro ⟨here, awaited, word, takes⟩
    cases word with
    | letters inside => exact absurd inside not_letters_dash
    | verbose known =>
      simp only [long, splitName_name (not_mem_of_long? known), known]
      exact ready.takes_singleton_iff.mp takes
    | awaiting known =>
      simp only [long, splitName_name (not_mem_of_long? known), known, ready.option_eq]
      exact congrArg Except.ok ((takes_nil_iff s _).mp takes)
    | marked known value =>
      simp only [long, splitName_marked (not_mem_of_long? known), known, ready.option_eq]
      exact ready.takes_singleton_iff.mp takes

/-- All that one word can do where nothing waits. -/
theorem Ready.step_eq_ok_iff (ready : s.Ready) : s.step scope arg = .ok t ↔
    arg = "--" ∧ s.mark = t ∨ Plain arg ∧ s.take scope (.document arg) = .ok t ∨
      ∃ here awaited, OptionWord scope arg.toList here awaited ∧
        s.Takes scope here awaited t := by
  cases form arg with
  | dashes =>
    have notPlain : ¬ Plain "--" := not_plain_of_chars rfl (List.cons_ne_nil '-' [])
    simp [step_dashes ready.trailing, notPlain, not_optionWord_dashes]
  | long chars more =>
    have notPlain : ¬ Plain arg := not_plain_of_chars chars (List.cons_ne_nil _ _)
    have notDashes : arg ≠ "--" := by
      rintro rfl
      exact more (List.cons.inj (List.cons.inj chars).2).2.symm
    rw [step_long ready.trailing chars more, ready.long_eq_ok_iff, ← chars]
    simp [notDashes, notPlain]
  | short chars other =>
    have notPlain : ¬ Plain arg := not_plain_of_chars chars (List.cons_ne_nil _ _)
    have notDashes : arg ≠ "--" := by
      rintro rfl
      exact other (List.cons.inj (List.cons.inj chars).2).1.symm
    rw [step_short ready.trailing chars other, ready.shorts_eq_ok_iff, chars]
    simp [notDashes, notPlain, optionWord_short_iff other]
  | plain plain =>
    have notDashes : arg ≠ "--" := by
      rintro rfl
      exact not_plain_of_chars rfl (List.cons_ne_nil '-' []) plain
    have notOption (here : List Setting) (awaited : Option Key) :
        ¬ OptionWord scope arg.toList here awaited :=
      fun word => not_plain_of_optionWord word plain
    rw [step_plain ready.trailing plain, ready.pending]
    simp [notDashes, plain, notOption, Scan.take]

/-- Behind `--` every word is a document. -/
theorem readWords_mark_eq_ok_iff (h : s.pending = none) {args : List String} :
    s.mark.readWords scope args = .ok t ↔
      ∃ u, (args.map .document).foldlM (Scan.take scope) s = .ok u ∧ u.mark = t := by
  induction args generalizing s with
  | nil =>
    have marked : s.mark.pending = none := h
    rw [readWords_nil, settle_of_none marked, Except.ok.injEq]
    constructor
    · intro same
      exact ⟨s, rfl, same⟩
    · rintro ⟨u, run, same⟩
      cases run
      exact same
  | cons arg args ih =>
    have marked : s.mark.pending = none := h
    have step : s.mark.step scope arg = s.mark.word scope arg := step_trailing rfl arg
    simp only [readWords_cons_eq_ok_iff, step, List.map_cons, List.foldlM_cons, bind_eq_ok_iff,
      Scan.take, word_eq_ok_iff, settle_of_none h, settle_of_none marked, Except.ok.injEq,
      exists_eq_left']
    constructor
    · rintro ⟨_, ⟨place, vacant, rfl⟩, further⟩
      obtain ⟨u, run, same⟩ := (ih (s := { s with input.document := some arg }) h).mp further
      exact ⟨u, ⟨_, ⟨place, vacant, rfl⟩, run⟩, same⟩
    · rintro ⟨u, ⟨_, ⟨place, vacant, rfl⟩, run⟩, same⟩
      refine ⟨_, ⟨place, vacant, rfl⟩, ?_⟩
      exact (ih (s := { s with input.document := some arg }) h).mpr ⟨u, run, same⟩

theorem Ready.run (ready : s.Ready) {given : List Setting}
    (run : given.foldlM (Scan.take scope) s = .ok t) : t.Ready := by
  induction given generalizing s with
  | nil =>
    cases run
    exact ready
  | cons p given ih =>
    obtain ⟨u, here, further⟩ := (bind_eq_ok_iff ..).mp run
    exact ih (ready.take here) further

theorem Ready.await_some (ready : s.Ready) (key : Key) :
    { s.await (some key) with pending := none } = s := by
  rw [await, ← ready.pending]

theorem Ready.expresses_of_readWords (ready : s.Ready) {args : List String}
    (taken : s.readWords scope args = .ok t) : ∃ given u, Expresses scope args given ∧
      given.foldlM (Scan.take scope) s = .ok u ∧ t = if "--" ∈ args then u.mark else u := by
  -- An option whose value is to come takes two words at once.
  induction h : args.length using Nat.strong_induction_on generalizing args s with
  | _ n ih =>
    subst h
    cases args with
    | nil =>
      rw [readWords_nil, settle_of_none ready.pending] at taken
      cases taken
      exact ⟨[], t, .nil, rfl, rfl⟩
    | cons arg args =>
      obtain ⟨v, step, further⟩ := readWords_cons_eq_ok_iff.mp taken
      rcases ready.step_eq_ok_iff.mp step with
        ⟨rfl, rfl⟩ | ⟨plain, document⟩ | ⟨here, awaited, word, w, run, rfl⟩
      · obtain ⟨u, run, rfl⟩ := (readWords_mark_eq_ok_iff ready.pending).mp further
        exact ⟨_, u, .dashes args, run, by simp⟩
      · obtain ⟨given, u, expresses, run, rfl⟩ :=
          ih args.length (by simp) (ready.take document) further rfl
        refine ⟨_, u, .document plain expresses, ?_, ?_⟩
        · rw [List.foldlM_cons, document, ok_bind, run]
        · simp [ne_dashes_of_plain plain]
      · have settled : w.Ready := ready.run run
        cases awaited with
        | none =>
          rw [settled.await_none] at further
          obtain ⟨given, u, expresses, later, rfl⟩ := ih args.length (by simp) settled further rfl
          refine ⟨_, u, .option word expresses, ?_, ?_⟩
          · rw [List.foldlM_append, run, ok_bind, later]
          · simp [ne_dashes_of_optionWord word]
        | some key =>
          obtain ⟨value, rest, x, rfl, plain, put, further⟩ :=
            (readWords_of_awaiting (s := w.await (some key)) rfl settled.trailing).mp further
          rw [settled.await_some] at put
          have put : w.take scope (.option key value) = .ok x := put
          have shorter : rest.length < (arg :: value :: rest).length := by
            rw [List.length_cons, List.length_cons]
            omega
          obtain ⟨given, u, expresses, later, rfl⟩ :=
            ih rest.length shorter (settled.take put) further rfl
          refine ⟨_, u, .valued word plain expresses, ?_, ?_⟩
          · rw [List.foldlM_append, run, ok_bind, List.foldlM_cons, put, ok_bind, later]
          · simp [ne_dashes_of_optionWord word, ne_dashes_of_plain plain]

theorem Ready.readWords_of_expresses (ready : s.Ready) {args : List String}
    {given : List Setting} (expresses : Expresses scope args given)
    (run : given.foldlM (Scan.take scope) s = .ok u) :
    s.readWords scope args = .ok (if "--" ∈ args then u.mark else u) := by
  induction expresses generalizing s with
  | nil =>
    cases run
    exact settle_of_none ready.pending
  | @document arg args given plain rest ih =>
    obtain ⟨v, here, further⟩ := (bind_eq_ok_iff ..).mp run
    rw [readWords_cons_eq_ok_iff]
    refine ⟨v, ready.step_eq_ok_iff.mpr (.inr (.inl ⟨plain, here⟩)), ?_⟩
    simpa [ne_dashes_of_plain plain] using ih (ready.take here) further
  | @option arg args here given word rest ih =>
    rw [List.foldlM_append, bind_eq_ok_iff] at run
    obtain ⟨v, run, further⟩ := run
    have settled : v.Ready := ready.run run
    rw [readWords_cons_eq_ok_iff]
    have step := ready.step_eq_ok_iff.mpr
      (.inr (.inr ⟨here, none, word, v, run, settled.await_none⟩))
    refine ⟨v, step, ?_⟩
    simpa [ne_dashes_of_optionWord word] using ih settled further
  | @valued arg value args here given key word plain rest ih =>
    rw [List.foldlM_append, bind_eq_ok_iff] at run
    obtain ⟨v, run, further⟩ := run
    obtain ⟨x, put, further⟩ := (bind_eq_ok_iff ..).mp further
    have settled : v.Ready := ready.run run
    rw [readWords_cons_eq_ok_iff]
    refine ⟨_, ready.step_eq_ok_iff.mpr (.inr (.inr ⟨here, some key, word, v, run, rfl⟩)), ?_⟩
    rw [readWords_of_awaiting (s := v.await (some key)) rfl settled.trailing]
    refine ⟨value, args, x, rfl, plain, by rwa [settled.await_some], ?_⟩
    simpa [ne_dashes_of_optionWord word, ne_dashes_of_plain plain] using
      ih (settled.take put) further
  | dashes args =>
    rw [readWords_cons_eq_ok_iff]
    refine ⟨s.mark, step_dashes ready.trailing, ?_⟩
    rw [readWords_mark_eq_ok_iff ready.pending]
    exact ⟨u, run, by simp⟩

/-- The scanner reads words exactly as settings that they express, taken in one after the other. -/
theorem Ready.readWords_eq_ok_iff (ready : s.Ready) {args : List String} :
    s.readWords scope args = .ok t ↔ ∃ given u, Expresses scope args given ∧
      given.foldlM (Scan.take scope) s = .ok u ∧ t = if "--" ∈ args then u.mark else u := by
  constructor
  · exact ready.expresses_of_readWords
  · rintro ⟨given, u, expresses, run, rfl⟩
    exact ready.readWords_of_expresses expresses run

end Ready

end FactFormula.Command.Scan
