import FactFormula.Proofs.Command.Spelling
import FactFormula.Proofs.Outcome

/-!
Options whose values wait. A value is taken in when the next word comes, or at the end; it might as
well be taken in at once. An option that waits for its value has it in the next word.
-/
namespace FactFormula.Command.Scan

variable {scope : Scope} {s t u : Scan} {arg : String}

section Settling

theorem settle_of_none (h : s.pending = none) : s.settle = .ok s := by
  rw [settle, h]

theorem settle_of_awaiting {key : Key} (h : s.pending = some ⟨key, none⟩) :
    s.settle = .error .invalidValue := by
  rw [settle, h]

theorem settle_of_value {key : Key} {value : String} (h : s.pending = some ⟨key, some value⟩) :
    s.settle = { s with pending := none }.put key value := by
  rw [settle, h]

@[simp] theorem set_pending (s : Scan) (value : String) (key : Key) :
    (s.set value key).pending = s.pending := by
  cases key <;> rfl

@[simp] theorem set_trailing (s : Scan) (value : String) (key : Key) :
    (s.set value key).trailing = s.trailing := by
  cases key <;> rfl

@[simp] theorem set_document (s : Scan) (value : String) (key : Key) :
    (s.set value key).input.document = s.input.document := by
  cases key <;> rfl

theorem put_eq_ok_iff {key : Key} {value : String} : s.put key value = .ok t ↔
    s.get key = none ∧ (value = "" → key = .exampleId) ∧ t = s.set value key := by
  unfold put
  split
  next filled => simp [Option.isSome_iff_ne_none.mp filled]
  next vacant =>
    rw [Option.not_isSome_iff_eq_none] at vacant
    split
    next missing => simp [missing]
    next whole =>
      have whole : value = "" → key = .exampleId := by simpa using whole
      simp only [vacant, true_and, Except.ok.injEq, and_iff_right whole, eq_comm]

theorem settle_eq_ok_iff : s.settle = .ok t ↔
    s.pending = none ∧ s = t ∨ ∃ key value, s.pending = some ⟨key, some value⟩ ∧
      { s with pending := none }.put key value = .ok t := by
  match h : s.pending with
  | none => simp [settle_of_none h]
  | some ⟨key, none⟩ => simp [settle_of_awaiting h]
  | some ⟨key, some value⟩ =>
    rw [settle_of_value h]
    constructor
    · exact fun put => .inr ⟨key, value, rfl, put⟩
    · rintro (⟨⟨⟩, -⟩ | ⟨_, _, ⟨⟩, put⟩)
      exact put

/-- Taking in what waits keeps all else. -/
theorem settled_of_settle (h : s.settle = .ok t) :
    t.pending = none ∧ t.trailing = s.trailing ∧ t.input.document = s.input.document := by
  rcases settle_eq_ok_iff.mp h with ⟨waiting, rfl⟩ | ⟨key, value, -, put⟩
  · exact ⟨waiting, rfl, rfl⟩
  · obtain ⟨-, -, rfl⟩ := put_eq_ok_iff.mp put
    simp

theorem settle_of_settle (h : s.settle = .ok t) : t.settle = .ok t :=
  settle_of_none (settled_of_settle h).1

/-- Behind `--`. -/
def mark (s : Scan) : Scan := { s with trailing := true }

theorem put_mark_eq_ok_iff (s : Scan) (key : Key) (value : String) :
    s.mark.put key value = .ok t ↔ ∃ u, s.put key value = .ok u ∧ t = u.mark := by
  have get : s.mark.get key = s.get key := by cases key <;> rfl
  have set : s.mark.set value key = (s.set value key).mark := by cases key <;> rfl
  simp only [put_eq_ok_iff, get, set]
  constructor
  · rintro ⟨vacant, whole, rfl⟩
    exact ⟨_, ⟨vacant, whole, rfl⟩, rfl⟩
  · rintro ⟨_, ⟨vacant, whole, rfl⟩, rfl⟩
    exact ⟨vacant, whole, rfl⟩

theorem settle_mark_eq_ok_iff : s.mark.settle = .ok t ↔ ∃ u, s.settle = .ok u ∧ t = u.mark := by
  match h : s.pending with
  | none =>
    have marked : s.mark.pending = none := h
    simp [settle_of_none h, settle_of_none marked, eq_comm]
  | some ⟨key, none⟩ =>
    have marked : s.mark.pending = some ⟨key, none⟩ := h
    simp [settle_of_awaiting h, settle_of_awaiting marked]
  | some ⟨key, some value⟩ =>
    have marked : s.mark.pending = some ⟨key, some value⟩ := h
    rw [settle_of_value h, settle_of_value marked]
    exact put_mark_eq_ok_iff { s with pending := none } key value

end Settling

section Step

theorem step_dashes (h : s.trailing = false) : s.step scope "--" = .ok s.mark := by
  rw [step, if_neg (by simp [h])]
  rfl

theorem step_trailing (h : s.trailing = true) (arg : String) :
    s.step scope arg = s.word scope arg := by
  rw [step, if_pos h]

theorem step_long (h : s.trailing = false) {cs : List Char} (chars : arg.toList = '-' :: '-' :: cs)
    (more : cs ≠ []) : s.step scope arg = s.long scope cs := by
  obtain ⟨c, cs, rfl⟩ := List.exists_cons_of_ne_nil more
  rw [step, if_neg (by simp [h]), chars]
  rfl

theorem step_short (h : s.trailing = false) {c : Char} {cs : List Char}
    (chars : arg.toList = '-' :: c :: cs) (other : c ≠ '-') :
    s.step scope arg = s.shorts scope (c :: cs) := by
  rw [step, if_neg (by simp [h]), chars]
  split <;> simp_all

theorem step_plain (h : s.trailing = false) (plain : Plain arg) :
    s.step scope arg =
      match s.pending with
      | some ⟨key, none⟩ => .ok { s with pending := some ⟨key, some arg⟩ }
      | _ => s.word scope arg := by
  rw [step, if_neg (by simp [h])]
  rcases plain with rfl | plain
  · rfl
  · split
    next chars => exact absurd chars (plain _)
    next chars => exact absurd chars (plain _)
    next chars => exact absurd chars (plain _)
    next => rfl

theorem word_eq_ok_iff : s.word scope arg = .ok t ↔ scope = .document ∧
    s.input.document = none ∧
      ∃ u, s.settle = .ok u ∧ t = { u with input.document := some arg } := by
  cases scope with
  | outer =>
    unfold word
    split_ifs <;> simp
  | plain => simp [word]
  | document =>
    cases document : s.input.document with
    | none => simp [word, document, bind_eq_ok_iff, eq_comm (b := t)]
    | some text => simp [word, document]

end Step

section Waiting

variable {key : Key} {value : String}

theorem word_of_settle (h : s.settle = .ok u) (arg : String) :
    s.word scope arg = u.word scope arg := by
  obtain ⟨-, trailing, document⟩ := settled_of_settle h
  cases scope with
  | outer => simp only [word, trailing]
  | plain => rfl
  | document => simp only [word, document, h, settle_of_settle h]

theorem option_of_settle (h : s.settle = .ok u) (key : Key) (value : Option String) :
    s.option key value = u.option key value := by
  rw [option, option, h, settle_of_settle h]

theorem setVerbose_of_settle (h : s.settle = .ok u) : s.setVerbose = u.setVerbose := by
  rw [setVerbose, setVerbose, h, settle_of_settle h]

theorem askHelp_of_settle (h : s.settle = .ok u) : s.askHelp = u.askHelp := by
  rw [askHelp, askHelp, h, settle_of_settle h]

theorem shorts_of_settle (h : s.settle = .ok u) (c : Char) (cs : List Char) :
    s.shorts scope (c :: cs) = u.shorts scope (c :: cs) := by
  simp only [shorts, askHelp_of_settle h, setVerbose_of_settle h, option_of_settle h]

theorem long_of_settle (h : s.settle = .ok u) (cs : List Char) :
    s.long scope cs = u.long scope cs := by
  simp only [long, askHelp_of_settle h, setVerbose_of_settle h, option_of_settle h]

/-- A word that is no `--` takes in first what waits with its value. -/
theorem step_of_settle (h : s.settle = .ok u) (word : s.trailing = true ∨ arg ≠ "--") :
    s.step scope arg = u.step scope arg := by
  obtain ⟨settled, same, -⟩ := settled_of_settle h
  cases trailing : s.trailing with
  | true => rw [step_trailing trailing, step_trailing (same.trans trailing), word_of_settle h]
  | false =>
    have trailing' : u.trailing = false := same.trans trailing
    cases form arg with
    | dashes => simp [trailing] at word
    | long chars more =>
      rw [step_long trailing chars more, step_long trailing' chars more, long_of_settle h]
    | short chars other =>
      rw [step_short trailing chars other, step_short trailing' chars other, shorts_of_settle h]
    | plain plain =>
      rw [step_plain trailing plain, step_plain trailing' plain, settled]
      rcases settle_eq_ok_iff.mp h with ⟨waiting, -⟩ | ⟨key, value, waiting, -⟩ <;>
        simp only [waiting, word_of_settle h]

/-- While something waits that cannot be taken in, only `--` is let by and, if it waits for its
value, that value. -/
theorem step_of_settle_eq_error {e : UsageError} (h : s.settle = .error e)
    (taken : s.step scope arg = .ok t) : s.trailing = false ∧ (arg = "--" ∧ t = s.mark ∨
      ∃ key, s.pending = some ⟨key, none⟩ ∧ Plain arg ∧
        t = { s with pending := some ⟨key, some arg⟩ }) := by
  have word : s.word scope arg ≠ .ok t := by
    intro taken
    obtain ⟨-, -, u, settled, -⟩ := word_eq_ok_iff.mp taken
    cases h.symm.trans settled
  rcases Bool.eq_false_or_eq_true s.trailing with trailing | trailing
  · exact absurd ((step_trailing trailing arg).symm.trans taken) word
  · refine ⟨trailing, ?_⟩
    cases form arg with
    | dashes => exact .inl ⟨rfl, Except.ok.inj (taken.symm.trans (step_dashes trailing))⟩
    | long chars more =>
      rw [step_long trailing chars more] at taken
      unfold long at taken
      simp only [askHelp, setVerbose, option, h, error_bind] at taken
      split at taken <;> try split_ifs at taken
      all_goals cases taken
    | short chars other =>
      rw [step_short trailing chars other] at taken
      unfold shorts at taken
      simp only [askHelp, setVerbose, option, h, error_bind] at taken
      split at taken <;> try split at taken
      all_goals cases taken
    | plain plain =>
      rw [step_plain trailing plain] at taken
      split at taken
      next key waiting => exact .inr ⟨key, waiting, plain, (Except.ok.inj taken).symm⟩
      next => exact absurd taken word

end Waiting

/-- Takes in all words of a scope, with the value that waits at their end. -/
def readWords (scope : Scope) (s : Scan) (args : List String) : Except UsageError Scan := do
  (← args.foldlM (step scope) s).settle

section Words

variable {args : List String}

theorem readWords_nil (s : Scan) : s.readWords scope [] = s.settle := rfl

theorem readWords_cons_eq_ok_iff : s.readWords scope (arg :: args) = .ok t ↔
    ∃ u, s.step scope arg = .ok u ∧ u.readWords scope args = .ok t := by
  simp only [readWords, List.foldlM_cons, bind_eq_ok_iff]
  constructor
  · rintro ⟨v, ⟨u, here, further⟩, settled⟩
    exact ⟨u, here, v, further, settled⟩
  · rintro ⟨u, here, v, further, settled⟩
    exact ⟨v, ⟨u, here, further⟩, settled⟩

/-- A value that waits can be taken in at once. -/
theorem readWords_of_waiting (h : ∀ key, s.pending ≠ some ⟨key, none⟩) :
    s.readWords scope args = .ok t ↔
      ∃ u, s.settle = .ok u ∧ u.readWords scope args = .ok t := by
  induction args generalizing s t with
  | nil =>
    simp only [readWords_nil]
    constructor
    · intro settled
      exact ⟨t, settled, settle_of_settle settled⟩
    · rintro ⟨u, settled, same⟩
      rwa [settled, ← settle_of_settle settled]
  | cons arg args ih =>
    -- Only `--` leaves it waiting.
    by_cases dashes : s.trailing = false ∧ arg = "--"
    · obtain ⟨trailing, rfl⟩ := dashes
      simp only [readWords_cons_eq_ok_iff, step_dashes trailing, Except.ok.injEq, exists_eq_left']
      rw [ih (s := s.mark) h]
      simp only [settle_mark_eq_ok_iff]
      constructor
      · rintro ⟨_, ⟨u, settled, rfl⟩, further⟩
        have trailing' : u.trailing = false := (settled_of_settle settled).2.1.trans trailing
        exact ⟨u, settled, u.mark, step_dashes trailing', further⟩
      · rintro ⟨u, settled, v, here, further⟩
        have trailing' : u.trailing = false := (settled_of_settle settled).2.1.trans trailing
        cases (step_dashes trailing').symm.trans here
        exact ⟨u.mark, ⟨u, settled, rfl⟩, further⟩
    · have word : s.trailing = true ∨ arg ≠ "--" := by
        rcases Bool.eq_false_or_eq_true s.trailing with trailing | trailing
        · exact .inl trailing
        · exact .inr fun same => dashes ⟨trailing, same⟩
      cases settled : s.settle with
      | ok u =>
        simp only [readWords_cons_eq_ok_iff, step_of_settle settled word, Except.ok.injEq,
          exists_eq_left']
      | error e =>
        simp only [reduceCtorEq, false_and, exists_false, iff_false]
        intro taken
        obtain ⟨u, here, -⟩ := readWords_cons_eq_ok_iff.mp taken
        obtain ⟨trailing, ⟨same, -⟩ | ⟨key, waiting, -⟩⟩ := step_of_settle_eq_error settled here
        · exact dashes ⟨trailing, same⟩
        · exact h key waiting

theorem readWords_mark_of_awaiting {key : Key} (h : s.pending = some ⟨key, none⟩) :
    s.mark.readWords scope args ≠ .ok t := by
  have unsettled : s.mark.settle = .error .invalidValue := settle_of_awaiting h
  intro taken
  cases args with
  | nil => cases unsettled.symm.trans taken
  | cons arg args =>
    obtain ⟨u, here, -⟩ := readWords_cons_eq_ok_iff.mp taken
    cases (step_of_settle_eq_error unsettled here).1

/-- What waits for its value has it in the next word. -/
theorem readWords_of_awaiting {key : Key} (h : s.pending = some ⟨key, none⟩)
    (trailing : s.trailing = false) : s.readWords scope args = .ok t ↔
      ∃ value rest u, args = value :: rest ∧ Plain value ∧
        { s with pending := none }.put key value = .ok u ∧ u.readWords scope rest = .ok t := by
  have valued (value : String) (rest : List String) :
      { s with pending := some ⟨key, some value⟩ }.readWords scope rest = .ok t ↔
        ∃ u, { s with pending := none }.put key value = .ok u ∧ u.readWords scope rest = .ok t :=
    readWords_of_waiting (by simp)
  cases args with
  | nil => simp [readWords_nil, settle_of_awaiting h]
  | cons arg args =>
    rw [readWords_cons_eq_ok_iff]
    constructor
    · rintro ⟨v, here, further⟩
      rcases (step_of_settle_eq_error (settle_of_awaiting h) here).2 with
        ⟨-, rfl⟩ | ⟨other, waiting, plain, rfl⟩
      · exact absurd further (readWords_mark_of_awaiting h)
      · cases h.symm.trans waiting
        obtain ⟨u, put, further⟩ := (valued arg args).mp further
        exact ⟨arg, args, u, rfl, plain, put, further⟩
    · rintro ⟨value, rest, u, ⟨⟩, plain, put, further⟩
      refine ⟨_, ?_, (valued arg args).mpr ⟨u, put, further⟩⟩
      rw [step_plain trailing plain, h]

end Words

end FactFormula.Command.Scan
