import Mathlib.Data.List.Nodup

/-! Steps that may fail, one after the other, and loops of such steps. -/
namespace FactFormula

variable {ε δ α β σ ρ : Type}

@[simp] theorem ok_bind (a : α) (f : α → Except ε β) : (Except.ok a >>= f) = f a := rfl

@[simp] theorem error_bind (e : ε) (f : α → Except ε β) : (Except.error e >>= f) = .error e := rfl

@[simp] theorem pure_eq_ok (a : α) : (pure a : Except ε α) = .ok a := rfl

/-- Two steps succeed together exactly when the first does and the second on its result. -/
theorem bind_eq_ok_iff (x : Except ε α) (f : α → Except ε β) (b : β) :
    (x >>= f) = .ok b ↔ ∃ a, x = .ok a ∧ f a = .ok b := by
  cases x <;> simp

/-- Another name for the error does not change what succeeds. -/
theorem mapError_eq_ok_iff (f : ε → δ) (x : Except ε α) (a : α) :
    x.mapError f = .ok a ↔ x = .ok a := by
  cases x with
  | error e => constructor <;> nofun
  | ok b =>
    constructor
    · rintro ⟨⟩
      rfl
    · rintro ⟨⟩
      rfl

theorem mapError_eq_error_iff (f : ε → δ) (x : Except ε α) (e : δ) :
    x.mapError f = .error e ↔ ∃ cause, x = .error cause ∧ f cause = e := by
  cases x with
  | error cause =>
    constructor
    · rintro ⟨⟩
      exact ⟨cause, rfl, rfl⟩
    · rintro ⟨_, ⟨⟩, rfl⟩
      rfl
  | ok a =>
    constructor
    · rintro ⟨⟩
    · rintro ⟨_, ⟨⟩, _⟩

/-- Of two steps the first may fail, or it succeeds and the second fails on its result. -/
theorem bind_eq_error_iff (x : Except ε α) (f : α → Except ε β) (e : ε) :
    (x >>= f) = .error e ↔ x = .error e ∨ ∃ a, x = .ok a ∧ f a = .error e := by
  cases x <;> simp

theorem eq_of_map_eq_ok {x : Except ε α} {f : α → β} {a : α} {b : β} (h : x = .ok a)
    (mapped : x.map f = .ok b) : f a = b := by
  rw [h] at mapped
  exact Except.ok.inj mapped

/-- A loop fails at the first row that its step refuses. -/
theorem foldlM_eq_error_iff {step : σ → ρ → Except ε σ} {s : σ} {rows : List ρ} {e : ε} :
    rows.foldlM step s = .error e ↔ ∃ k row t, rows[k]? = some row ∧
      (rows.take k).foldlM step s = .ok t ∧ step t row = .error e := by
  induction rows generalizing s with
  | nil => simp
  | cons row rows ih =>
    rw [List.foldlM_cons, bind_eq_error_iff]
    constructor
    · rintro (refused | ⟨t, taken, later⟩)
      · exact ⟨0, row, s, rfl, rfl, refused⟩
      · obtain ⟨k, other, u, here, before, refused⟩ := ih.mp later
        refine ⟨k + 1, other, u, here, ?_, refused⟩
        rw [List.take_succ_cons, List.foldlM_cons, taken, ok_bind, before]
    · rintro ⟨k, other, u, here, before, refused⟩
      cases k with
      | zero =>
        cases here
        cases before
        exact .inl refused
      | succ k =>
        rw [List.take_succ_cons, List.foldlM_cons, bind_eq_ok_iff] at before
        obtain ⟨t, taken, before⟩ := before
        exact .inr ⟨t, taken, ih.mpr ⟨k, other, u, here, before, refused⟩⟩

/-- What a loop keeps up between its state and the rows it has seen. It goes on for as long as the
rows fit together, and no longer. -/
structure LoopInvariant (step : σ → ρ → Except ε σ) (Holds : σ → List ρ → Prop)
    (Fit : List ρ → Prop) : Prop where
  fit_of_holds {s : σ} {seen : List ρ} : Holds s seen → Fit seen
  fit_of_append {seen later : List ρ} : Fit (seen ++ later) → Fit seen
  accepts {s : σ} {seen : List ρ} {row : ρ} :
    Holds s seen → Fit (seen ++ [row]) → ∃ s', step s row = .ok s'
  keeps {s s' : σ} {seen : List ρ} {row : ρ} :
    Holds s seen → step s row = .ok s' → Holds s' (seen ++ [row])

namespace LoopInvariant

variable {step : σ → ρ → Except ε σ} {Holds : σ → List ρ → Prop} {Fit : List ρ → Prop}
variable {s s' : σ} {seen rows : List ρ}

theorem keeps_run (inv : LoopInvariant step Holds Fit) (h : Holds s seen)
    (run : rows.foldlM step s = .ok s') : Holds s' (seen ++ rows) := by
  -- The rows seen so far take up the first of those to come, one at a time.
  induction rows generalizing s seen with
  | nil =>
    obtain rfl : s = s' := Except.ok.inj run
    rwa [List.append_nil]
  | cons row rows ih =>
    rw [List.foldlM_cons, bind_eq_ok_iff] at run
    obtain ⟨t, first, rest⟩ := run
    rw [List.append_cons]
    exact ih (inv.keeps h first) rest

theorem accepts_run (inv : LoopInvariant step Holds Fit) (h : Holds s seen)
    (fit : Fit (seen ++ rows)) : ∃ s', rows.foldlM step s = .ok s' := by
  induction rows generalizing s seen with
  | nil => exact ⟨s, rfl⟩
  | cons row rows ih =>
    rw [List.append_cons] at fit
    obtain ⟨t, first⟩ := inv.accepts h (inv.fit_of_append fit)
    obtain ⟨s', rest⟩ := ih (inv.keeps h first) fit
    refine ⟨s', ?_⟩
    rw [List.foldlM_cons, first, ok_bind, rest]

/-- A loop that begins with no rows behind it comes to its end exactly when all rows fit. -/
theorem exists_run_iff (inv : LoopInvariant step Holds Fit) (h : Holds s []) :
    (∃ s', rows.foldlM step s = .ok s') ↔ Fit rows := by
  constructor
  · rintro ⟨s', run⟩
    exact inv.fit_of_holds (inv.keeps_run h run)
  · intro fit
    exact inv.accepts_run h fit

/-- Where the step refuses a row for a reason in the rows it has seen, the loop fails at the first
row that is refused, and the rows before it fit together. -/
theorem run_eq_error_iff (inv : LoopInvariant step Holds Fit) {Refused : List ρ → ρ → ε → Prop}
    (refuses : ∀ {s seen row e}, Holds s seen → (step s row = .error e ↔ Refused seen row e))
    (h : Holds s []) {e : ε} :
    rows.foldlM step s = .error e ↔
      ∃ k row, rows[k]? = some row ∧ Fit (rows.take k) ∧ Refused (rows.take k) row e := by
  rw [foldlM_eq_error_iff]
  constructor
  · rintro ⟨k, row, t, here, before, refused⟩
    have holds : Holds t (rows.take k) := inv.keeps_run h before
    exact ⟨k, row, here, inv.fit_of_holds holds, (refuses holds).mp refused⟩
  · rintro ⟨k, row, here, fit, refused⟩
    have seen : Fit ([] ++ rows.take k) := fit
    obtain ⟨t, before⟩ := inv.accepts_run h seen
    exact ⟨k, row, t, here, before, (refuses (inv.keeps_run h before)).mpr refused⟩

end LoopInvariant

section Keys

variable {κ : Type} {rows later : List ρ} {row : ρ} (key : ρ → κ)

/-- A row fits those before it when its key is new. -/
theorem nodup_keys_append_singleton :
    ((rows ++ [row]).map key).Nodup ↔ key row ∉ rows.map key ∧ (rows.map key).Nodup := by
  rw [List.map_append, List.map_singleton, ← List.concat_eq_append, List.nodup_concat]

theorem nodup_keys_of_append (h : ((rows ++ later).map key).Nodup) : (rows.map key).Nodup :=
  h.sublist ((List.sublist_append_left rows later).map key)

end Keys

end FactFormula
