import Mathlib.Tactic.MkIffOfInductiveProp
import Mathlib.Tactic.Tauto
import FactFormula.Proofs.Command.Scanning

/-!
What a scope can hold. Each setting has a slot, and settings are taken in for as long as each comes
into a vacant one; what is read out of a scope is then what its words express, no more and no less.
-/
namespace FactFormula.Command

/-- What can be set once in a scope. -/
inductive Slot where
  | verbose
  | option (key : Key)
  | document
  deriving DecidableEq

def Setting.slot : Setting → Slot
  | .verbose => .verbose
  | .option key _ => .option key
  | .document _ => .document

/-- A path is not empty, and a document stands behind a command that takes one. -/
def Setting.Fits (scope : Scope) : Setting → Prop
  | .verbose => True
  | .option key value => value = "" → key = .exampleId
  | .document _ => scope = .document

/-- Settings that fit into a scope, each in a slot of its own. -/
@[mk_iff]
structure Fit (scope : Scope) (given : List Setting) : Prop where
  nodup : (given.map Setting.slot).Nodup
  fits : ∀ p ∈ given, p.Fits scope

namespace Scan

variable {scope : Scope} {s t : Scan} {p : Setting} {seen given : List Setting}

/-- What a slot holds. -/
def at? (s : Scan) : Slot → Option Setting
  | .verbose => if s.verbose then some .verbose else none
  | .option key => (s.get key).map (.option key)
  | .document => s.input.document.map .document

theorem get_set (s : Scan) (value : String) (key other : Key) :
    (s.set value key).get other = if other = key then some value else s.get other := by
  cases key <;> cases other <;> rfl

@[simp] theorem set_verbose (s : Scan) (value : String) (key : Key) :
    (s.set value key).verbose = s.verbose := by
  cases key <;> rfl

/-- A setting is taken in where it fits and its slot is vacant. -/
theorem Ready.exists_take_iff (ready : s.Ready) :
    (∃ t, s.take scope p = .ok t) ↔ s.at? p.slot = none ∧ p.Fits scope := by
  cases p with
  | verbose =>
    rw [Scan.take, setVerbose, settle_of_none ready.pending, ok_bind]
    cases verbose : s.verbose <;> simp [at?, Setting.slot, Setting.Fits, verbose]
  | option key value =>
    simp only [Scan.take, put_eq_ok_iff, at?, Setting.slot, Setting.Fits, Option.map_eq_none_iff]
    constructor
    · rintro ⟨t, vacant, fits, -⟩
      exact ⟨vacant, fits⟩
    · rintro ⟨vacant, fits⟩
      exact ⟨_, vacant, fits, rfl⟩
  | document text =>
    simp only [Scan.take, word_eq_ok_iff, settle_of_none ready.pending, at?, Setting.slot,
      Setting.Fits, Option.map_eq_none_iff]
    constructor
    · rintro ⟨t, place, vacant, -⟩
      exact ⟨vacant, place⟩
    · rintro ⟨vacant, place⟩
      exact ⟨_, place, vacant, s, rfl, rfl⟩

/-- It fills its slot and no other. -/
theorem Ready.at?_of_take (ready : s.Ready) (taken : s.take scope p = .ok t) (slot : Slot) :
    t.at? slot = if slot = p.slot then some p else s.at? slot := by
  cases p with
  | verbose =>
    rw [Scan.take, setVerbose, settle_of_none ready.pending, ok_bind] at taken
    split_ifs at taken
    cases taken
    cases slot with
    | verbose => rfl
    | option key => cases key <;> rfl
    | document => rfl
  | option key value =>
    obtain ⟨-, -, rfl⟩ := put_eq_ok_iff.mp taken
    cases slot with
    | verbose => simp [at?, Setting.slot]
    | option other =>
      simp only [at?, get_set, Setting.slot, Slot.option.injEq]
      split_ifs with same
      · rw [same]
        rfl
      · rfl
    | document => simp [at?, Setting.slot]
  | document text =>
    obtain ⟨-, -, u, settled, rfl⟩ := word_eq_ok_iff.mp taken
    cases (settle_of_none ready.pending).symm.trans settled
    cases slot with
    | verbose => rfl
    | option key => cases key <;> rfl
    | document => rfl

/-- The settings of a scan are those that it has seen. -/
def Has (s : Scan) (seen : List Setting) : Prop := ∀ p, s.at? p.slot = some p ↔ p ∈ seen

theorem slot_of_at? {slot : Slot} (h : s.at? slot = some p) : p.slot = slot := by
  cases slot with
  | verbose =>
    simp only [at?] at h
    split_ifs at h
    cases h
    rfl
  | option key =>
    obtain ⟨value, -, rfl⟩ := Option.map_eq_some_iff.mp h
    rfl
  | document =>
    obtain ⟨text, -, rfl⟩ := Option.map_eq_some_iff.mp h
    rfl

theorem Has.vacant_iff (has : s.Has seen) (p : Setting) :
    s.at? p.slot = none ↔ p.slot ∉ seen.map Setting.slot := by
  rw [Option.eq_none_iff_forall_ne_some, List.mem_map, not_exists]
  constructor
  · rintro vacant q ⟨member, same⟩
    exact vacant q (same ▸ (has q).mpr member)
  · intro unseen q filled
    have same : q.slot = p.slot := slot_of_at? filled
    exact unseen q ⟨(has q).mp (same ▸ filled), same⟩

theorem fit_append_singleton : Fit scope (seen ++ [p]) ↔
    p.slot ∉ seen.map Setting.slot ∧ Fit scope seen ∧ p.Fits scope := by
  simp only [fit_iff, nodup_keys_append_singleton, List.forall_mem_append,
    List.forall_mem_singleton]
  tauto

theorem Fit.of_append {later : List Setting} (fit : Fit scope (seen ++ later)) :
    Fit scope seen :=
  ⟨nodup_keys_of_append _ fit.nodup, fun p hp => fit.fits p (List.mem_append_left _ hp)⟩

theorem Has.take (has : s.Has seen) (ready : s.Ready) (taken : s.take scope p = .ok t) :
    t.Has (seen ++ [p]) := by
  have fresh : p.slot ∉ seen.map Setting.slot :=
    (has.vacant_iff p).mp (ready.exists_take_iff.mp ⟨t, taken⟩).1
  intro q
  rw [ready.at?_of_take taken, List.mem_append, List.mem_singleton]
  split_ifs with same
  · have unseen : q ∉ seen := fun member => fresh (same ▸ List.mem_map_of_mem member)
    simp [unseen, eq_comm]
  · have other : q ≠ p := fun h => same (congrArg Setting.slot h)
    simp [other, has q]

/-- Settings are taken in for as long as they fit. -/
theorem loopInvariant (scope : Scope) : LoopInvariant (take scope)
    (fun s seen => s.Ready ∧ Fit scope seen ∧ s.Has seen) (Fit scope) where
  fit_of_holds h := h.2.1
  fit_of_append := Fit.of_append
  accepts := by
    rintro s seen p ⟨ready, -, has⟩ fit
    obtain ⟨fresh, -, fits⟩ := fit_append_singleton.mp fit
    exact ready.exists_take_iff.mpr ⟨(has.vacant_iff p).mpr fresh, fits⟩
  keeps := by
    rintro s t seen p ⟨ready, fit, has⟩ taken
    obtain ⟨vacant, fits⟩ := ready.exists_take_iff.mp ⟨t, taken⟩
    have fresh := (has.vacant_iff p).mp vacant
    exact ⟨ready.take taken, fit_append_singleton.mpr ⟨fresh, fit, fits⟩, has.take ready taken⟩

theorem start_holds (scope : Scope) : start.Ready ∧ Fit scope [] ∧ start.Has [] := by
  refine ⟨⟨rfl, rfl⟩, ⟨List.nodup_nil, by simp⟩, fun p => ?_⟩
  cases p with
  | verbose => simp [at?, start, Setting.slot]
  | option key value => cases key <;> simp [at?, start, get, Setting.slot]
  | document text => simp [at?, start, Setting.slot]

theorem at?_mark (s : Scan) (slot : Slot) : s.mark.at? slot = s.at? slot := by
  cases slot with
  | verbose => rfl
  | option key => cases key <;> rfl
  | document => rfl

variable {args : List String}

/-- What has been read out of the words of a scope. -/
structure HasRead (args : List String) (given : List Setting) (t : Scan) : Prop where
  has : t.Has given
  trailing : t.trailing = true ↔ "--" ∈ args

theorem hasRead_of_run (run : given.foldlM (take scope) start = .ok t) (args : List String) :
    HasRead args given (if "--" ∈ args then t.mark else t) := by
  obtain ⟨ready, -, has⟩ := (loopInvariant scope).keeps_run (start_holds scope) run
  rw [List.nil_append] at has
  split_ifs with dashes
  · exact ⟨fun p => (t.at?_mark p.slot).symm ▸ has p, iff_of_true rfl dashes⟩
  · exact ⟨has, iff_of_false (by simp [ready.trailing]) dashes⟩

theorem exists_given_of_readWords (taken : start.readWords scope args = .ok t) :
    ∃ given, Expresses scope args given ∧ Fit scope given ∧ HasRead args given t := by
  obtain ⟨given, u, expresses, run, rfl⟩ := (start_holds scope).1.readWords_eq_ok_iff.mp taken
  have fit := ((loopInvariant scope).keeps_run (start_holds scope) run).2.1
  exact ⟨given, expresses, fit, hasRead_of_run run args⟩

theorem exists_readWords (expresses : Expresses scope args given) (fit : Fit scope given) :
    ∃ t, start.readWords scope args = .ok t ∧ HasRead args given t := by
  obtain ⟨u, run⟩ := ((loopInvariant scope).exists_run_iff (start_holds scope)).mpr fit
  refine ⟨_, ?_, hasRead_of_run run args⟩
  exact (start_holds scope).1.readWords_eq_ok_iff.mpr ⟨given, u, expresses, run, rfl⟩

end Scan

end FactFormula.Command
