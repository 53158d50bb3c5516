import FactFormula.Proofs.Expression.OperandKinds

/-!
What the readers of formulas and documents accept, and how they refuse everything else. A text that
holds no container is no JSON to them. Of the others they accept those that the grammar spells, as
what it spells, and refuse the rest for its shape.
-/
namespace FactFormula
open Json

/-- Neither a list nor an object. -/
def Json.Value.isScalar : Value → Bool
  | .null | .bool _ | .number _ | .string _ => true
  | .array _ | .object _ => false

/-- The text cannot be read, or what is read is no container. -/
def HoldsNoContainer (text : String) : Prop :=
  (∃ e, Value.ofText text = .error e) ∨ ∃ v, Value.ofText text = .ok v ∧ v.isScalar = true

/-- The text is an object that spells the formula. -/
def Expression.SpelledBy (text : String) (e : Expression) : Prop :=
  ∃ members, Value.ofText text = .ok (.object members) ∧ Spells (.object members) e.toOperand

/-- The text is an object with the spelled formula and the security under their keys. -/
def Document.SpelledBy (text : String) (d : Document) : Prop :=
  ∃ members v, Value.ofText text = .ok (.object members) ∧ ("expression", v) ∈ members ∧
    Spells v d.expression.toOperand ∧ ("security", .string d.security) ∈ members

/-- The three ways in which the reading of a text can end, each with the texts that end so. -/
structure Decides {α : Type} (outcome : Except DocumentError α) (text : String)
    (Spelled : α → Prop) : Prop where
  accepted : ∀ a, outcome = .ok a ↔ Spelled a
  invalidJson : (∃ fault, outcome = .error (.invalidJson fault)) ↔ HoldsNoContainer text
  invalidDsl : Refused outcome ↔ ¬ HoldsNoContainer text ∧ ¬ ∃ a, Spelled a

section

variable {α : Type} {text : String} {members : List (String × Value)}

theorem membersOfText_eq_ok_iff :
    membersOfText text = .ok members ↔ Value.ofText text = .ok (.object members) :=
  ⟨ofText_of_membersOfText, membersOfText_eq_ok⟩

/-- Before the members are looked at, only a text without a container is refused as JSON. -/
theorem membersOfText_invalidJson_iff :
    (∃ fault, membersOfText text = .error (.invalidJson fault)) ↔ HoldsNoContainer text := by
  unfold HoldsNoContainer membersOfText
  cases Value.ofText text with
  | error e => simp
  | ok v => cases v <;> simp [Value.isScalar]

theorem decode_ne_invalidJson (f : Format α) (members : List (String × Value))
    (fault : TextFault) : decode f members ≠ .error (.invalidJson fault) := by
  unfold decode
  cases f.ofValue (.object members) <;> simp

/-- A reader of members never finds fault with the text, so it is enough to know what it accepts. -/
theorem decides_of_accepted {read : List (String × Value) → Except DocumentError α}
    {Spelled : α → Prop}
    (silent : ∀ members fault, read members ≠ .error (.invalidJson fault))
    (accepted : ∀ a, (membersOfText text >>= read) = .ok a ↔ Spelled a) :
    Decides (membersOfText text >>= read) text Spelled := by
  have invalidJson : (∃ fault, (membersOfText text >>= read) = .error (.invalidJson fault)) ↔
      HoldsNoContainer text := by
    rw [← membersOfText_invalidJson_iff]
    refine exists_congr fun fault => ?_
    rw [bind_eq_error_iff, or_iff_left]
    rintro ⟨members, -, found⟩
    exact silent members fault found
  refine ⟨accepted, invalidJson, ?_⟩
  rw [← invalidJson, ← exists_congr accepted, Refused]
  cases membersOfText text >>= read with
  | ok a => simp
  | error e => cases e <;> simp

end

/-- A document is asked for its members before they are decoded. -/
theorem Document.decides_ofText (text : String) :
    Decides (Document.ofText text) text (Document.SpelledBy text) := by
  refine decides_of_accepted (fun members fault => ?_) fun d => ?_
  · split
    · simp
    · exact decode_ne_invalidJson Document.format members fault
  · constructor
    · intro accepted
      obtain ⟨members, found, -⟩ := (bind_eq_ok_iff ..).mp accepted
      have read := membersOfText_eq_ok_iff.mp found
      obtain ⟨⟨v, member, spells⟩, security⟩ := (Document.ofText_eq_ok_iff read d).mp accepted
      exact ⟨members, v, read, member, spells, security⟩
    · rintro ⟨members, v, read, member, spells, security⟩
      exact (Document.ofText_eq_ok_iff read d).mpr ⟨⟨v, member, spells⟩, security⟩

theorem Expression.decides_ofText (text : String) :
    Decides (Expression.ofText text) text (Expression.SpelledBy text) := by
  refine decides_of_accepted (decode_ne_invalidJson Expression.format) fun e => ?_
  constructor
  · exact Expression.spells_of_ofText
  · rintro ⟨members, read, spells⟩
    exact (Expression.ofText_eq_ok_iff read e).mpr spells

/-- The readers of formulas and documents accept exactly what the grammar spells, and as what it
spells; a text without a container is invalid JSON, and anything else is an invalid formula. -/
theorem readers_follow_grammar (text : String) :
    Decides (Expression.ofText text) text (Expression.SpelledBy text) ∧
      Decides (Document.ofText text) text (Document.SpelledBy text) :=
  ⟨Expression.decides_ofText text, Document.decides_ofText text⟩

/-- A list spells an operation only inside of a formula. -/
example : Expression.ofText "[\"+\",1,2]" = .error (.invalidDsl .list) := by decide +kernel

end FactFormula
