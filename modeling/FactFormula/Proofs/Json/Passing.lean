import Mathlib.Data.List.DropRight
import FactFormula.Json.Skip
import FactFormula.Proofs.Json.Readings

/-!
Passing over a value that could have been read. It comes to the same place as the reader, because
it checks less, and has fuel for as many containers inside one another as a text can hold.
-/
namespace FactFormula.Json

section Strings

variable {s cs rest : List Char} {t : String}

theorem prepend_eq_ok_iff {c : Char} {outcome : Except Fault (List Char × List Char)} :
    prepend c outcome = .ok (cs, rest) ↔ ∃ ds, outcome = .ok (ds, rest) ∧ cs = c :: ds := by
  cases outcome with
  | error f => simp [prepend]
  | ok p =>
    obtain ⟨ds, u⟩ := p
    simp only [prepend, Except.ok.injEq, Prod.mk.injEq]
    constructor
    · rintro ⟨rfl, rfl⟩
      exact ⟨ds, ⟨rfl, rfl⟩, rfl⟩
    · rintro ⟨_, ⟨rfl, rfl⟩, rfl⟩
      exact ⟨rfl, rfl⟩

theorem skipQuoted_of_readQuoted (h : readQuoted s = .ok (cs, rest)) : skipQuoted s = .ok rest := by
  -- Besides the closing quote only the four ways to spell a character do not end in a fault.
  fun_induction readQuoted s generalizing cs
  case case2 tail =>
    cases h
    rfl
  case case6 u unit _ _ a b c d tail w unit' _ ih =>
    obtain ⟨ds, h, -⟩ := prepend_eq_ok_iff.mp h
    simp [skipQuoted, unit, unit', ih h]
  case case13 unit _ _ ih =>
    obtain ⟨ds, h, -⟩ := prepend_eq_ok_iff.mp h
    simp [skipQuoted, unit, ih h]
  case case16 long short c spelled ih =>
    obtain ⟨ds, h, -⟩ := prepend_eq_ok_iff.mp h
    rw [skipQuoted, if_pos (by simp [spelled]), ih h]
    · exact long
    · exact short
  case case19 quote long short alone escape plain ih =>
    obtain ⟨ds, h, -⟩ := prepend_eq_ok_iff.mp h
    rw [skipQuoted, if_neg plain, ih h]
    · exact quote
    · exact long
    · exact short
    · exact alone
    · exact escape
  all_goals cases h

theorem skipQuoted_of_readText (h : readText s = .ok (t, rest)) : skipQuoted s = .ok rest := by
  obtain ⟨⟨cs, u⟩, read, h⟩ := (bind_eq_ok_iff ..).mp h
  cases h
  exact skipQuoted_of_readQuoted read

end Strings

section Numbers

variable {m : Significand} {n : Number} {negative : Bool} {s rest : List Char}

theorem Significand.exponentPart_rest (h : m.exponentPart s = .ok (n, rest)) :
    skipExponent s = .ok rest := by
  obtain ⟨below, c, u, sign, digit, -, rfl⟩ := exponentPart_eq_ok_iff.mp h
  have digits : afterDigits (c :: u) = afterDigits u := by simp [afterDigits, digit]
  simp only [skipExponent, sign, if_pos digit, digits]

theorem Significand.tail_rest (h : m.tail s = .ok (n, rest)) : skipExponentPart s = .ok rest := by
  cases s with
  | nil =>
    rw [← (finish_eq_ok_iff.mp h).2]
    rfl
  | cons c s =>
    simp only [tail, skipExponentPart] at h ⊢
    split_ifs at h ⊢ with mark
    · exact exponentPart_rest h
    · rw [(finish_eq_ok_iff.mp h).2]

theorem Significand.fractionPart_rest (h : m.fractionPart s = .ok (n, rest)) :
    skipFraction ('.' :: s) = .ok rest := by
  simp only [fractionPart, skipFraction] at h ⊢
  split_ifs at h ⊢ with none
  exact tail_rest h

theorem magnitude_rest (h : magnitude negative s = .ok (n, rest)) :
    skipFraction (afterDigits s) = .ok rest := by
  by_cases point : (afterDigits s).head? = some '.'
  · obtain ⟨u, hu⟩ := List.head?_eq_some_iff.mp point
    rw [magnitude_of_point negative hu] at h
    exact hu ▸ Significand.fractionPart_rest h
  · have noFraction : skipFraction (afterDigits s) = skipExponentPart (afterDigits s) := by
      unfold skipFraction
      split
      · rename_i heq
        simp [heq] at point
      · rfl
    rw [magnitude_of_no_point negative point] at h
    rw [noFraction]
    split_ifs at h with all
    · cases h
      cases ha : afterDigits s with
      | nil => rfl
      | cons c u =>
        have mark : isExponentMark c = false := by
          simp only [isWhole, ha, List.head?_cons, Option.all_some, Bool.and_eq_true,
            Bool.not_eq_true'] at all
          exact all.2
        simp [skipExponentPart, mark]
    · exact Significand.tail_rest h

theorem unsignedNumber_rest (h : unsignedNumber negative s = .ok (n, rest)) :
    skipUnsigned s = .ok rest := by
  cases s with
  | nil => cases h
  | cons c s =>
    obtain ⟨digit, zero, h⟩ := unsignedNumber_cons_eq_ok_iff.mp h
    have digits : afterDigits (c :: s) = afterDigits s := by simp [afterDigits, digit]
    have passed := digits ▸ magnitude_rest h
    unfold skipUnsigned
    split
    · rename_i heq
      cases heq
    · rename_i d u heq
      cases heq
      have other : d.isDigit = false := zero rfl d (by simp)
      rw [if_neg (by simp [other])]
      simpa [afterDigits, other] using passed
    · rename_i heq
      cases heq
      rw [if_pos digit, passed]

theorem skipNumber_of_readNumber (h : readNumber s = .ok (n, rest)) : skipNumber s = .ok rest := by
  revert h
  fun_cases readNumber s with
  | case1 s => exact unsignedNumber_rest
  | case2 s plain =>
    intro h
    rw [skipNumber]
    · exact unsignedNumber_rest h
    · exact plain

end Numbers

theorem skipScalar_of_scalarRead {s rest : List Char} {v : Value} (h : ScalarRead s v rest) :
    skipScalar s = .ok rest := by
  cases h with
  | null name | yes name | no name => exact name
  | string text => exact skipQuoted_of_readText text
  | @number c s rest n begins numeral =>
    have differs {d : Char} := ne_of_sign_or_digit begins (d := d)
    rw [← skipNumber_of_readNumber numeral]
    unfold skipScalar
    split
    · rename_i heq
      exact absurd (List.cons.inj heq).1 (differs (by decide) rfl)
    · rename_i heq
      exact absurd (List.cons.inj heq).1 (differs (by decide) rfl)
    · rename_i heq
      exact absurd (List.cons.inj heq).1 (differs (by decide) rfl)
    · rename_i heq
      exact absurd (List.cons.inj heq).1 (differs (by decide) rfl)
    · rename_i heq
      cases heq
      rw [if_pos begins]
    · rename_i heq
      cases heq

section Lengths

variable {s t rest : List Char}

theorem skipBlank_length_le (s : List Char) : (skipBlank s).length ≤ s.length :=
  List.length_dropWhile_le ..

theorem afterDigits_length_le (s : List Char) : (afterDigits s).length ≤ s.length :=
  List.length_dropWhile_le ..

theorem readName_length_le {name : List Char} (h : readName name s = .ok rest) :
    rest.length ≤ s.length := by
  fun_induction readName name s
  case case1 =>
    cases h
    exact le_rfl
  case case3 ih => exact (ih h).trans (Nat.le_succ _)
  all_goals cases h

theorem skipQuoted_length_le (h : skipQuoted s = .ok rest) : rest.length ≤ s.length := by
  fun_induction skipQuoted s
  case case2 =>
    cases h
    exact Nat.le_succ _
  case case3 ih | case7 ih | case10 ih =>
    have := ih h
    simp only [List.length_cons]
    omega
  all_goals cases h

theorem exponentSign_length_le (s : List Char) : (exponentSign s).2.length ≤ s.length := by
  unfold exponentSign
  split
  · exact Nat.le_succ _
  · exact Nat.le_succ _
  · exact le_rfl

theorem skipExponent_length_le (h : skipExponent s = .ok rest) : rest.length ≤ s.length := by
  have signed := exponentSign_length_le s
  unfold skipExponent at h
  simp only at h
  split at h
  · cases h
  · rename_i c u same
    split at h
    · cases h
      have digits := afterDigits_length_le u
      rw [same, List.length_cons] at signed
      omega
    · cases h

theorem skipExponentPart_length_le (h : skipExponentPart s = .ok rest) :
    rest.length ≤ s.length := by
  unfold skipExponentPart at h
  split at h
  · cases h
    exact le_rfl
  · split at h
    · exact (skipExponent_length_le h).trans (Nat.le_succ _)
    · cases h
      exact le_rfl

theorem skipFraction_length_le (h : skipFraction s = .ok rest) : rest.length ≤ s.length := by
  unfold skipFraction at h
  split at h
  · rename_i u
    split at h
    · cases h
    · have digits := afterDigits_length_le u
      have exponent := skipExponentPart_length_le h
      rw [List.length_cons]
      omega
  · exact skipExponentPart_length_le h

theorem skipUnsigned_length_le (h : skipUnsigned s = .ok rest) : rest.length ≤ s.length := by
  unfold skipUnsigned at h
  split at h
  · cases h
  · split at h
    · cases h
    · exact (skipFraction_length_le h).trans (Nat.le_succ _)
  · rename_i c u _
    split at h
    · have digits := afterDigits_length_le u
      have fraction := skipFraction_length_le h
      rw [List.length_cons]
      omega
    · cases h

theorem skipNumber_length_le (h : skipNumber s = .ok rest) : rest.length ≤ s.length := by
  unfold skipNumber at h
  split at h
  · exact (skipUnsigned_length_le h).trans (Nat.le_succ _)
  · exact skipUnsigned_length_le h

theorem skipScalar_length_le (h : skipScalar s = .ok rest) : rest.length ≤ s.length := by
  unfold skipScalar at h
  split at h
  · exact (readName_length_le h).trans (Nat.le_succ _)
  · exact (readName_length_le h).trans (Nat.le_succ _)
  · exact (readName_length_le h).trans (Nat.le_succ _)
  · exact (skipQuoted_length_le h).trans (Nat.le_succ _)
  · split at h
    · exact skipNumber_length_le h
    · cases h
  · cases h

end Lengths

/-- Where the next item of a list is found. -/
inductive ItemFound : Bool → List Char → Next Unit → Prop where
  | closed {first : Bool} {s rest : List Char} (here : skipBlank s = ']' :: rest) :
      ItemFound first s (.closed rest)
  | first {s t : List Char} {c : Char} (here : skipBlank s = c :: t) (more : c ≠ ']') :
      ItemFound true s (.part () (c :: t))
  | later {s t : List Char} (here : skipBlank s = ',' :: t) :
      ItemFound false s (.part () (skipBlank t))

/-- Where the next member of an object is found. -/
inductive KeyFound : Bool → List Char → Next String → Prop where
  | closed {first : Bool} {s rest : List Char} (here : skipBlank s = '\x7d' :: rest) :
      KeyFound first s (.closed rest)
  | first {s t u : List Char} {key : String} (here : skipBlank s = '"' :: t)
      (text : readText t = .ok (key, u)) : KeyFound true s (.part key u)
  | later {s t u w : List Char} {key : String} (here : skipBlank s = ',' :: t)
      (quote : skipBlank t = '"' :: u) (text : readText u = .ok (key, w)) :
      KeyFound false s (.part key w)

section Containers

variable {first : Bool} {s t u rest : List Char} {key : String}

theorem itemFound_of_nextItem {next : Next Unit} (h : nextItem first s = .ok next) :
    ItemFound first s next := by
  unfold nextItem at h
  split at h
  · cases h
  · cases h
    exact .closed ‹_›
  · rename_i c t more here
    split at h
    · cases h
      subst first
      exact .first here more
    · rename_i notFirst
      rw [Bool.not_eq_true] at notFirst
      subst first
      split at h
      · subst c
        split at h
        · cases h
        · cases h
        · cases h
          exact .later here
      · cases h

theorem keyFound_of_nextKey {next : Next String} (h : nextKey first s = .ok next) :
    KeyFound first s next := by
  unfold nextKey at h
  split at h
  · cases h
  · cases h
    exact .closed ‹_›
  · rename_i c t more here
    split at h
    · subst first
      split at h
      · subst c
        obtain ⟨⟨key, u⟩, text, h⟩ := (bind_eq_ok_iff ..).mp h
        cases h
        exact .first here text
      · cases h
    · rename_i notFirst
      rw [Bool.not_eq_true] at notFirst
      subst first
      split at h
      · subst c
        split at h
        · cases h
        · rename_i u quote
          obtain ⟨⟨key, w⟩, text, h⟩ := (bind_eq_ok_iff ..).mp h
          cases h
          exact .later here quote text
        · cases h
        · cases h
      · cases h

theorem readColon_eq_ok_iff : readColon s = .ok rest ↔ skipBlank s = ':' :: rest := by
  unfold readColon
  split
  · rename_i blank
    simp [blank]
  · rename_i here
    simp [here]
  · rename_i other
    exact iff_of_false nofun (other rest)

/-- Passing over the parts of a container comes to its end if it finds them and passes over each. -/
theorem Parts.skipParts {α κ : Type} {next : Bool → List Char → Except Fault (Next κ)}
    {part : κ → List Char → Except Fault (α × List Char)} {parts : List α}
    {next' : Bool → List Char → Except Fault (Next Unit)}
    {skip : List Char → Except Fault (List Char)} (h : Parts next part first s parts rest)
    (closes : ∀ {first s rest}, next first s = .ok (.closed rest) →
      next' first s = .ok (.closed rest))
    (passes : ∀ a ∈ parts, ∀ {first s key t u}, next first s = .ok (.part key t) →
      part key t = .ok (a, u) → ∃ w, next' first s = .ok (.part () w) ∧ skip w = .ok u)
    {fuel : Nat} (enough : parts.length < fuel) :
    Json.skipParts next' skip fuel first s = .ok rest := by
  induction h generalizing fuel with
  | closed found =>
    obtain ⟨fuel, rfl⟩ := Nat.exists_eq_succ_of_ne_zero (Nat.ne_zero_of_lt enough)
    rw [Json.skipParts, closes found]
    rfl
  | part found head tail ih =>
    obtain ⟨fuel, rfl⟩ := Nat.exists_eq_succ_of_ne_zero (Nat.ne_zero_of_lt enough)
    obtain ⟨w, found', skipped⟩ := passes _ List.mem_cons_self found head
    have later := ih (fun a ha => passes a (List.mem_cons_of_mem _ ha))
      (Nat.lt_of_succ_lt_succ enough)
    rw [Json.skipParts, found', ok_bind]
    simp only [skipped, ok_bind, later]

/-- What takes no text away and what a part takes bound the weights of the parts. -/
theorem Parts.weight_add_length_le {α κ : Type} {next : Bool → List Char → Except Fault (Next κ)}
    {part : κ → List Char → Except Fault (α × List Char)} {parts : List α} (weight : α → Nat)
    (h : Parts next part first s parts rest)
    (closes : ∀ {first s rest}, next first s = .ok (.closed rest) → rest.length ≤ s.length)
    (passes : ∀ {first s key t a u}, next first s = .ok (.part key t) → part key t = .ok (a, u) →
      weight a + u.length ≤ s.length) :
    rest.length ≤ s.length ∧ ∀ a ∈ parts, weight a + rest.length ≤ s.length := by
  induction h with
  | closed found => exact ⟨closes found, nofun⟩
  | part found head tail ih =>
    have here := passes found head
    obtain ⟨shorter, later⟩ := ih
    refine ⟨by omega, List.forall_mem_cons.mpr ⟨by omega, fun a ha => ?_⟩⟩
    have := later a ha
    omega

/-- A scalar does not begin like a container. -/
theorem ScalarRead.opens_nothing {v : Value} (h : ScalarRead s v rest) (t : List Char) :
    s ≠ '[' :: t ∧ s ≠ '\x7b' :: t := by
  cases h with
  | null | yes | no | string => exact ⟨nofun, nofun⟩
  | number begins =>
    have differs {d : Char} := ne_of_sign_or_digit begins (d := d)
    exact ⟨fun same => differs (by decide) rfl (List.cons.inj same).1,
      fun same => differs (by decide) rfl (List.cons.inj same).1⟩

theorem skipNested_of_scalar {v : Value} (scalar : ScalarRead (skipBlank s) v rest) (fuel : Nat) :
    skipNested fuel s = .ok rest := by
  unfold skipNested
  simp only
  split
  · exact absurd ‹_› (scalar.opens_nothing _).1
  · exact absurd ‹_› (scalar.opens_nothing _).2
  · exact skipScalar_of_scalarRead scalar

theorem skipNested_list {fuel : Nat} (here : skipBlank s = '[' :: t) :
    skipNested (fuel + 1) s = skipParts skipToItem (skipNested fuel) (t.length + 1) true t := by
  simp [skipNested, here]

theorem skipNested_object {fuel : Nat} (here : skipBlank s = '\x7b' :: t) :
    skipNested (fuel + 1) s = skipParts skipToMember (skipNested fuel) (t.length + 1) true t := by
  simp [skipNested, here]

/-- Blanks in front do not matter. -/
theorem skipNested_congr (same : skipBlank s = skipBlank t) (fuel : Nat) :
    skipNested fuel s = skipNested fuel t := by
  unfold skipNested
  rw [same]

theorem skipToItem_of_nextItem_closed (h : nextItem first s = .ok (.closed rest)) :
    skipToItem first s = .ok (.closed rest) := by
  cases itemFound_of_nextItem h with
  | closed here => simp [skipToItem, here]

theorem skipToItem_of_nextItem (h : nextItem first s = .ok (.part () t)) :
    ∃ u, skipToItem first s = .ok (.part () u) ∧ skipBlank u = skipBlank t := by
  cases itemFound_of_nextItem h with
  | first here more => exact ⟨_, by simp [skipToItem, here], rfl⟩
  | @later _ t here =>
    exact ⟨t, by simp [skipToItem, here], (List.dropWhile_idempotent isBlank t).symm⟩

theorem skipToMember_of_nextKey_closed (h : nextKey first s = .ok (.closed rest)) :
    skipToMember first s = .ok (.closed rest) := by
  cases keyFound_of_nextKey h with
  | closed here => simp [skipToMember, here]

theorem skipKey_of_readText (here : skipBlank s = '"' :: t) (text : readText t = .ok (key, u))
    (colon : readColon u = .ok rest) : skipKey s = .ok rest := by
  simp [skipKey, here, skipQuoted_of_readText text, colon]

theorem skipToMember_of_nextKey (h : nextKey first s = .ok (.part key t))
    (colon : readColon t = .ok u) : skipToMember first s = .ok (.part () u) := by
  cases keyFound_of_nextKey h with
  | @first _ t _ _ here text =>
    have quote : skipBlank ('"' :: t) = '"' :: t := rfl
    simp [skipToMember, here, skipKey_of_readText quote text colon]
  | later here quote text =>
    simp [skipToMember, here, skipKey_of_readText quote text colon]

/-- A value that can be read is passed over by a skipper that may enter as many containers. -/
theorem skipNested_of_readValue {room : Nat} {v : Value} (h : readValue room s = .ok (v, rest))
    {fuel : Nat} (enough : v.nesting ≤ fuel) : skipNested fuel s = .ok rest := by
  revert fuel
  refine readValue_induction
    (motive := fun _ s v rest => ∀ {fuel}, v.nesting ≤ fuel → skipNested fuel s = .ok rest)
    ?_ ?_ ?_ h
  · intro _ s v rest scalar fuel _
    exact skipNested_of_scalar (scalarRead scalar) fuel
  · intro _ s t items rest here parts fewer ih fuel enough
    obtain ⟨fuel, rfl⟩ := Nat.exists_eq_succ_of_ne_zero (Nat.ne_zero_of_lt enough)
    have inside := itemsNesting_le_iff.mp (Nat.le_of_succ_le_succ enough)
    rw [skipNested_list here]
    refine parts.skipParts skipToItem_of_nextItem_closed ?_ (Nat.lt_succ_of_le fewer)
    intro a ha first s key t u found head
    obtain ⟨w, found', same⟩ := skipToItem_of_nextItem found
    exact ⟨w, found', skipNested_congr same fuel ▸ ih head (inside a ha)⟩
  · intro _ s t members rest here parts fewer ih fuel enough
    obtain ⟨fuel, rfl⟩ := Nat.exists_eq_succ_of_ne_zero (Nat.ne_zero_of_lt enough)
    have inside := membersNesting_le_iff.mp (Nat.le_of_succ_le_succ enough)
    rw [skipNested_object here]
    refine parts.skipParts skipToMember_of_nextKey_closed ?_ (Nat.lt_succ_of_le fewer)
    intro m hm first s key t u found head
    obtain ⟨-, w, colon, value⟩ := readMember_eq_ok_iff.mp head
    exact ⟨w, skipToMember_of_nextKey found colon, ih value (inside m hm)⟩

theorem nextItem_closed_length_le (h : nextItem first s = .ok (.closed rest)) :
    rest.length ≤ s.length := by
  have blank := skipBlank_length_le s
  cases itemFound_of_nextItem h with
  | closed here =>
    rw [here, List.length_cons] at blank
    omega

theorem nextItem_length_le (h : nextItem first s = .ok (.part () t)) : t.length ≤ s.length := by
  have blank := skipBlank_length_le s
  cases itemFound_of_nextItem h with
  | first here => exact here ▸ blank
  | @later _ t here =>
    have later := skipBlank_length_le t
    rw [here, List.length_cons] at blank
    omega

theorem nextKey_closed_length_le (h : nextKey first s = .ok (.closed rest)) :
    rest.length ≤ s.length := by
  have blank := skipBlank_length_le s
  cases keyFound_of_nextKey h with
  | closed here =>
    rw [here, List.length_cons] at blank
    omega

theorem nextKey_length_le (h : nextKey first s = .ok (.part key t)) : t.length ≤ s.length := by
  have blank := skipBlank_length_le s
  cases keyFound_of_nextKey h with
  | first here text =>
    have inside := skipQuoted_length_le (skipQuoted_of_readText text)
    rw [here, List.length_cons] at blank
    omega
  | @later _ t _ _ _ here quote text =>
    have later := skipBlank_length_le t
    have inside := skipQuoted_length_le (skipQuoted_of_readText text)
    rw [here, List.length_cons] at blank
    rw [quote, List.length_cons] at later
    omega

theorem readColon_length_le (h : readColon s = .ok rest) : rest.length ≤ s.length := by
  have blank := skipBlank_length_le s
  rw [readColon_eq_ok_iff.mp h, List.length_cons] at blank
  omega

/-- A container takes a character of its own. -/
theorem nesting_add_length_le {room : Nat} {v : Value} (h : readValue room s = .ok (v, rest)) :
    v.nesting + rest.length ≤ s.length := by
  refine readValue_induction
    (motive := fun _ s v rest => v.nesting + rest.length ≤ s.length) ?_ ?_ ?_ h
  · intro _ s v rest scalar
    have shorter := skipScalar_length_le (skipScalar_of_scalarRead (scalarRead scalar))
    have blank := skipBlank_length_le s
    rw [(scalarRead scalar).nesting_eq_zero]
    omega
  · intro _ s t items rest here parts _ ih
    obtain ⟨shorter, weights⟩ := parts.weight_add_length_le Value.nesting nextItem_closed_length_le
      fun found head => (ih head).trans (nextItem_length_le found)
    have inside : itemsNesting items ≤ t.length - rest.length :=
      itemsNesting_le_iff.mpr fun v hv => Nat.le_sub_of_add_le (weights v hv)
    have blank := skipBlank_length_le s
    rw [here, List.length_cons] at blank
    rw [Value.nesting]
    omega
  · intro _ s t members rest here parts _ ih
    obtain ⟨shorter, weights⟩ := parts.weight_add_length_le (fun m => m.2.nesting)
      nextKey_closed_length_le fun {_ s key t m u} found head => by
        obtain ⟨-, w, colon, value⟩ := readMember_eq_ok_iff.mp head
        exact ((ih value).trans (readColon_length_le colon)).trans (nextKey_length_le found)
    have inside : membersNesting members ≤ t.length - rest.length :=
      membersNesting_le_iff.mpr fun m hm => Nat.le_sub_of_add_le (weights m hm)
    have blank := skipBlank_length_le s
    rw [here, List.length_cons] at blank
    rw [Value.nesting]
    omega

/-- A value that can be read is passed over. -/
theorem skipValue_of_readValue {room : Nat} {v : Value} (h : readValue room s = .ok (v, rest)) :
    skipValue s = .ok rest :=
  skipNested_of_readValue h ((Nat.le_add_right ..).trans (nesting_add_length_le h))

end Containers

end FactFormula.Json
