import FactFormula.Proofs.Json.NumberText

/-!
Reading what was printed. A printed value is read as itself if there is room for its nesting, and
is refused if there is not. Of its numbers nothing is asked but that each is read back alone.
-/
namespace FactFormula.Json

variable {α β : Type}

/-- A reader has given the outcome and left `rest`, or has failed where there is no outcome. -/
def Gives (result : Except Fault (α × List Char)) (rest : List Char) : Option α → Prop
  | some a => result = .ok (a, rest)
  | none => ∃ fault, result = .error fault

/-- The reader takes `s` away from in front of anything that ends a number. -/
def Yields (read : List Char → Except Fault (α × List Char)) (s : List Char) (outcome : Option α) :
    Prop :=
  ∀ rest, EndsNumber rest → Gives (read (s ++ rest)) rest outcome

theorem Gives.bind {result : Except Fault (α × List Char)} {mid rest : List Char}
    {outcome : Option α} (head : Gives result mid outcome)
    {next : α × List Char → Except Fault (β × List Char)} {meaning : α → Option β}
    (tail : ∀ a, Gives (next (a, mid)) rest (meaning a)) :
    Gives (result >>= next) rest (outcome >>= meaning) := by
  cases outcome with
  | none =>
    obtain ⟨fault, rfl⟩ := head
    exact ⟨fault, rfl⟩
  | some a =>
    cases head
    exact tail a

/-- The text begins with neither a blank nor the end of a list. -/
def BeginsItem : List Char → Prop
  | [] => False
  | c :: _ => isBlank c = false ∧ c ≠ ']'

namespace BeginsItem

variable {s : List Char}

theorem append (h : BeginsItem s) (rest : List Char) : BeginsItem (s ++ rest) := by
  cases s with
  | nil => cases h
  | cons c s => exact h

theorem length_pos (h : BeginsItem s) : 0 < s.length := by
  cases s with
  | nil => cases h
  | cons c s => exact Nat.succ_pos _

theorem skipBlank_eq (h : BeginsItem s) : skipBlank s = s := by
  cases s with
  | nil => cases h
  | cons c s => simp [skipBlank, h.1]

theorem nextItem_first (h : BeginsItem s) : nextItem true s = .ok (.part () s) := by
  unfold nextItem
  rw [h.skipBlank_eq]
  cases s with
  | nil => cases h
  | cons c s =>
    have hc : c ≠ ']' := h.2
    simp

theorem nextItem_later (h : BeginsItem s) : nextItem false (',' :: s) = .ok (.part () s) := by
  have comma : skipBlank (',' :: s) = ',' :: s := rfl
  unfold nextItem
  rw [comma]
  split
  · rename_i heq
    cases heq
  · rename_i heq
    cases heq
  · rename_i heq
    cases heq
    rw [if_neg Bool.false_ne_true, if_pos rfl, h.skipBlank_eq]
    split
    · cases h
    · exact absurd rfl h.2
    · rfl

end BeginsItem

/-- What follows an item: a comma and the other items, or the closing bracket. -/
def itemTail : List Value → List Char
  | [] => [']']
  | items => ',' :: itemChars items

theorem itemTail_cons (v : Value) (items : List Value) :
    itemTail (v :: items) = ',' :: itemChars (v :: items) := rfl

theorem itemChars_cons (v : Value) (items : List Value) :
    itemChars (v :: items) = v.chars ++ itemTail items := by
  cases items <;> rfl

theorem endsNumber_itemTail (items : List Value) (rest : List Char) :
    EndsNumber (itemTail items ++ rest) := by
  cases items <;> exact ⟨rfl, by decide, rfl⟩

theorem length_le_itemTail (items : List Value) : items.length ≤ (itemTail items).length := by
  induction items with
  | nil => simp
  | cons v items ih =>
    rw [itemTail_cons, itemChars_cons, List.length_cons, List.length_cons, List.length_append]
    omega

section Items

variable {item : List Char → Except Fault (α × List Char)} {meaning : Value → Option α}

/-- Where an item stands next, reading goes on with it and then with what follows it. -/
theorem gives_items {v : Value} {items : List Value} {fuel : Nat} {first : Bool}
    {s rest : List Char}
    (next : nextItem first s = .ok (.part () (v.chars ++ (itemTail items ++ rest))))
    (head : Yields item v.chars (meaning v))
    (tail : Gives (readItems item fuel false (itemTail items ++ rest)) rest (items.mapM meaning)) :
    Gives (readItems item (fuel + 1) first s) rest ((v :: items).mapM meaning) := by
  rw [List.mapM_cons, readItems, next]
  refine (head _ (endsNumber_itemTail items rest)).bind fun a => ?_
  exact tail.bind fun as => rfl

theorem gives_itemTail {items : List Value}
    (reads : ∀ v ∈ items, BeginsItem v.chars ∧ Yields item v.chars (meaning v)) {fuel : Nat}
    (enough : items.length < fuel) (rest : List Char) :
    Gives (readItems item fuel false (itemTail items ++ rest)) rest (items.mapM meaning) := by
  induction items generalizing fuel with
  | nil =>
    obtain ⟨fuel, rfl⟩ := Nat.exists_eq_succ_of_ne_zero (Nat.ne_zero_of_lt enough)
    rfl
  | cons v items ih =>
    obtain ⟨fuel, rfl⟩ := Nat.exists_eq_succ_of_ne_zero (Nat.ne_zero_of_lt enough)
    obtain ⟨begins, head⟩ := reads v List.mem_cons_self
    have tail := ih (fun w hw => reads w (List.mem_cons_of_mem _ hw))
      (Nat.lt_of_succ_lt_succ enough)
    refine gives_items ?_ head tail
    rw [itemTail_cons, itemChars_cons, List.cons_append, List.append_assoc]
    exact (begins.append _).nextItem_later

/-- A reader of items reads a printed list item by item. -/
theorem gives_itemChars {items : List Value}
    (reads : ∀ v ∈ items, BeginsItem v.chars ∧ Yields item v.chars (meaning v))
    (rest : List Char) :
    Gives (readItems item ((itemChars items ++ rest).length + 1) true (itemChars items ++ rest))
      rest (items.mapM meaning) := by
  cases items with
  | nil => rfl
  | cons v items =>
    obtain ⟨begins, head⟩ := reads v List.mem_cons_self
    have enough : items.length < (itemChars (v :: items) ++ rest).length := by
      have := length_le_itemTail items
      have := begins.length_pos
      rw [itemChars_cons, List.length_append, List.length_append]
      omega
    have tail := gives_itemTail (fun w hw => reads w (List.mem_cons_of_mem _ hw)) enough rest
    refine gives_items ?_ head tail
    rw [itemChars_cons, List.append_assoc]
    exact (begins.append _).nextItem_first

end Items

/-- What follows a member. -/
def memberTail : List (String × Value) → List Char
  | [] => ['\x7d']
  | members => ',' :: memberChars members

theorem memberTail_cons (m : String × Value) (members : List (String × Value)) :
    memberTail (m :: members) = ',' :: memberChars (m :: members) := rfl

theorem memberChars_cons (m : String × Value) (members : List (String × Value)) :
    memberChars (m :: members) =
      quote m.1.toList ++ ':' :: (m.2.chars ++ memberTail members) := by
  cases members <;> simp [memberChars, memberTail]

theorem endsNumber_memberTail (members : List (String × Value)) (rest : List Char) :
    EndsNumber (memberTail members ++ rest) := by
  cases members <;> exact ⟨rfl, by decide, rfl⟩

theorem length_le_memberTail (members : List (String × Value)) :
    members.length ≤ (memberTail members).length := by
  induction members with
  | nil => simp
  | cons m members ih =>
    rw [memberTail_cons, memberChars_cons, List.length_cons, List.length_cons, List.length_append,
      List.length_cons, List.length_append]
    omega

theorem readKey_quote (key : String) (rest : List Char) :
    readKey (escape key.toList ++ '"' :: rest) = .ok (.part key rest) := by
  simp [readKey, readText, readQuoted_escape]

theorem nextKey_first (key : String) (rest : List Char) :
    nextKey true (quote key.toList ++ rest) = .ok (.part key rest) := by
  rw [← readKey_quote, quote, List.append_assoc]
  rfl

theorem nextKey_later (key : String) (rest : List Char) :
    nextKey false (',' :: (quote key.toList ++ rest)) = .ok (.part key rest) := by
  rw [← readKey_quote, quote, List.append_assoc]
  rfl

section Members

variable {value : List Char → Except Fault (α × List Char)} {meaning : Value → Option α}

/-- A member means its key and what its value means. -/
def memberMeaning (meaning : Value → Option α) (m : String × Value) : Option (String × α) := do
  return (m.1, ← meaning m.2)

/-- Where a member stands next, reading goes on with it and then with what follows it. -/
theorem gives_members {m : String × Value} {members : List (String × Value)} {fuel : Nat}
    {first : Bool} {s rest : List Char}
    (next : nextKey first s = .ok (.part m.1 (':' :: (m.2.chars ++ (memberTail members ++ rest)))))
    (head : Yields value m.2.chars (meaning m.2))
    (tail : Gives (readMembers value fuel false (memberTail members ++ rest)) rest
      (members.mapM (memberMeaning meaning))) :
    Gives (readMembers value (fuel + 1) first s) rest
      ((m :: members).mapM (memberMeaning meaning)) := by
  have colon (s : List Char) : readColon (':' :: s) = .ok s := rfl
  rw [List.mapM_cons, readMembers, next, memberMeaning, bind_assoc]
  simp only [ok_bind, colon]
  refine (head _ (endsNumber_memberTail members rest)).bind fun a => ?_
  exact tail.bind fun as => rfl

theorem gives_memberTail {members : List (String × Value)}
    (reads : ∀ m ∈ members, Yields value m.2.chars (meaning m.2)) {fuel : Nat}
    (enough : members.length < fuel) (rest : List Char) :
    Gives (readMembers value fuel false (memberTail members ++ rest)) rest
      (members.mapM (memberMeaning meaning)) := by
  induction members generalizing fuel with
  | nil =>
    obtain ⟨fuel, rfl⟩ := Nat.exists_eq_succ_of_ne_zero (Nat.ne_zero_of_lt enough)
    rfl
  | cons m members ih =>
    obtain ⟨fuel, rfl⟩ := Nat.exists_eq_succ_of_ne_zero (Nat.ne_zero_of_lt enough)
    have tail := ih (fun n hn => reads n (List.mem_cons_of_mem _ hn))
      (Nat.lt_of_succ_lt_succ enough)
    refine gives_members ?_ (reads m List.mem_cons_self) tail
    rw [memberTail_cons, memberChars_cons, List.cons_append, List.append_assoc, nextKey_later,
      List.cons_append, List.append_assoc]

/-- A reader of values reads a printed object member by member. -/
theorem gives_memberChars {members : List (String × Value)}
    (reads : ∀ m ∈ members, Yields value m.2.chars (meaning m.2)) (rest : List Char) :
    Gives (readMembers value ((memberChars members ++ rest).length + 1) true
      (memberChars members ++ rest)) rest (members.mapM (memberMeaning meaning)) := by
  cases members with
  | nil => rfl
  | cons m members =>
    have enough : members.length < (memberChars (m :: members) ++ rest).length := by
      have := length_le_memberTail members
      rw [memberChars_cons, List.length_append, List.length_append, List.length_cons,
        List.length_append]
      omega
    have tail := gives_memberTail (fun n hn => reads n (List.mem_cons_of_mem _ hn)) enough rest
    refine gives_members ?_ (reads m List.mem_cons_self) tail
    rw [memberChars_cons, List.append_assoc, nextKey_first, List.cons_append, List.append_assoc]

end Members

end FactFormula.Json
