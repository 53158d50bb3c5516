import FactFormula.Proofs.Json.ScalarText

/-!
Texts and their tokens. Whatever blanks stand between the tokens of a value, the reader comes to
the same value and to the same place; and every text it reads is made of tokens and blanks.
-/
namespace FactFormula.Json

/-- A text that is a value and no container, in one of its spellings. -/
structure ScalarToken where
  chars : List Char
  value : Value
  reads : readScalar chars = .ok (value, [])

/-- A text that is a string, as it stands for a key. -/
structure KeyToken where
  chars : List Char
  key : String
  reads : readScalar chars = .ok (.string key, [])

/-- A value as it is written, blanks apart. -/
inductive TokenTree where
  | scalar (token : ScalarToken)
  | array (items : List TokenTree)
  | object (members : List (KeyToken × TokenTree))

/-- Induction over the items and members of a tree. -/
@[induction_eliminator]
theorem TokenTree.induction {motive : TokenTree → Prop} (scalar : ∀ token, motive (.scalar token))
    (array : ∀ items, (∀ σ ∈ items, motive σ) → motive (.array items))
    (object : ∀ members, (∀ m ∈ members, motive m.2) → motive (.object members)) :
    ∀ σ, motive σ
  | .scalar token => scalar token
  | .array items => array items fun σ _ => TokenTree.induction scalar array object σ
  | .object members => object members fun m _ => TokenTree.induction scalar array object m.2
decreasing_by
  · have := List.sizeOf_lt_of_mem ‹σ ∈ items›
    simp only [TokenTree.array.sizeOf_spec]
    omega
  · have := List.sizeOf_lt_of_mem ‹m ∈ members›
    have : sizeOf m.2 < sizeOf m := by cases m; simp
    simp only [TokenTree.object.sizeOf_spec]
    omega

/-- A comma stands in front of every part but the first. -/
def comma (first : Bool) : List (List Char) := if first then [] else [[',']]

mutual

/-- The value that is written, with its members in the order of the text. -/
def TokenTree.value : TokenTree → Value
  | .scalar token => token.value
  | .array items => .array (itemValues items)
  | .object members => .object (memberValues members)

def itemValues : List TokenTree → List Value
  | [] => []
  | σ :: later => σ.value :: itemValues later

def memberValues : List (KeyToken × TokenTree) → List (String × Value)
  | [] => []
  | (token, σ) :: later => (token.key, σ.value) :: memberValues later

end

mutual

/-- The tokens in the order of the text. -/
def TokenTree.tokens : TokenTree → List (List Char)
  | .scalar token => [token.chars]
  | .array items => ['['] :: itemTokens true items
  | .object members => ['\x7b'] :: memberTokens true members

/-- The tokens of a list behind its bracket, or behind one of its items. -/
def itemTokens (first : Bool) : List TokenTree → List (List Char)
  | [] => [[']']]
  | σ :: later => comma first ++ (σ.tokens ++ itemTokens false later)

/-- The tokens of an object behind its brace, or behind one of its members. -/
def memberTokens (first : Bool) : List (KeyToken × TokenTree) → List (List Char)
  | [] => [['\x7d']]
  | (token, σ) :: later =>
    comma first ++ (token.chars :: [':'] :: (σ.tokens ++ memberTokens false later))

end

/-- The text is made of the tokens, with any blanks before, between and behind them. -/
inductive Spaced : List (List Char) → List Char → Prop where
  | done {blanks : List Char} (blank : ∀ c ∈ blanks, isBlank c) : Spaced [] blanks
  | token {blanks token rest : List Char} {later : List (List Char)}
      (blank : ∀ c ∈ blanks, isBlank c) (behind : Spaced later rest) :
      Spaced (token :: later) (blanks ++ (token ++ rest))

theorem itemValues_eq_map (items : List TokenTree) : itemValues items = items.map (·.value) := by
  induction items with
  | nil => rfl
  | cons σ later ih => rw [itemValues, ih, List.map_cons]

theorem memberValues_eq_map (members : List (KeyToken × TokenTree)) :
    memberValues members = members.map fun m => (m.1.key, m.2.value) := by
  induction members with
  | nil => rfl
  | cons m later ih => rw [memberValues, ih, List.map_cons]

section Blanks

variable {blanks s t token rest : List Char} {tokens later : List (List Char)} {c : Char}

theorem skipBlank_append (blank : ∀ c ∈ blanks, isBlank c) (s : List Char) :
    skipBlank (blanks ++ s) = skipBlank s :=
  List.dropWhile_append_of_pos blank

theorem exists_blanks (s : List Char) :
    ∃ blanks, (∀ c ∈ blanks, isBlank c) ∧ s = blanks ++ skipBlank s :=
  ⟨s.takeWhile isBlank, fun _ hc => List.mem_takeWhile_imp hc,
    List.takeWhile_append_dropWhile.symm⟩

theorem readValue_skipBlank (room : Nat) (s : List Char) :
    readValue room (skipBlank s) = readValue room s := by
  have same : skipBlank (skipBlank s) = skipBlank s := List.dropWhile_idempotent isBlank s
  unfold readValue
  simp only [same]

namespace Spaced

/-- A token that does not begin with a blank is come to by skipping blanks. -/
theorem exists_behind (h : Spaced ((c :: token) :: later) s) (solid : isBlank c = false) :
    ∃ rest, skipBlank s = c :: (token ++ rest) ∧ Spaced later rest := by
  cases h with
  | @token blanks _ rest _ blank behind =>
    refine ⟨rest, ?_, behind⟩
    rw [skipBlank_append blank]
    simp [skipBlank, solid]

theorem exists_behind_item (h : Spaced (token :: later) s) (begins : BeginsItem token) :
    ∃ rest, skipBlank s = token ++ rest ∧ Spaced later rest := by
  cases token with
  | nil => cases begins
  | cons c token => exact h.exists_behind begins.1

theorem blanks_append (blank : ∀ c ∈ blanks, isBlank c) (h : Spaced tokens s) :
    Spaced tokens (blanks ++ s) := by
  cases h with
  | done blank' => exact .done (List.forall_mem_append.mpr ⟨blank, blank'⟩)
  | token blank' behind =>
    rw [← List.append_assoc]
    exact .token (List.forall_mem_append.mpr ⟨blank, blank'⟩) behind

theorem of_skipBlank (h : Spaced tokens (skipBlank s)) : Spaced tokens s := by
  obtain ⟨blanks, blank, same⟩ := exists_blanks s
  exact same ▸ h.blanks_append blank

theorem cons (token : List Char) (behind : Spaced later rest) :
    Spaced (token :: later) (token ++ rest) :=
  .token (List.forall_mem_nil _) behind

theorem of_skipBlank_eq (here : skipBlank s = token ++ rest) (behind : Spaced later rest) :
    Spaced (token :: later) s :=
  of_skipBlank (here ▸ cons token behind)

protected theorem skipBlank (h : Spaced (token :: later) s) (begins : BeginsItem token) :
    Spaced (token :: later) (skipBlank s) := by
  obtain ⟨rest, here, behind⟩ := h.exists_behind_item begins
  exact here ▸ cons token behind

end Spaced

/-- What may follow a value: nothing, a comma, or the end of a container. -/
def FollowsValue : List (List Char) → Prop
  | [] => True
  | token :: _ => token = [','] ∨ token = [']'] ∨ token = ['\x7d']

theorem endsNumber_of_isBlank (blank : isBlank c) (s : List Char) : EndsNumber (c :: s) := by
  simp only [isBlank, Bool.or_eq_true, beq_iff_eq] at blank
  rcases blank with ((rfl | rfl) | rfl) | rfl <;> exact ⟨rfl, by decide, rfl⟩

theorem Spaced.endsNumber (h : Spaced tokens s) (follows : FollowsValue tokens) : EndsNumber s := by
  cases h with
  | done blank =>
    cases s with
    | nil => trivial
    | cons c s => exact endsNumber_of_isBlank (blank c List.mem_cons_self) s
  | @token blanks token rest later blank behind =>
    cases blanks with
    | nil => rcases follows with rfl | rfl | rfl <;> exact ⟨rfl, by decide, rfl⟩
    | cons c blanks => exact endsNumber_of_isBlank (blank c List.mem_cons_self) _

end Blanks

/-- Takes the tokens off the text one after the other, and the blanks before and behind them. -/
def isSpaced : List (List Char) → List Char → Bool
  | [], s => (skipBlank s).isEmpty
  | token :: later, s =>
    match token.isPrefixOf? (skipBlank s) with
    | some rest => isSpaced later rest
    | none => false

theorem spaced_of_isSpaced {tokens : List (List Char)} {s : List Char}
    (h : isSpaced tokens s) : Spaced tokens s := by
  fun_induction isSpaced tokens s with
  | case1 s => exact .done (List.dropWhile_eq_nil_iff.mp (List.isEmpty_iff.mp h))
  | case2 s token later rest taken ih =>
    exact .of_skipBlank_eq (List.append_eq_of_isPrefixOf?_eq_some taken).symm (ih h)
  | case3 => cases h

section Parts

variable {s t rest : List Char} {tokens later : List (List Char)} {first : Bool}

theorem ScalarToken.beginsItem (token : ScalarToken) : BeginsItem token.chars :=
  (scalarRead token.reads).beginsItem

theorem KeyToken.exists_text (token : KeyToken) :
    ∃ t, token.chars = '"' :: t ∧ ∀ rest, readText (t ++ rest) = .ok (token.key, rest) := by
  obtain ⟨chars, key, reads⟩ := token
  cases scalarRead reads with
  | string text =>
    obtain ⟨cs, read, same⟩ := readText_eq_ok_iff.mp text
    exact ⟨_, rfl, fun rest => readText_eq_ok_iff.mpr ⟨cs, read.append rest, same⟩⟩

/-- A string written as it is always written. -/
def KeyToken.quoted (key : String) : KeyToken where
  chars := quote key.toList
  key := key
  reads := by
    have text : readText (escape key.toList ++ ['"']) = .ok (key, []) :=
      readText_eq_ok_iff.mpr ⟨_, quotedRead (readQuoted_escape ..), String.ofList_toList⟩
    exact (ScalarRead.string text).eq

def KeyToken.toScalar (token : KeyToken) : ScalarToken :=
  ⟨token.chars, .string token.key, token.reads⟩

theorem followsValue_itemTokens (items : List TokenTree) (later : List (List Char)) :
    FollowsValue (itemTokens false items ++ later) := by
  cases items with
  | nil => exact .inr (.inl rfl)
  | cons σ items => exact .inl rfl

theorem followsValue_memberTokens (members : List (KeyToken × TokenTree))
    (later : List (List Char)) : FollowsValue (memberTokens false members ++ later) := by
  cases members with
  | nil => exact .inr (.inr rfl)
  | cons m members => exact .inl rfl

theorem TokenTree.exists_tokens (σ : TokenTree) :
    ∃ token later, σ.tokens = token :: later ∧ BeginsItem token := by
  cases σ with
  | scalar token => exact ⟨token.chars, [], rfl, token.beginsItem⟩
  | array items => exact ⟨['['], _, rfl, rfl, by decide⟩
  | object members => exact ⟨['\x7b'], _, rfl, rfl, by decide⟩

theorem closed_of_itemFound {next : Next Unit} (found : ItemFound first s next)
    (spaced : Spaced ([']'] :: later) s) : ∃ rest, next = .closed rest ∧ Spaced later rest := by
  obtain ⟨rest, here, behind⟩ := spaced.exists_behind rfl
  cases found with
  | closed here' =>
    cases here.symm.trans here'
    exact ⟨rest, rfl, behind⟩
  | first here' more => exact absurd (List.cons.inj (here'.symm.trans here)).1 more
  | later here' => cases here.symm.trans here'

theorem part_of_itemFound {next : Next Unit} {token : List Char} (found : ItemFound first s next)
    (begins : BeginsItem token) (spaced : Spaced (comma first ++ token :: later) s) :
    ∃ t, next = .part () t ∧ Spaced (token :: later) t := by
  cases found with
  | @closed first _ _ here =>
    cases first with
    | true =>
      obtain ⟨rest, here', -⟩ := spaced.exists_behind_item begins
      have begins := begins.append rest
      rw [here'.symm.trans here] at begins
      exact absurd rfl begins.2
    | false =>
      obtain ⟨rest, here', -⟩ := spaced.exists_behind rfl
      cases here'.symm.trans here
  | first here more => exact ⟨_, rfl, here ▸ spaced.skipBlank begins⟩
  | later here =>
    obtain ⟨rest, here', behind⟩ := spaced.exists_behind rfl
    cases here'.symm.trans here
    exact ⟨_, rfl, behind.skipBlank begins⟩

theorem closed_of_keyFound {next : Next String} (found : KeyFound first s next)
    (spaced : Spaced (['\x7d'] :: later) s) : ∃ rest, next = .closed rest ∧ Spaced later rest := by
  obtain ⟨rest, here, behind⟩ := spaced.exists_behind rfl
  cases found with
  | closed here' =>
    cases here.symm.trans here'
    exact ⟨rest, rfl, behind⟩
  | first here' => cases here.symm.trans here'
  | later here' => cases here.symm.trans here'

theorem part_of_keyFound {next : Next String} {token : KeyToken} (found : KeyFound first s next)
    (spaced : Spaced (comma first ++ token.chars :: later) s) :
    ∃ t, next = .part token.key t ∧ Spaced later t := by
  obtain ⟨text, chars, reads⟩ := token.exists_text
  rw [chars] at spaced
  cases found with
  | @closed first _ _ here =>
    cases first with
    | true =>
      obtain ⟨rest, here', -⟩ := spaced.exists_behind rfl
      cases here'.symm.trans here
    | false =>
      obtain ⟨rest, here', -⟩ := spaced.exists_behind rfl
      cases here'.symm.trans here
  | first here read =>
    obtain ⟨rest, here', behind⟩ := spaced.exists_behind rfl
    cases here'.symm.trans here
    cases (reads rest).symm.trans read
    exact ⟨_, rfl, behind⟩
  | later here quote read =>
    obtain ⟨rest, here', behind⟩ := spaced.exists_behind rfl
    cases here'.symm.trans here
    obtain ⟨rest, quote', behind⟩ := behind.exists_behind rfl
    cases quote'.symm.trans quote
    cases (reads rest).symm.trans read
    exact ⟨_, rfl, behind⟩

end Parts

/-- A text that begins with the tokens of the tree holds its value, and what is left begins with
the tokens that follow. -/
def TokenTree.Fixes (σ : TokenTree) : Prop :=
  ∀ ⦃room : Nat⦄ ⦃s rest : List Char⦄ ⦃v : Value⦄ ⦃later : List (List Char)⦄,
    Spaced (σ.tokens ++ later) s → FollowsValue later → readValue room s = .ok (v, rest) →
      v = σ.value ∧ Spaced later rest

section Values

variable {room : Nat} {first : Bool} {s t rest : List Char} {v : Value}
variable {later : List (List Char)}

theorem ScalarToken.fixes (token : ScalarToken) : (TokenTree.scalar token).Fixes := by
  intro room s rest v later spaced follows read
  obtain ⟨u, here, behind⟩ := Spaced.exists_behind_item spaced token.beginsItem
  have alone := ((scalarRead token.reads).append (behind.endsNumber follows)).readValue_eq room
  rw [← readValue_skipBlank, here, alone] at read
  cases read
  exact ⟨rfl, behind⟩

theorem parts_of_itemTokens {items : List TokenTree} (each : ∀ σ ∈ items, σ.Fixes)
    {vs : List Value} (parts : Parts nextItem (fun _ => readValue room) first s vs rest)
    (spaced : Spaced (itemTokens first items ++ later) s) :
    vs = itemValues items ∧ Spaced later rest := by
  -- By induction on the items of the tree: the tokens leave the reader no choice of its next step.
  induction items generalizing first s vs with
  | nil =>
    cases parts with
    | closed closes =>
      obtain ⟨u, same, behind⟩ := closed_of_itemFound (itemFound_of_nextItem closes) spaced
      cases same
      exact ⟨rfl, behind⟩
    | part found =>
      obtain ⟨u, same, -⟩ := closed_of_itemFound (itemFound_of_nextItem found) spaced
      cases same
  | cons σ items ih =>
    obtain ⟨fixes, each⟩ := List.forall_mem_cons.mp each
    obtain ⟨token, tokens, same, begins⟩ := σ.exists_tokens
    have spaced :
        Spaced (comma first ++ token :: (tokens ++ (itemTokens false items ++ later))) s := by
      simpa [itemTokens, same] using spaced
    cases parts with
    | closed closes =>
      obtain ⟨u, same, -⟩ := part_of_itemFound (itemFound_of_nextItem closes) begins spaced
      cases same
    | part found head tail =>
      obtain ⟨u, same', behind⟩ := part_of_itemFound (itemFound_of_nextItem found) begins spaced
      cases same'
      rw [← List.cons_append, ← same] at behind
      obtain ⟨rfl, behind⟩ := fixes behind (followsValue_itemTokens items later) head
      obtain ⟨rfl, behind⟩ := ih each tail behind
      exact ⟨rfl, behind⟩

theorem parts_of_memberTokens {members : List (KeyToken × TokenTree)}
    (each : ∀ m ∈ members, m.2.Fixes) {ms : List (String × Value)}
    (parts : Parts nextKey (readMember (readValue room)) first s ms rest)
    (spaced : Spaced (memberTokens first members ++ later) s) :
    ms = memberValues members ∧ Spaced later rest := by
  induction members generalizing first s ms with
  | nil =>
    cases parts with
    | closed closes =>
      obtain ⟨u, same, behind⟩ := closed_of_keyFound (keyFound_of_nextKey closes) spaced
      cases same
      exact ⟨rfl, behind⟩
    | part found =>
      obtain ⟨u, same, -⟩ := closed_of_keyFound (keyFound_of_nextKey found) spaced
      cases same
  | cons m members ih =>
    obtain ⟨token, σ⟩ := m
    obtain ⟨fixes, each⟩ := List.forall_mem_cons.mp each
    simp only [memberTokens, List.append_assoc, List.cons_append] at spaced
    cases parts with
    | closed closes =>
      obtain ⟨u, same, -⟩ := part_of_keyFound (keyFound_of_nextKey closes) spaced
      cases same
    | @part _ _ _ _ _ _ member _ found head tail =>
      obtain ⟨u, same, behind⟩ := part_of_keyFound (keyFound_of_nextKey found) spaced
      cases same
      obtain ⟨key, w, colon, read⟩ := readMember_eq_ok_iff.mp head
      obtain ⟨u, colon', behind⟩ := behind.exists_behind rfl
      cases colon'.symm.trans (readColon_eq_ok_iff.mp colon)
      obtain ⟨value, behind⟩ := fixes behind (followsValue_memberTokens members later) read
      obtain ⟨rfl, behind⟩ := ih each tail behind
      have same : member = (token.key, σ.value) := Prod.ext key value
      exact ⟨same ▸ rfl, behind⟩

theorem parts_of_readValue_list (here : skipBlank s = '[' :: t)
    (h : readValue room s = .ok (v, rest)) :
    ∃ room items, v = .array items ∧
      Parts nextItem (fun _ => readValue room) true t items rest := by
  rw [← readValue_skipBlank, here] at h
  cases room with
  | zero =>
    rw [readValue_zero_list] at h
    cases h
  | succ room =>
    rw [readValue_list] at h
    obtain ⟨⟨items, u⟩, read, h⟩ := (bind_eq_ok_iff ..).mp h
    cases h
    exact ⟨room, items, rfl, (parts_of_readItems read).1⟩

theorem parts_of_readValue_object (here : skipBlank s = '\x7b' :: t)
    (h : readValue room s = .ok (v, rest)) :
    ∃ room members, v = .object members ∧
      Parts nextKey (readMember (readValue room)) true t members rest := by
  rw [← readValue_skipBlank, here] at h
  cases room with
  | zero =>
    rw [readValue_zero_object] at h
    cases h
  | succ room =>
    rw [readValue_object] at h
    obtain ⟨⟨members, u⟩, read, h⟩ := (bind_eq_ok_iff ..).mp h
    cases h
    exact ⟨room, members, rfl, (parts_of_readMembers read).1⟩

/-- Whatever blanks stand between the tokens, the reader comes to the same value and place. -/
theorem TokenTree.fixes (σ : TokenTree) : σ.Fixes := by
  induction σ with
  | scalar token => exact token.fixes
  | array items ih =>
    intro room s rest v later spaced follows read
    obtain ⟨t, here, behind⟩ := Spaced.exists_behind spaced rfl
    obtain ⟨room, vs, rfl, parts⟩ := parts_of_readValue_list here read
    obtain ⟨rfl, behind⟩ := parts_of_itemTokens ih parts behind
    exact ⟨rfl, behind⟩
  | object members ih =>
    intro room s rest v later spaced follows read
    obtain ⟨t, here, behind⟩ := Spaced.exists_behind spaced rfl
    obtain ⟨room, ms, rfl, parts⟩ := parts_of_readValue_object here read
    obtain ⟨rfl, behind⟩ := parts_of_memberTokens ih parts behind
    exact ⟨rfl, behind⟩

end Values

/-- The text goes on with the tokens up to the rest. -/
def LaidOut (tokens : List (List Char)) (s rest : List Char) : Prop :=
  ∀ ⦃later : List (List Char)⦄, Spaced later rest → Spaced (tokens ++ later) s

section Texts

variable {room : Nat} {first : Bool} {s rest : List Char} {v : Value}

theorem exists_tree_of_readScalar (h : readScalar (skipBlank s) = .ok (v, rest)) :
    ∃ token : ScalarToken, token.value = v ∧ LaidOut [token.chars] s rest := by
  obtain ⟨t, taken, alone⟩ := (scalarRead h).exists_taken
  exact ⟨⟨t, v, alone.eq⟩, rfl, fun later behind => .of_skipBlank_eq taken behind⟩

theorem exists_items (each : ∀ {s v rest}, readValue room s = .ok (v, rest) →
      ∃ σ : TokenTree, σ.value = v ∧ LaidOut σ.tokens s rest)
    {vs : List Value} (parts : Parts nextItem (fun _ => readValue room) first s vs rest) :
    ∃ items, itemValues items = vs ∧ LaidOut (itemTokens first items) s rest := by
  -- By induction on the steps of the reader, each of which takes the tokens of one item.
  induction parts with
  | closed closes =>
    cases itemFound_of_nextItem closes with
    | closed here => exact ⟨[], rfl, fun later behind => .of_skipBlank_eq here behind⟩
  | part found head tail ih =>
    obtain ⟨σ, rfl, laid⟩ := each head
    obtain ⟨items, rfl, laidLater⟩ := ih
    refine ⟨σ :: items, rfl, fun later behind => ?_⟩
    rw [itemTokens, List.append_assoc, List.append_assoc]
    have behind := laid (laidLater behind)
    cases itemFound_of_nextItem found with
    | first here => exact .of_skipBlank (here ▸ behind)
    | later here => exact .of_skipBlank_eq here behind.of_skipBlank

theorem exists_key {t : List Char} {key : String} (found : KeyFound first s (.part key t)) :
    ∃ token : KeyToken, token.key = key ∧ LaidOut (comma first ++ [token.chars]) s t := by
  cases found with
  | first here text =>
    obtain ⟨u, taken, alone⟩ := (ScalarRead.string text).exists_taken
    exact ⟨⟨u, key, alone.eq⟩, rfl, fun later behind => .of_skipBlank_eq (here.trans taken) behind⟩
  | later here quote text =>
    obtain ⟨u, taken, alone⟩ := (ScalarRead.string text).exists_taken
    exact ⟨⟨u, key, alone.eq⟩, rfl, fun later behind =>
      .of_skipBlank_eq here (.of_skipBlank_eq (quote.trans taken) behind)⟩

theorem exists_members (each : ∀ {s v rest}, readValue room s = .ok (v, rest) →
      ∃ σ : TokenTree, σ.value = v ∧ LaidOut σ.tokens s rest)
    {ms : List (String × Value)}
    (parts : Parts nextKey (readMember (readValue room)) first s ms rest) :
    ∃ members, memberValues members = ms ∧ LaidOut (memberTokens first members) s rest := by
  induction parts with
  | closed closes =>
    cases keyFound_of_nextKey closes with
    | closed here => exact ⟨[], rfl, fun later behind => .of_skipBlank_eq here behind⟩
  | @part first s t u rest key m _ found head tail ih =>
    obtain ⟨token, rfl, laidKey⟩ := exists_key (keyFound_of_nextKey found)
    obtain ⟨same, w, colon, read⟩ := readMember_eq_ok_iff.mp head
    have colon : skipBlank t = [':'] ++ w := readColon_eq_ok_iff.mp colon
    obtain ⟨σ, value, laid⟩ := each read
    obtain ⟨members, rfl, laidLater⟩ := ih
    refine ⟨(token, σ) :: members, ?_, fun later behind => ?_⟩
    · rw [memberValues, value, ← same]
    · have behind := laidKey (.of_skipBlank_eq colon (laid (laidLater behind)))
      simpa [memberTokens] using behind

/-- Every text that is read is made of tokens and blanks. -/
theorem exists_tree_of_readValue (h : readValue room s = .ok (v, rest)) :
    ∃ σ : TokenTree, σ.value = v ∧ LaidOut σ.tokens s rest := by
  refine readValue_induction
    (motive := fun _ s v rest => ∃ σ : TokenTree, σ.value = v ∧ LaidOut σ.tokens s rest) ?_ ?_ ?_ h
  · intro room s v rest scalar
    obtain ⟨token, value, laid⟩ := exists_tree_of_readScalar scalar
    exact ⟨.scalar token, value, laid⟩
  · intro room s t vs rest here parts _ ih
    obtain ⟨items, rfl, laid⟩ := exists_items ih parts
    exact ⟨.array items, rfl, fun later behind => .of_skipBlank_eq here (laid behind)⟩
  · intro room s t ms rest here parts _ ih
    obtain ⟨members, rfl, laid⟩ := exists_members ih parts
    exact ⟨.object members, rfl, fun later behind => .of_skipBlank_eq here (laid behind)⟩

variable {text : String}

theorem exists_tree_of_readWhole (h : readWhole (readValue maxDepth) text = .ok v) :
    ∃ σ : TokenTree, σ.value = v ∧ Spaced σ.tokens text.toList := by
  obtain ⟨rest, read, blank⟩ := readWhole_eq_ok_iff.mp h
  obtain ⟨σ, value, laid⟩ := exists_tree_of_readValue read
  have behind := laid (.done (List.dropWhile_eq_nil_iff.mp blank))
  rw [List.append_nil] at behind
  exact ⟨σ, value, behind⟩

theorem TokenTree.value_eq_of_readWhole {σ : TokenTree} (spaced : Spaced σ.tokens text.toList)
    (h : readWhole (readValue maxDepth) text = .ok v) : σ.value = v := by
  obtain ⟨rest, read, -⟩ := readWhole_eq_ok_iff.mp h
  rw [← List.append_nil σ.tokens] at spaced
  exact (σ.fixes spaced trivial read).1.symm

end Texts

end FactFormula.Json
